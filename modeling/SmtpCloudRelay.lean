import SmtpCloudRelay.Email.DomainPatterns
import SmtpCloudRelay.Smtp.Trees
import SmtpCloudRelay.Smtp.Listeners
import SmtpCloudRelay.Smtp.Envelope
import SmtpCloudRelay.Providers.ReplyTo
import SmtpCloudRelay.Providers.SesFileNames
import SmtpCloudRelay.Providers.Agreement
import SmtpCloudRelay.Providers.Timing
import SmtpCloudRelay.Providers.SesFailures
import SmtpCloudRelay.Spool.FailedSave
import SmtpCloudRelay.Spool.Connection
import SmtpCloudRelay.Spool.Durability
import SmtpCloudRelay.Spool.RecoverTwice
import SmtpCloudRelay.Spool.Accounting
import SmtpCloudRelay.Spool.Acceptance
import SmtpCloudRelay.Spool.Delays
import SmtpCloudRelay.Relay.Handler
import SmtpCloudRelay.Startup
