/-
  GO TIME: instants and durations.

  A duration is a signed 64-bit number of nanoseconds, and arithmetic on it WRAPS; `wrap64` is
  written wherever the code multiplies or adds without a check of its own.  An instant is the
  number of nanoseconds since the Unix epoch, as an unbounded integer: Go's `time.Time` holds
  instants of hundreds of billions of years, so adding a duration to one never wraps.

  The zero `time.Time`, which the code uses for "never", is the first instant of year 1.
-/
import SmtpCloudRelay.Go.Strings
import Mathlib.Algebra.Order.Ring.Int

namespace SmtpCloudRelay.Go

/-- A result of 64-bit signed arithmetic: reduced to the range from -2^63 to 2^63 - 1. -/
def wrap64 (n : Int) : Int := Int.bmod n (2 ^ 64)

/-- The largest `time.Duration`, 2^63 - 1 nanoseconds. -/
def maxDuration : Int := 9223372036854775807

def millisecond : Int := 1000000

def second : Int := 1000000000

/-- `time.Duration(ms) * time.Millisecond`. -/
def durationOfMillis (ms : Int) : Int := wrap64 (ms * millisecond)

/-- The largest number of milliseconds that is a duration: (2^63 - 1) / 10^6. -/
def maxMillis : Int := 9223372036854

/-- **A positive number of milliseconds converts without wrapping exactly up to `maxMillis`.** -/
theorem durationOfMillis_eq {ms : Int} (h : 1 ≤ ms) :
    durationOfMillis ms = ms * millisecond ↔ ms ≤ maxMillis := by
  unfold durationOfMillis wrap64 millisecond maxMillis
  rw [Int.bmod_def]
  split <;> omega

theorem durationOfMillis_pos {ms : Int} (h : 1 ≤ ms) (hmax : ms ≤ maxMillis) :
    0 < durationOfMillis ms := by
  rw [(durationOfMillis_eq h).mpr hmax]
  unfold millisecond
  omega

/-- A number in range does not wrap. -/
theorem wrap64_of_range {n : Int} (h : -maxDuration ≤ n) (hmax : n ≤ maxDuration) : wrap64 n = n := by
  unfold wrap64
  unfold maxDuration at h hmax
  rw [Int.bmod_def]
  split <;> omega

/-- One more than a number in range wraps to a negative number or not at all. -/
theorem wrap64_succ {n : Int} (h0 : 0 ≤ n) (hmax : n ≤ maxDuration) (h : 0 ≤ wrap64 (n + 1)) :
    wrap64 (n + 1) = n + 1 := by
  unfold wrap64 maxDuration at *
  rw [Int.bmod_def] at *
  split at h <;> split <;> omega

/-- The zero `time.Time`. -/
def zeroTime : Int := -62135596800000000000

/-- `Time.UnixMilli`, before it is cut to an int64. -/
def unixMilli (t : Int) : Int := t / millisecond

/-- `time.UnixMilli`. -/
def ofMillis (ms : Int) : Int := ms * millisecond

@[simp] theorem unixMilli_ofMillis (ms : Int) : unixMilli (ofMillis ms) = ms := by
  unfold unixMilli ofMillis millisecond
  omega

/-! ## Printing durations -/

/-- The `k` lowest decimal digits of `v`. -/
def decimals : Nat → Nat → GoString
  | 0, _ => []
  | k + 1, v => decimals k (v / 10) ++ [0x30 + (v % 10).toUInt8]

/-- The lowest `k` digits of `v` as a fraction, without trailing zeros. -/
def fraction : Nat → Nat → GoString
  | 0, _ => []
  | k + 1, v => if v % 10 = 0 then fraction k (v / 10) else lit "." ++ decimals (k + 1) v

/-- `Duration.String`, of an absolute value. -/
def durationMagnitude (u : Nat) : GoString :=
  let seconds := u / 1000000000
  let minutes := seconds / 60
  if u = 0 then lit "0s"
  else if u < 1000 then itoa u ++ lit "ns"
  else if u < 1000000 then itoa (u / 1000 : Nat) ++ fraction 3 u ++ lit "µs"
  else if u < 1000000000 then itoa (u / 1000000 : Nat) ++ fraction 6 u ++ lit "ms"
  else (if minutes / 60 = 0 then [] else itoa (minutes / 60 : Nat) ++ lit "h") ++
    (if minutes = 0 then [] else itoa (minutes % 60 : Nat) ++ lit "m") ++
    itoa (seconds % 60 : Nat) ++ fraction 9 u ++ lit "s"

/-- `Duration.String`. -/
def durationText (d : Int) : GoString :=
  (if d < 0 then lit "-" else []) ++ durationMagnitude d.natAbs

end SmtpCloudRelay.Go
