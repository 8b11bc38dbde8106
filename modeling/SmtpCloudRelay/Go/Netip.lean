/-
  GO NETWORK ADDRESSES: the part of package `net/netip` that the access list rests on.

  An address is an IPv4 address of 32 bits or an IPv6 address of 128 bits with a zone, which is
  empty for most.  An IPv4 address may also arrive inside an IPv6 one (`::ffff:a.b.c.d`);
  `unmap` takes it out again, and the access list is always asked about the unmapped address.

  A prefix contains an address of ITS OWN family whose leading bits agree with the prefix's; an
  address with a zone lies in no prefix.
-/
import SmtpCloudRelay.Go.Strings

namespace SmtpCloudRelay.Go

/-- `netip.Addr`, of a valid address. -/
inductive Addr where
  | v4 (bits : BitVec 32)
  | v6 (bits : BitVec 128) (zone : GoString)
  deriving DecidableEq

namespace Addr

/-- The bytes of an address, most significant first, as one number. -/
def ofBytes (bs : List UInt8) : Nat := bs.foldl (fun n b => n * 256 + b.toNat) 0

/-- `netip.AddrFromSlice`: four bytes or sixteen. -/
def fromSlice (bs : List UInt8) : Option Addr :=
  if bs.length = 4 then some (.v4 (BitVec.ofNat 32 (ofBytes bs)))
  else if bs.length = 16 then some (.v6 (BitVec.ofNat 128 (ofBytes bs)) [])
  else none

/-- `Addr.Unmap`: the IPv4 address inside an IPv6 one with the leading bits `::ffff:0:0/96`. -/
def unmap : Addr → Addr
  | .v4 a => .v4 a
  | .v6 a zone => if a >>> 32 = 0xFFFF then .v4 (a.truncate 32) else .v6 a zone

end Addr

/-- `netip.Prefix`, of a valid prefix: an address and how many of its bits count. -/
structure Prefix where
  addr : Addr
  bits : Nat
  deriving DecidableEq

/-- `Prefix.Contains`. -/
def Prefix.contains (p : Prefix) (a : Addr) : Bool :=
  match p.addr, a with
  | .v4 x, .v4 y => (x ^^^ y) >>> (32 - p.bits) = 0
  | .v6 x _, .v6 y zone => zone = [] && (x ^^^ y) >>> (128 - p.bits) = 0
  | _, _ => false

end SmtpCloudRelay.Go
