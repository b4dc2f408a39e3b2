/-
# IPv6 addresses

`struct in6_addr` and the `IN6_IS_ADDR_*` tests of `<netinet/in.h>` that the daemon uses.  An
address is its sixteen bytes; the length is part of the type, so that an address read from a
packet (`readAddr`) is one by construction.
-/
import Ecmh.Lib.Bytes

namespace Ecmh

open ByteMem

/-- `struct in6_addr`. -/
structure In6Addr where
  s6Addr : List UInt8
  size : s6Addr.length = 16
  deriving DecidableEq

namespace In6Addr

/-- The address written as its sixteen bytes, `::` where the list is not that long. -/
def ofBytes (bs : List UInt8) : In6Addr :=
  if h : bs.length = 16 then ⟨bs, h⟩ else ⟨List.replicate 16 0, rfl⟩

/-- `in6addr_any`, the unspecified address `::`. -/
def any : In6Addr := ⟨List.replicate 16 0, rfl⟩

/-- `s6_addr[i]`. -/
def byte (a : In6Addr) (i : Nat) : UInt8 := a.s6Addr.getD i 0

end In6Addr

/-- The address that starts at offset `off`. -/
def readAddr (m : Mem) (off : Nat) : In6Addr := ⟨m.read off 16, by simp⟩

@[simp] theorem s6Addr_readAddr (m : Mem) (off : Nat) : (readAddr m off).s6Addr = m.read off 16 :=
  rfl

theorem In6Addr.ext {a b : In6Addr} (h : a.s6Addr = b.s6Addr) : a = b := by
  cases a
  cases b
  simpa using h

/-- An address copied into memory is read back. -/
theorem readAddr_of_read {m : Mem} {off : Nat} {a : In6Addr} (h : m.read off 16 = a.s6Addr) :
    readAddr m off = a := In6Addr.ext h

theorem readAddr_shift (m : Mem) (a off : Nat) : readAddr (m.shift a) off = readAddr m (a + off) :=
  In6Addr.ext (Mem.read_shift m a off 16)

/-- A change of the packet that leaves the address alone. -/
theorem readAddr_congr {m m' : Mem} {off : Nat} (h : ∀ k, off ≤ k → k < off + 16 → m k = m' k) :
    readAddr m off = readAddr m' off :=
  In6Addr.ext (Mem.read_congr h)

/-! ## The address tests -/

/-- `IN6_IS_ADDR_UNSPECIFIED`. -/
def in6IsAddrUnspecified (a : In6Addr) : Bool := a = In6Addr.any

/-- `IN6_IS_ADDR_LOOPBACK`. -/
def in6IsAddrLoopback (a : In6Addr) : Bool := a.s6Addr = List.replicate 15 0 ++ [1]

/-- `IN6_IS_ADDR_MULTICAST`. -/
def in6IsAddrMulticast (a : In6Addr) : Bool := a.byte 0 = 0xff

/-- `IN6_IS_ADDR_LINKLOCAL`: the prefix `fe80::/10`. -/
def in6IsAddrLinklocal (a : In6Addr) : Bool := a.byte 0 = 0xfe && a.byte 1 &&& 0xc0 = 0x80

/-- `IN6_IS_ADDR_MC_NODELOCAL`: multicast, scope 1. -/
def in6IsAddrMcNodelocal (a : In6Addr) : Bool := in6IsAddrMulticast a && a.byte 1 &&& 0x0f = 1

/-- `IN6_IS_ADDR_MC_LINKLOCAL`: multicast, scope 2. -/
def in6IsAddrMcLinklocal (a : In6Addr) : Bool := in6IsAddrMulticast a && a.byte 1 &&& 0x0f = 2

@[simp] theorem in6IsAddrUnspecified_iff {a : In6Addr} :
    in6IsAddrUnspecified a = true ↔ a = In6Addr.any := by
  simp [in6IsAddrUnspecified]

@[simp] theorem in6IsAddrUnspecified_eq_false {a : In6Addr} :
    in6IsAddrUnspecified a = false ↔ a ≠ In6Addr.any := by
  simp [in6IsAddrUnspecified]

end Ecmh
