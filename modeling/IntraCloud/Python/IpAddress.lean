import Mathlib.Algebra.Group.Nat.Defs
import Mathlib.Data.List.Basic

/-!
# IP addresses

The `ipaddress` module of Python 3.13: what an address is said to be. An IPv6 address that maps an IPv4 one
is what that one is.
-/

namespace Python

/-- `IPv4Address` and `IPv6Address`, the latter without its scope. -/
inductive IpAddress where
  | v4 (value : BitVec 32)
  | v6 (value : BitVec 128)
  deriving DecidableEq, Repr

/-- A network: its first address and the length of its prefix. -/
structure Network where
  first : Nat
  prefixLength : Nat
  deriving DecidableEq, Repr

/-- `address in network`, for addresses of `width` bits. -/
def Network.contains (width : Nat) (network : Network) (address : Nat) : Bool :=
  address / 2 ^ (width - network.prefixLength) == network.first / 2 ^ (width - network.prefixLength)

/-- The IPv4 network `a.b.c.d/n`. -/
def network4 (a b c d n : Nat) : Network := ⟨16777216 * a + 65536 * b + 256 * c + d, n⟩

/-- The IPv6 network that begins with these groups of sixteen bits. -/
def network6 (groups : List Nat) (n : Nat) : Network :=
  ⟨(groups ++ List.replicate (8 - groups.length) 0).foldl (fun value group => 65536 * value + group) 0, n⟩

/-! ## Constants -/

namespace IPv4Constants

def linklocalNetwork : Network := network4 169 254 0 0 16

def loopbackNetwork : Network := network4 127 0 0 0 8

def multicastNetwork : Network := network4 224 0 0 0 4

def reservedNetwork : Network := network4 240 0 0 0 4

def privateNetworks : List Network :=
  [network4 0 0 0 0 8, network4 10 0 0 0 8, network4 127 0 0 0 8, network4 169 254 0 0 16,
    network4 172 16 0 0 12, network4 192 0 0 0 24, network4 192 0 0 170 31, network4 192 0 2 0 24,
    network4 192 168 0 0 16, network4 198 18 0 0 15, network4 198 51 100 0 24, network4 203 0 113 0 24,
    network4 240 0 0 0 4, network4 255 255 255 255 32]

def privateNetworksExceptions : List Network := [network4 192 0 0 9 32, network4 192 0 0 10 32]

end IPv4Constants

namespace IPv6Constants

def linklocalNetwork : Network := network6 [0xFE80] 10

def multicastNetwork : Network := network6 [0xFF00] 8

def mappedNetwork : Network := network6 [0, 0, 0, 0, 0, 0xFFFF] 96

def privateNetworks : List Network :=
  [network6 [0, 0, 0, 0, 0, 0, 0, 1] 128, network6 [] 128, network6 [0, 0, 0, 0, 0, 0xFFFF] 96,
    network6 [0x64, 0xFF9B, 1] 48, network6 [0x100] 64, network6 [0x2001] 23, network6 [0x2001, 0xDB8] 32,
    network6 [0x2002] 16, network6 [0x3FFF] 20, network6 [0xFC00] 7, network6 [0xFE80] 10]

def privateNetworksExceptions : List Network :=
  [network6 [0x2001, 1, 0, 0, 0, 0, 0, 1] 128, network6 [0x2001, 1, 0, 0, 0, 0, 0, 2] 128,
    network6 [0x2001, 3] 32, network6 [0x2001, 4, 0x112] 48, network6 [0x2001, 0x20] 28,
    network6 [0x2001, 0x30] 28]

def reservedNetworks : List Network :=
  [network6 [] 8, network6 [0x100] 8, network6 [0x200] 7, network6 [0x400] 6, network6 [0x800] 5,
    network6 [0x1000] 4, network6 [0x4000] 3, network6 [0x6000] 3, network6 [0x8000] 3, network6 [0xA000] 3,
    network6 [0xC000] 3, network6 [0xE000] 4, network6 [0xF000] 5, network6 [0xF800] 6, network6 [0xFE00] 9]

end IPv6Constants

/-! ## Properties -/

namespace IpAddress

/-- `ipv4_mapped`. -/
def mapped (value : BitVec 128) : Option (BitVec 32) :=
  if IPv6Constants.mappedNetwork.contains 128 value.toNat then some (value.truncate 32) else none

/-- A property of both kinds of addresses. -/
def property (of4 : Nat → Bool) (of6 : Nat → Bool) : IpAddress → Bool
  | v4 value => of4 value.toNat
  | v6 value =>
    match mapped value with
    | some value => of4 value.toNat
    | none => of6 value.toNat

def isLinkLocal : IpAddress → Bool :=
  property (IPv4Constants.linklocalNetwork.contains 32) (IPv6Constants.linklocalNetwork.contains 128)

def isLoopback : IpAddress → Bool := property (IPv4Constants.loopbackNetwork.contains 32) (· == 1)

def isMulticast : IpAddress → Bool :=
  property (IPv4Constants.multicastNetwork.contains 32) (IPv6Constants.multicastNetwork.contains 128)

def isUnspecified : IpAddress → Bool := property (· == 0) (· == 0)

def isReserved : IpAddress → Bool :=
  property (IPv4Constants.reservedNetwork.contains 32)
    (fun n => IPv6Constants.reservedNetworks.any (Network.contains 128 · n))

def isPrivate : IpAddress → Bool :=
  property
    (fun n => IPv4Constants.privateNetworks.any (Network.contains 32 · n) &&
      IPv4Constants.privateNetworksExceptions.all fun network => !network.contains 32 n)
    (fun n => IPv6Constants.privateNetworks.any (Network.contains 128 · n) &&
      IPv6Constants.privateNetworksExceptions.all fun network => !network.contains 128 n)

end IpAddress

end Python
