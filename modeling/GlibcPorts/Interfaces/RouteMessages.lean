import GlibcPorts.Abi
import GlibcPorts.Lib.Records

/-!
# `GlibcPorts.Interfaces.RouteMessages`: what the kernel says of the network interfaces

`sysctl` with `NET_RT_IFLIST` fills a buffer with routing messages of varying length. Two types
of them matter here: `RTM_IFINFO` describes an interface, and each `RTM_NEWADDR` that follows it
an address of that interface. Behind the header of a message (`struct if_msghdr` and
`struct ifa_msghdr` of `net/if.h`) stand socket addresses, which say their own length.

A `RouteBuf` is the memory from the start of the buffer on. Code that trusts a length may read
behind the end of the buffer, so the memory goes on there, with any bytes. A message is given by
its offset.
-/

set_option autoImplicit false

namespace GlibcPorts.Interfaces

open Lib

/-- The version of the messages that the code understands. -/
def RTM_VERSION : UInt8 := 5

/-- The type of a message about an address. -/
def RTM_NEWADDR : UInt8 := 0xc

/-- The type of a message about an interface. -/
def RTM_IFINFO : UInt8 := 0xe

/-- The mask of the interface. Of `ifm_addrs` and `ifam_addrs`, `RTA_X` is the bit `RTAX_X`. -/
def RTAX_NETMASK : Nat := 2

/-- The name of the interface. -/
def RTAX_IFP : Nat := 4

/-- The address of the interface. -/
def RTAX_IFA : Nat := 5

/-- The broadcast address, or that of the other end. -/
def RTAX_BRD : Nat := 7

/-- The number of the addresses that a message can have. -/
def RTAX_MAX : Nat := 8

/-- The bit of the mask. -/
def RTA_NETMASK : BitVec 32 := 1 <<< RTAX_NETMASK

/-- The bit of the name. -/
def RTA_IFP : BitVec 32 := 1 <<< RTAX_IFP

/-- The bit of the address. -/
def RTA_IFA : BitVec 32 := 1 <<< RTAX_IFA

/-- The bit of the broadcast address. -/
def RTA_BRD : BitVec 32 := 1 <<< RTAX_BRD

/-- The addresses of a `RTM_NEWADDR` that the code looks at. -/
def RTA_MASKS : BitVec 32 := RTA_NETMASK ||| RTA_IFA ||| RTA_BRD

/-! ### Sizes -/

/-- `sizeof (long)`. -/
def sizeofLong (abi : Abi) : Nat := abi.longBits / 8

/-- `SALIGN + 1` and `ALIGNBYTES + 1` are the size of a `long`. -/
def SALIGN (abi : Abi) : Nat := sizeofLong abi - 1

/-- What `ALIGN` rounds up to, less one. -/
def ALIGNBYTES (abi : Abi) : Nat := sizeofLong abi - 1

/-- `(n + mask) & ~mask`, for a `mask` that is a power of two less one. -/
def alignUp (n mask : Nat) : Nat := (n + mask) / (mask + 1) * (mask + 1)

/-- `sizeof (struct if_data)`. -/
def sizeofIfData : Abi → Nat
  | .ilp32 => 80
  | .lp64 => 152

/-- `ifm_data` is the last member of `struct if_msghdr`. -/
def ifmDataOff : Nat := 16

/-- `sizeof (struct if_msghdr)`. -/
def sizeofIfMsghdr (abi : Abi) : Nat := ifmDataOff + sizeofIfData abi

/-- `sizeof (struct ifa_msghdr)`. -/
def sizeofIfaMsghdr : Nat := 20

/-- `sizeof (struct ifaddrs)`. -/
def sizeofIfaddrs : Abi → Nat
  | .ilp32 => 28
  | .lp64 => 56

/-! ### Reading -/

/-- The memory from the start of the buffer on, and the number of bytes the kernel stored. -/
structure RouteBuf where
  mem : Nat → UInt8
  needed : Nat

namespace RouteBuf

variable (buf : RouteBuf) (abi : Abi) (p : Nat)

/-- `n` bytes of memory. -/
def bytes (n : Nat) : List UInt8 := (List.range n).map fun i => buf.mem (p + i)

/-- They are `n` bytes. -/
@[simp] theorem length_bytes (n : Nat) : (buf.bytes p n).length = n := by
  rw [bytes, List.length_map, List.length_range]

/-- An `unsigned short`. -/
def u16 : Nat := leNat (buf.bytes p 2)

/-- An `int`, as its bits. -/
def int : BitVec 32 := BitVec.ofNat 32 (leNat (buf.bytes p 4))

/-! The members of the message at `p`. Those of `struct rt_msghdr` come first in the other two. -/

/-- The length of the message, with its addresses. -/
def rtmMsglen : Nat := buf.u16 p

/-- Its version. -/
def rtmVersion : UInt8 := buf.mem (p + 2)

/-- Its type. -/
def rtmType : UInt8 := buf.mem (p + 3)

/-- The bits of the addresses behind a `struct if_msghdr`. -/
def ifmAddrs : BitVec 32 := buf.int (p + 4)

/-- The flags of the interface. -/
def ifmFlags : BitVec 32 := buf.int (p + 8)

/-- The index of the interface. -/
def ifmIndex : Nat := buf.u16 (p + 12)

/-- The statistics of the interface. -/
def ifmData : List UInt8 := buf.bytes (p + ifmDataOff) (sizeofIfData abi)

/-- The bits of the addresses behind a `struct ifa_msghdr`. -/
def ifamAddrs : BitVec 32 := buf.int (p + 4)

/-- The index of the interface that has the address. -/
def ifamIndex : Nat := buf.u16 (p + 12)

/-! The members of the socket address at `p`. -/

/-- `SA_LEN`. -/
def saLen : Nat := (buf.mem p).toNat

/-- `SA_RLEN`. -/
def saRlen : Nat := if buf.saLen p ≠ 0 then alignUp (buf.saLen p) (SALIGN abi) else SALIGN abi + 1

/-- The length of the name in a `struct sockaddr_dl`. -/
def sdlNlen : Nat := (buf.mem (p + 5)).toNat

/-- The name of an interface: the first `sdl_nlen` bytes of `sdl_data`. -/
def sdlName : List UInt8 := buf.bytes (p + 8) (buf.sdlNlen p)

end RouteBuf

/-! ### The addresses of a message -/

section Addresses

variable (abi : Abi) (buf : RouteBuf)

/-- The bits that the loops over the addresses do not skip. -/
def addrBits (addrs : BitVec 32) : List Nat :=
  (List.range RTAX_MAX).filter fun i => RTA_MASKS &&& addrs &&& (1 <<< i) != 0

/-- `alen`: the length of the address with the bit `RTAX_IFA`, or 0. -/
def alenOf : List Nat → Nat → Nat
  | [], _ => 0
  | i :: is, p =>
      let len := buf.saRlen abi p
      if i = RTAX_IFA then len else alenOf is (p + len)

end Addresses

end GlibcPorts.Interfaces
