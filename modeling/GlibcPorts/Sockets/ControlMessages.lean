import GlibcPorts.Abi
import GlibcPorts.Lib.Alignment
import GlibcPorts.Lib.ByteOrder

/-!
# `GlibcPorts.Sockets.ControlMessages`: ancillary data

The macros of `kfreebsd/bits/socket.h` for the ancillary data of a message, in the form that GNU C
gets. The program fills or reads a buffer (`msg_control`, of `msg_controllen` bytes) of headers,
each followed by its data, with padding up to a multiple of `sizeof (size_t)`.

A pointer to a header is its address, and what is added to it wraps around (`addPtr`). `Walk` is
how the usual loop over `CMSG_FIRSTHDR` and `CMSG_NXTHDR` goes: the headers that it gets, and how
it ends.
-/

set_option autoImplicit false

namespace GlibcPorts.Sockets

open Lib

section Macros

variable (abi : Abi)

/-- The logarithm of `sizeof (size_t)`. -/
def sizeTLog : Abi → Nat
  | .ilp32 => 2
  | .lp64 => 3

/-- `sizeof (size_t)`. -/
def sizeofSizeT : Nat := 2 ^ sizeTLog abi

/-- `sizeof (struct cmsghdr)`: three words of four bytes, up to the alignment of the data. -/
def sizeofCmsghdr : Nat :=
  match abi with
  | .ilp32 => 12
  | .lp64 => 16

/-- `CMSG_ALIGN (len)`, as a `size_t`. -/
def CMSG_ALIGN (len : Nat) : Nat :=
  (alignUp (sizeTLog abi) (BitVec.ofNat abi.longBits len)).toNat

/-- `CMSG_SPACE (len)`. -/
def CMSG_SPACE (len : Nat) : Nat := CMSG_ALIGN abi len + CMSG_ALIGN abi (sizeofCmsghdr abi)

/-- `CMSG_LEN (len)`. -/
def CMSG_LEN (len : Nat) : Nat := CMSG_ALIGN abi (sizeofCmsghdr abi) + len

end Macros

/-- What the macros read of a `struct msghdr`: the address of the buffer and the bytes in it. It
lies in the address space, as does the address behind it, and it is not at `NULL`. -/
structure MsgHdr (abi : Abi) where
  msgControl : Nat
  control : List UInt8
  limit_lt : msgControl + control.length < 2 ^ abi.longBits
  msgControl_pos : control ≠ [] → 0 < msgControl

section Headers

variable {abi : Abi} (mhdr : MsgHdr abi)

/-- `(unsigned char *) mhdr->msg_control + mhdr->msg_controllen`. -/
def MsgHdr.limit : Nat := mhdr.msgControl + mhdr.control.length

/-- A word of four bytes at this address, if it lies in the buffer. -/
def MsgHdr.word (addr : Nat) : Option Nat :=
  if mhdr.msgControl ≤ addr then readLe mhdr.control (addr - mhdr.msgControl) 4 else none

/-- A pointer `n` bytes further on. -/
def addPtr (abi : Abi) (p n : Nat) : Nat := (p + n) % 2 ^ abi.longBits

/-- `CMSG_FIRSTHDR (mhdr)`. -/
def CMSG_FIRSTHDR : Option Nat :=
  if sizeofCmsghdr abi ≤ mhdr.control.length then some mhdr.msgControl else none

/-- `cmsg->cmsg_len`, if it lies in the buffer. -/
def cmsgLen (cmsg : Nat) : Option Nat := mhdr.word cmsg

/-- `__cmsg_nxthdr (mhdr, cmsg)`. `none` is a read outside the buffer, and `some none` is
`NULL`. -/
def cmsgNxthdr (cmsg : Nat) : Option (Option Nat) := do
  let len ← cmsgLen mhdr cmsg
  if len < sizeofCmsghdr abi then return none
  else
    let next := addPtr abi cmsg (CMSG_ALIGN abi len)
    -- The length of the next header is read only if the header does not end behind the buffer.
    if mhdr.limit < addPtr abi next (sizeofCmsghdr abi) then return none
    else
      let nextLen ← cmsgLen mhdr next
      if mhdr.limit < addPtr abi next (CMSG_ALIGN abi nextLen) then return none
      else return some next

/-- `CMSG_DATA (cmsg)`, the data of a header with this length. -/
def CMSG_DATA (cmsg len : Nat) : List UInt8 :=
  (mhdr.control.drop (cmsg - mhdr.msgControl + sizeofCmsghdr abi)).take (len - sizeofCmsghdr abi)

/-- How the loop over the headers goes. -/
inductive Walk where
  /-- `NULL` ends the loop after these headers. -/
  | ended (headers : List Nat)
  /-- A read outside the buffer. -/
  | fault
  /-- The loop still runs. -/
  | running
deriving DecidableEq, Repr

/-- One more header in front. -/
def Walk.cons (cmsg : Nat) : Walk → Walk
  | .ended headers => .ended (cmsg :: headers)
  | .fault => .fault
  | .running => .running

/-- `for (; cmsg != NULL; cmsg = CMSG_NXTHDR (mhdr, cmsg))`, for this many turns. -/
def walkFrom : Nat → Option Nat → Walk
  | 0, _ => .running
  | _ + 1, none => .ended []
  | fuel + 1, some cmsg =>
      match cmsgNxthdr mhdr cmsg with
      | none => .fault
      | some next => (walkFrom fuel next).cons cmsg

/-- The loop from `CMSG_FIRSTHDR (mhdr)` on. -/
def walkHeaders (fuel : Nat) : Walk := walkFrom mhdr fuel (CMSG_FIRSTHDR mhdr)

end Headers

/-! ### Messages -/

/-- One message of the ancillary data. -/
structure Cmsg where
  cmsgLevel : BitVec 32
  cmsgType : BitVec 32
  data : List UInt8
deriving DecidableEq, Repr

section Messages

variable (abi : Abi)

/-- The header of a message, with `cmsg_len = CMSG_LEN (…)`. -/
def headerBytes (m : Cmsg) : List UInt8 :=
  leBytes 4 (CMSG_LEN abi m.data.length) ++ leBytes 4 m.cmsgLevel.toNat ++
    leBytes 4 m.cmsgType.toNat ++ List.replicate (sizeofCmsghdr abi - 12) 0

/-- The bytes between the data of a message and the next header. -/
def padding (m : Cmsg) : Nat := CMSG_SPACE abi m.data.length - CMSG_LEN abi m.data.length

/-- A message in `CMSG_LEN (…)` bytes. -/
def cmsgBytes (m : Cmsg) : List UInt8 := headerBytes abi m ++ m.data

/-- Messages one behind the other, each in `CMSG_SPACE (…)` bytes. -/
def controlBytes (ms : List Cmsg) : List UInt8 :=
  ms.flatMap fun m => cmsgBytes abi m ++ List.replicate (padding abi m) 0

variable {abi}

/-- The message that a reader gets at a header. -/
def readCmsg (mhdr : MsgHdr abi) (cmsg : Nat) : Option Cmsg := do
  let len ← cmsgLen mhdr cmsg
  let level ← mhdr.word (addPtr abi cmsg 4)
  let type ← mhdr.word (addPtr abi cmsg 8)
  return ⟨BitVec.ofNat 32 level, BitVec.ofNat 32 type, CMSG_DATA mhdr cmsg len⟩

/-- The loop ends and gives these messages. -/
def Receives (mhdr : MsgHdr abi) (ms : List Cmsg) : Prop :=
  ∃ fuel headers, walkHeaders mhdr fuel = .ended headers ∧
    headers.map (readCmsg mhdr) = ms.map some

end Messages

end GlibcPorts.Sockets
