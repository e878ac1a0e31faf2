import GlibcPorts.Lib.CString

/-!
# `GlibcPorts.Glue.Endian`: numbers in memory in a given byte order

The functions of `dragonflybsd-glue/include/sys/endian.h` that read and write unsigned numbers at
any address, the most or the least significant byte first. The memory is a list of bytes and a
pointer an offset in it. A read or a write outside of it is `none`.

`Coding` names the six formats, each with its pair of functions.
-/

set_option autoImplicit false

namespace GlibcPorts.Glue

open Lib

/-- A byte, promoted to an `int`. -/
def promote (b : UInt8) : BitVec 32 := b.toBitVec.setWidth 32

/-- `x & 0xff`, stored to a byte. -/
def lowByte {w : Nat} (x : BitVec w) : UInt8 := UInt8.ofBitVec ((x &&& 0xff).setWidth 8)

/-- `p[i] = b`. -/
def storeByte (mem : List UInt8) (p : Nat) (b : UInt8) : Option (List UInt8) :=
  CString.writeAt mem p [b]

/-- Reads 16 bits, the most significant byte first. -/
def be16dec (mem : List UInt8) (p : Nat) : Option (BitVec 16) :=
  match mem.drop p with
  | p0 :: p1 :: _ => some (((promote p0 <<< 8) ||| promote p1).setWidth 16)
  | _ => none

/-- Reads 32 bits, the most significant byte first. -/
def be32dec (mem : List UInt8) (p : Nat) : Option (BitVec 32) :=
  match mem.drop p with
  | p0 :: p1 :: p2 :: p3 :: _ =>
      some ((promote p0 <<< 24) ||| (promote p1 <<< 16) ||| (promote p2 <<< 8) ||| promote p3)
  | _ => none

/-- Reads 64 bits, the most significant byte first. -/
def be64dec (mem : List UInt8) (p : Nat) : Option (BitVec 64) := do
  let high ← be32dec mem p
  let low ← be32dec mem (p + 4)
  return (high.setWidth 64 <<< 32) ||| low.setWidth 64

/-- Reads 16 bits, the least significant byte first. -/
def le16dec (mem : List UInt8) (p : Nat) : Option (BitVec 16) :=
  match mem.drop p with
  | p0 :: p1 :: _ => some (((promote p1 <<< 8) ||| promote p0).setWidth 16)
  | _ => none

/-- Reads 32 bits, the least significant byte first. -/
def le32dec (mem : List UInt8) (p : Nat) : Option (BitVec 32) :=
  match mem.drop p with
  | p0 :: p1 :: p2 :: p3 :: _ =>
      some ((promote p3 <<< 24) ||| (promote p2 <<< 16) ||| (promote p1 <<< 8) ||| promote p0)
  | _ => none

/-- Reads 64 bits, the least significant byte first. -/
def le64dec (mem : List UInt8) (p : Nat) : Option (BitVec 64) := do
  let high ← le32dec mem (p + 4)
  let low ← le32dec mem p
  return (high.setWidth 64 <<< 32) ||| low.setWidth 64

/-- Writes 16 bits, the most significant byte first. -/
def be16enc (mem : List UInt8) (p : Nat) (u : BitVec 16) : Option (List UInt8) := do
  let mem ← storeByte mem p (lowByte (u >>> 8))
  storeByte mem (p + 1) (lowByte u)

/-- Writes 32 bits, the most significant byte first. -/
def be32enc (mem : List UInt8) (p : Nat) (u : BitVec 32) : Option (List UInt8) := do
  let mem ← storeByte mem p (lowByte (u >>> 24))
  let mem ← storeByte mem (p + 1) (lowByte (u >>> 16))
  let mem ← storeByte mem (p + 2) (lowByte (u >>> 8))
  storeByte mem (p + 3) (lowByte u)

/-- Writes 64 bits, the most significant byte first. -/
def be64enc (mem : List UInt8) (p : Nat) (u : BitVec 64) : Option (List UInt8) := do
  let mem ← be32enc mem p ((u >>> 32).setWidth 32)
  be32enc mem (p + 4) ((u &&& 0xffffffff).setWidth 32)

/-- Writes 16 bits, the least significant byte first. -/
def le16enc (mem : List UInt8) (p : Nat) (u : BitVec 16) : Option (List UInt8) := do
  let mem ← storeByte mem p (lowByte u)
  storeByte mem (p + 1) (lowByte (u >>> 8))

/-- Writes 32 bits, the least significant byte first. -/
def le32enc (mem : List UInt8) (p : Nat) (u : BitVec 32) : Option (List UInt8) := do
  let mem ← storeByte mem p (lowByte u)
  let mem ← storeByte mem (p + 1) (lowByte (u >>> 8))
  let mem ← storeByte mem (p + 2) (lowByte (u >>> 16))
  storeByte mem (p + 3) (lowByte (u >>> 24))

/-- Writes 64 bits, the least significant byte first. -/
def le64enc (mem : List UInt8) (p : Nat) (u : BitVec 64) : Option (List UInt8) := do
  let mem ← le32enc mem p ((u &&& 0xffffffff).setWidth 32)
  le32enc mem (p + 4) ((u >>> 32).setWidth 32)

/-! ### The formats -/

/-- A byte order and a width. -/
inductive Coding where
  | be16
  | be32
  | be64
  | le16
  | le32
  | le64
deriving DecidableEq, Repr

namespace Coding

/-- The bytes that a number takes. -/
def width : Coding → Nat
  | be16 | le16 => 2
  | be32 | le32 => 4
  | be64 | le64 => 8

/-- The bits of the type of the number. -/
def bits : Coding → Nat
  | be16 | le16 => 16
  | be32 | le32 => 32
  | be64 | le64 => 64

/-- The format with the other byte order. -/
def swap : Coding → Coding
  | be16 => le16
  | be32 => le32
  | be64 => le64
  | le16 => be16
  | le32 => be32
  | le64 => be64

/-- The function that reads the format. -/
def dec : (c : Coding) → List UInt8 → Nat → Option (BitVec c.bits)
  | be16 => be16dec
  | be32 => be32dec
  | be64 => be64dec
  | le16 => le16dec
  | le32 => le32dec
  | le64 => le64dec

/-- The function that writes it. -/
def enc : (c : Coding) → List UInt8 → Nat → BitVec c.bits → Option (List UInt8)
  | be16 => be16enc
  | be32 => be32enc
  | be64 => be64enc
  | le16 => le16enc
  | le32 => le32enc
  | le64 => le64enc

end Coding

end GlibcPorts.Glue
