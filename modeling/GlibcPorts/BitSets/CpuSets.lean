import GlibcPorts.Abi
import GlibcPorts.Lib.BitWords
import GlibcPorts.Lib.Simulation
import Mathlib.Data.Set.Insert

/-!
# `GlibcPorts.BitSets.CpuSets`: sets of CPUs of any size

The macros of `bits/sched.h` that take the size of the set. A set is a block of bytes, of which the
macros use the first `setsize`. They access it by words of type `__cpu_mask`, the first byte of a
word being the least significant one. An access outside of the block is `none`.

`cpuSetCalls` are the macros on any number of sets of one size, and `CpuSpec` what they should do.
-/

set_option autoImplicit false

namespace GlibcPorts.BitSets

open Lib

/-- `sizeof (__cpu_mask)`. -/
def sizeofCpuMask : Abi → Nat
  | .ilp32 => 4
  | .lp64 => 8

section Macros

variable (abi : Abi)

/-- `__NCPUBITS`. -/
def NCPUBITS : Nat := 8 * sizeofCpuMask abi

/-- `__CPUELT`. -/
def cpuElt (cpu : BitVec abi.longBits) : Nat := cpu.toNat / NCPUBITS abi

/-- `__CPUMASK`. -/
def cpuMask (cpu : BitVec abi.longBits) : BitVec abi.longBits :=
  (1 : BitVec abi.longBits) <<< (cpu.toNat % NCPUBITS abi)

/-- `__bits[i]`. -/
def cpuWord (set : List UInt8) (i : Nat) : Option (BitVec abi.longBits) :=
  (readBytes set (sizeofCpuMask abi * i) (sizeofCpuMask abi)).map fun bs =>
    BitVec.ofNat _ (leNat bs)

/-- `__bits[i] = word`. -/
def setCpuWord (set : List UInt8) (i : Nat) (word : BitVec abi.longBits) : Option (List UInt8) :=
  CString.writeAt set (sizeofCpuMask abi * i) (leBytes (sizeofCpuMask abi) word.toNat)

variable (setsize : BitVec abi.longBits)

/-- `__CPU_ZERO_S`. -/
def cpuZero (set : List UInt8) : Option (List UInt8) :=
  CString.writeAt set 0 (List.replicate setsize.toNat 0)

/-- `__CPU_SET_S`. -/
def cpuSet (cpu : BitVec abi.longBits) (set : List UInt8) : Option (List UInt8) :=
  if cpu < 8 * setsize then do
    let word ← cpuWord abi set (cpuElt abi cpu)
    setCpuWord abi set (cpuElt abi cpu) (word ||| cpuMask abi cpu)
  else some set

/-- `__CPU_CLR_S`. -/
def cpuClr (cpu : BitVec abi.longBits) (set : List UInt8) : Option (List UInt8) :=
  if cpu < 8 * setsize then do
    let word ← cpuWord abi set (cpuElt abi cpu)
    setCpuWord abi set (cpuElt abi cpu) (word &&& ~~~ cpuMask abi cpu)
  else some set

/-- `__CPU_ISSET_S`. -/
def cpuIsset (cpu : BitVec abi.longBits) (set : List UInt8) : Option Bool :=
  if cpu < 8 * setsize then
    (cpuWord abi set (cpuElt abi cpu)).map fun word => decide (word &&& cpuMask abi cpu ≠ 0)
  else some false

/-- `__CPU_EQUAL_S`. -/
def cpuEqual (set1 set2 : List UInt8) : Option Bool := do
  let bytes1 ← readBytes set1 0 setsize.toNat
  let bytes2 ← readBytes set2 0 setsize.toNat
  return bytes1 == bytes2

/-- `__CPU_ALLOC_SIZE`. -/
def cpuAllocSize (count : BitVec abi.longBits) : BitVec abi.longBits :=
  (count + BitVec.ofNat _ (NCPUBITS abi) - 1) / BitVec.ofNat _ (NCPUBITS abi) *
    BitVec.ofNat _ (sizeofCpuMask abi)

end Macros

/-- The operators that `__CPU_OP_S` is used with. -/
inductive CpuOp where
  | and
  | or
  | xor
deriving DecidableEq, Repr

namespace CpuOp

def onWords {w : Nat} : CpuOp → BitVec w → BitVec w → BitVec w
  | and, x, y => x &&& y
  | or, x, y => x ||| y
  | xor, x, y => x ^^^ y

def onBits : CpuOp → Bool → Bool → Bool
  | and, x, y => x && y
  | or, x, y => x || y
  | xor, x, y => x ^^ y

def onSets : CpuOp → Set Nat → Set Nat → Set Nat
  | and, s, t => s ∩ t
  | or, s, t => s ∪ t
  | xor, s, t => (s \ t) ∪ (t \ s)

end CpuOp

section Calls

variable {Var : Type} [DecidableEq Var]

/-- One turn of the loop of `__CPU_OP_S`. The destination may be an operand too. -/
def cpuOpTurn (abi : Abi) (op : CpuOp) (dest src1 src2 : Var) (sets : Var → List UInt8) (i : Nat) :
    Option (Var → List UInt8) := do
  let word1 ← cpuWord abi (sets src1) i
  let word2 ← cpuWord abi (sets src2) i
  let set ← setCpuWord abi (sets dest) i (op.onWords word1 word2)
  return Function.update sets dest set

/-- `__CPU_OP_S`. -/
def cpuOp (abi : Abi) (setsize : BitVec abi.longBits) (op : CpuOp) (dest src1 src2 : Var)
    (sets : Var → List UInt8) : Option (Var → List UInt8) :=
  (List.range (setsize.toNat / sizeofCpuMask abi)).foldlM (cpuOpTurn abi op dest src1 src2) sets

/-- A use of a macro, with the sets that its pointers point to. -/
inductive CpuCall (abi : Abi) (Var : Type) where
  | zero (set : Var)
  | set (cpu : BitVec abi.longBits) (set : Var)
  | clr (cpu : BitVec abi.longBits) (set : Var)
  | isset (cpu : BitVec abi.longBits) (set : Var)
  | equal (set1 set2 : Var)
  | op (op : CpuOp) (dest src1 src2 : Var)
deriving DecidableEq

/-- The result of a macro, `none` where nothing uses it. -/
abbrev CpuResult := Option Bool

/-- The macros on the sets of a program. -/
def cpuSetCalls (abi : Abi) (setsize : BitVec abi.longBits) :
    Machine (Var → List UInt8) (CpuCall abi Var) CpuResult where
  step
    | .zero v, sets =>
        (cpuZero abi setsize (sets v)).map fun set => (none, Function.update sets v set)
    | .set cpu v, sets =>
        (cpuSet abi setsize cpu (sets v)).map fun set => (none, Function.update sets v set)
    | .clr cpu v, sets =>
        (cpuClr abi setsize cpu (sets v)).map fun set => (none, Function.update sets v set)
    | .isset cpu v, sets => (cpuIsset abi setsize cpu (sets v)).map fun b => (some b, sets)
    | .equal u v, sets => (cpuEqual abi setsize (sets u) (sets v)).map fun b => (some b, sets)
    | .op op d u v, sets => (cpuOp abi setsize op d u v sets).map fun sets => (none, sets)

/-- What the macros should do to sets of the numbers below `8 * size`. -/
inductive CpuSpec (abi : Abi) (size : Nat) : Spec (Var → Set Nat) (CpuCall abi Var) CpuResult
  | zero {sets : Var → Set Nat} {v : Var} :
      CpuSpec abi size sets (.zero v) none (Function.update sets v ∅)
  | set {sets : Var → Set Nat} {cpu : BitVec abi.longBits} {v : Var} :
      CpuSpec abi size sets (.set cpu v) none
        (Function.update sets v (insert cpu.toNat (sets v) ∩ {c | c < 8 * size}))
  | clr {sets : Var → Set Nat} {cpu : BitVec abi.longBits} {v : Var} :
      CpuSpec abi size sets (.clr cpu v) none (Function.update sets v (sets v \ {cpu.toNat}))
  | isset {sets : Var → Set Nat} {cpu : BitVec abi.longBits} {v : Var} {b : Bool}
      (h : b = true ↔ cpu.toNat ∈ sets v) : CpuSpec abi size sets (.isset cpu v) (some b) sets
  | equal {sets : Var → Set Nat} {u v : Var} {b : Bool} (h : b = true ↔ sets u = sets v) :
      CpuSpec abi size sets (.equal u v) (some b) sets
  | op {sets : Var → Set Nat} {op : CpuOp} {d u v : Var} :
      CpuSpec abi size sets (.op op d u v) none
        (Function.update sets d (op.onSets (sets u) (sets v)))

/-- The CPUs in a set of `size` bytes. -/
def cpus (size : Nat) (set : List UInt8) : Set Nat :=
  {cpu | cpu < 8 * size ∧ (leNat set).testBit cpu = true}

end Calls

end GlibcPorts.BitSets
