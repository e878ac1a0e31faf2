import GlibcPorts.Lib.BitWords
import GlibcPorts.Lib.Simulation
import Mathlib.Algebra.Group.Int.Defs
import Mathlib.Data.Set.Insert

/-!
# `GlibcPorts.BitSets.Signals`: sets of signals

The macros and functions of `bits/sigset.h`, and those of `sigset-cvt-mask.h`. A `sigset_t` is four
words with a bit for each signal. The functions do not check the number of a signal, so an access
to a word that the set does not have is `none`.

`sigsetCalls` are the calls on any number of sets, and `SigSpec` what they do to sets of numbers.
-/

set_option autoImplicit false

namespace GlibcPorts.BitSets

open Lib

/-- `sigset_t`. -/
structure SigSet where
  sigbits : List (BitVec 32)
  length_sigbits : sigbits.length = 4
deriving DecidableEq

/-- `__sigmask`, the bit for a signal only. -/
def sigmask (sig : Int) : BitVec 32 := (1 : BitVec 32) <<< ((sig - 1).tmod 32).toNat

/-- `__sigword`, the word index for a signal. -/
def sigword (sig : Int) : Int := (sig - 1) >>> (5 : Nat)

namespace SigSet

/-- `set->__sigbits[i]`. -/
def word (set : SigSet) (i : Int) : Option (BitVec 32) :=
  if 0 ≤ i then set.sigbits[i.toNat]? else none

/-- An assignment to `set->__sigbits[i]`. -/
def update (set : SigSet) (i : Int) (f : BitVec 32 → BitVec 32) : Option SigSet :=
  if 0 ≤ i ∧ i < 4 then
    some ⟨set.sigbits.modify i.toNat f, by rw [List.length_modify, set.length_sigbits]⟩
  else none

end SigSet

/-- `__sigemptyset`. -/
def sigemptyset : SigSet := ⟨[0, 0, 0, 0], rfl⟩

/-- `__sigfillset`. -/
def sigfillset : SigSet := ⟨[~~~0, ~~~0, ~~~0, ~~~0], rfl⟩

/-- `__sigisemptyset`. -/
def sigisemptyset (set : SigSet) : Bool := set.sigbits.all (· == 0)

/-- `__sigandset`. -/
def sigandset (left right : SigSet) : SigSet :=
  ⟨List.zipWith (· &&& ·) left.sigbits right.sigbits, by
    rw [List.length_zipWith, left.length_sigbits, right.length_sigbits, Nat.min_self]⟩

/-- `__sigorset`. -/
def sigorset (left right : SigSet) : SigSet :=
  ⟨List.zipWith (· ||| ·) left.sigbits right.sigbits, by
    rw [List.length_zipWith, left.length_sigbits, right.length_sigbits, Nat.min_self]⟩

/-- `__sigismember`. -/
def sigismember (set : SigSet) (sig : Int) : Option Bool :=
  (set.word (sigword sig)).map fun word => decide (word &&& sigmask sig ≠ 0)

/-- `__sigaddset`. -/
def sigaddset (set : SigSet) (sig : Int) : Option SigSet :=
  set.update (sigword sig) (· ||| sigmask sig)

/-- `__sigdelset`. -/
def sigdelset (set : SigSet) (sig : Int) : Option SigSet :=
  set.update (sigword sig) (· &&& ~~~ sigmask sig)

/-- `sigset_set_old_mask`. -/
def sigsetSetOldMask (mask : BitVec 32) : SigSet := ⟨[mask, 0, 0, 0], rfl⟩

/-- `sigset_get_old_mask`. -/
def sigsetGetOldMask (set : SigSet) : BitVec 32 := set.sigbits[0]?.getD 0

/-! ### Calls on any number of sets -/

section Calls

variable {Var : Type} [DecidableEq Var]

/-- A call, with the sets that its pointers point to. -/
inductive SigCall (Var : Type) where
  | sigemptyset (set : Var)
  | sigfillset (set : Var)
  | sigisemptyset (set : Var)
  | sigandset (dest left right : Var)
  | sigorset (dest left right : Var)
  | sigismember (set : Var) (sig : Int)
  | sigaddset (set : Var) (sig : Int)
  | sigdelset (set : Var) (sig : Int)
  | setOldMask (set : Var) (mask : BitVec 32)
  | getOldMask (set : Var)
deriving DecidableEq

/-- The result of a call: the `0` of the ones that store, a truth value, or a mask. -/
inductive SigResult where
  | done
  | test (b : Bool)
  | mask (m : BitVec 32)
deriving DecidableEq, Repr

/-- The calls on the sets of a program. -/
def sigsetCalls : Machine (Var → SigSet) (SigCall Var) SigResult where
  step
    | .sigemptyset v, sets => some (.done, Function.update sets v sigemptyset)
    | .sigfillset v, sets => some (.done, Function.update sets v sigfillset)
    | .sigisemptyset v, sets => some (.test (sigisemptyset (sets v)), sets)
    | .sigandset d l r, sets =>
        some (.done, Function.update sets d (sigandset (sets l) (sets r)))
    | .sigorset d l r, sets => some (.done, Function.update sets d (sigorset (sets l) (sets r)))
    | .sigismember v sig, sets => (sigismember (sets v) sig).map fun b => (.test b, sets)
    | .sigaddset v sig, sets =>
        (sigaddset (sets v) sig).map fun set => (.done, Function.update sets v set)
    | .sigdelset v sig, sets =>
        (sigdelset (sets v) sig).map fun set => (.done, Function.update sets v set)
    | .setOldMask v mask, sets => some (.done, Function.update sets v (sigsetSetOldMask mask))
    | .getOldMask v, sets => some (.mask (sigsetGetOldMask (sets v)), sets)

/-- The signals of a call are ones that a set has a bit for. -/
def SigCall.InRange : SigCall Var → Prop
  | .sigismember _ sig | .sigaddset _ sig | .sigdelset _ sig => 1 ≤ sig ∧ sig ≤ 128
  | _ => True

/-- The signals in a set. -/
def SigSet.signals (set : SigSet) : Set Int :=
  {sig | 1 ≤ sig ∧ hasBit set.sigbits (sig - 1).toNat = true}

/-- The signals of an old mask: it has a bit for each of the first 32. -/
def oldMaskSignals (mask : BitVec 32) : Set Int :=
  {sig | 1 ≤ sig ∧ sig ≤ 32 ∧ mask.getLsbD (sig - 1).toNat = true}

/-- What the calls do to sets of signals. -/
inductive SigSpec : Spec (Var → Set Int) (SigCall Var) SigResult
  | sigemptyset {sets : Var → Set Int} {v : Var} :
      SigSpec sets (.sigemptyset v) .done (Function.update sets v ∅)
  | sigfillset {sets : Var → Set Int} {v : Var} :
      SigSpec sets (.sigfillset v) .done (Function.update sets v {sig | 1 ≤ sig ∧ sig ≤ 128})
  | sigisemptyset {sets : Var → Set Int} {v : Var} {b : Bool} (h : b = true ↔ sets v = ∅) :
      SigSpec sets (.sigisemptyset v) (.test b) sets
  | sigandset {sets : Var → Set Int} {d l r : Var} :
      SigSpec sets (.sigandset d l r) .done (Function.update sets d (sets l ∩ sets r))
  | sigorset {sets : Var → Set Int} {d l r : Var} :
      SigSpec sets (.sigorset d l r) .done (Function.update sets d (sets l ∪ sets r))
  | sigismember {sets : Var → Set Int} {v : Var} {sig : Int} {b : Bool}
      (h : b = true ↔ sig ∈ sets v) : SigSpec sets (.sigismember v sig) (.test b) sets
  | sigaddset {sets : Var → Set Int} {v : Var} {sig : Int} :
      SigSpec sets (.sigaddset v sig) .done (Function.update sets v (insert sig (sets v)))
  | sigdelset {sets : Var → Set Int} {v : Var} {sig : Int} :
      SigSpec sets (.sigdelset v sig) .done (Function.update sets v (sets v \ {sig}))
  | setOldMask {sets : Var → Set Int} {v : Var} {mask : BitVec 32} :
      SigSpec sets (.setOldMask v mask) .done (Function.update sets v (oldMaskSignals mask))
  | getOldMask {sets : Var → Set Int} {v : Var} {mask : BitVec 32}
      (h : oldMaskSignals mask = {sig ∈ sets v | sig ≤ 32}) :
      SigSpec sets (.getOldMask v) (.mask mask) sets

end Calls

end GlibcPorts.BitSets
