import Mathlib.Data.List.Basic
import Mathlib.Logic.Function.Basic

/-!
# `GlibcPorts.Lib.Block`: arrays of records in memory

A `Block` is memory for records of one type: what each record holds, or `none` for one that was
never stored. A `Heap` has the blocks that are allocated, by their addresses.

`copyDown` is the loop that copies records from the last one down to the first, and
`copyDown_eq_some_iff` says what it leaves and when it stays inside both arrays.
-/

set_option autoImplicit false

namespace GlibcPorts.Lib

variable {α β : Type}

/-- Memory for records. -/
abbrev Block (α : Type) := List (Option α)

/-- Memory in which nothing was stored yet. -/
def Block.fresh (n : Nat) : Block α := List.replicate n none

/-- `for (i = n - 1; i >= 0; i--) f (&src[i], &dst[i]);`, if it stays inside the arrays. -/
def copyDown (f : α → β) (src : Block α) : Nat → Block β → Option (Block β)
  | 0, dst => some dst
  | i + 1, dst => do
      let cell ← src[i]?
      if i < dst.length then copyDown f src i (dst.set i (cell.map f)) else none

/-- The loop stays inside the arrays when its last record does, and then it copies the first
records and leaves the others. -/
theorem copyDown_eq_some_iff {f : α → β} {src : Block α} {n : Nat} {dst out : Block β} :
    copyDown f src n dst = some out ↔
      n ≤ src.length ∧ n ≤ dst.length ∧
        out = (src.take n).map (Option.map f) ++ dst.drop n := by
  induction n generalizing dst with
  | zero =>
      simp only [copyDown, Option.some.injEq, Nat.zero_le, List.take_zero, List.map_nil,
        List.nil_append, List.drop_zero, true_and]
      exact eq_comm
  | succ i ih =>
      by_cases hsrc : i < src.length
      · by_cases hdst : i < dst.length
        · -- The record at `i` is stored first, in front of what stays.
          have hdrop : ∀ c : Option β, (dst.set i c).drop i = c :: dst.drop (i + 1) := by
            intro c
            rw [List.drop_eq_getElem_cons (by simpa using hdst), List.getElem_set_self,
              List.drop_set_of_lt (Nat.lt_succ_self i)]
          have htake : src.take (i + 1) = src.take i ++ [src[i]] :=
            List.take_succ_eq_append_getElem hsrc
          rw [copyDown, List.getElem?_eq_getElem hsrc, Option.bind_eq_bind, Option.bind_some,
            if_pos hdst, ih, hdrop, htake, List.length_set]
          simp only [List.map_append, List.map_cons, List.map_nil, List.append_assoc,
            List.singleton_append]
          constructor
          · rintro ⟨-, -, hout⟩
            exact ⟨hsrc, hdst, hout⟩
          · rintro ⟨-, -, hout⟩
            exact ⟨Nat.le_of_lt hsrc, Nat.le_of_lt hdst, hout⟩
        · rw [copyDown, List.getElem?_eq_getElem hsrc, Option.bind_eq_bind, Option.bind_some,
            if_neg hdst]
          simp only [reduceCtorEq, false_iff]
          omega
      · rw [copyDown, List.getElem?_eq_none (Nat.not_lt.mp hsrc)]
        simp only [Option.bind_eq_bind, Option.bind_none, reduceCtorEq, false_iff]
        omega

/-! ### The heap -/

/-- The blocks that are allocated. -/
abbrev Heap (α : Type) := Nat → Option (Block α)

namespace Heap

/-- The heap behind an allocation of `n` records at `p`. -/
def alloc (h : Heap α) (p n : Nat) : Heap α := Function.update h p (some (Block.fresh n))

/-- `free (p)`, if a block is allocated there. -/
def free (h : Heap α) (p : Nat) : Option (Heap α) :=
  if (h p).isSome then some (Function.update h p none) else none

/-- The heap behind stores in the block at `p`. -/
def store (h : Heap α) (p : Nat) (b : Block α) : Heap α := Function.update h p (some b)

/-- The new block is there. -/
@[simp] theorem alloc_self (h : Heap α) (p n : Nat) : h.alloc p n p = some (Block.fresh n) :=
  Function.update_self p _ h

/-- What was stored is there. -/
@[simp] theorem store_self (h : Heap α) (p : Nat) (b : Block α) : h.store p b p = some b :=
  Function.update_self p _ h

end Heap

end GlibcPorts.Lib
