import Mathlib.Data.List.DropRight
import Mathlib.Data.List.Induction

/-!
# `GlibcPorts.Lib.Backward`: loops that walk down a memory

Three loops over the first `n` cells of a memory that start at the last one. `scanBack` looks
for the first cell that differs, and it does not go below a limit. `clearBack` overwrites the
cells it passes. `mapBack` changes every cell in its place. Each of them is `none` when it reads
outside the memory.

`scanBack_eq`, `clearBack_append` and `mapBack_append` say what the loops do, in terms of
`List.rdropWhile` and `List.map`.
-/

set_option autoImplicit false

namespace GlibcPorts.Lib

variable {α : Type}

/-- `while (n > low && p (mem[n - 1])) --n;` -/
def scanBack (p : α → Bool) (low : Nat) (mem : List α) : Nat → Option Nat
  | 0 => some 0
  | n + 1 =>
      if low < n + 1 then do
        let c ← mem[n]?
        if p c then scanBack p low mem n else return n + 1
      else some (n + 1)

/-- `while (n > 0 && p (mem[n - 1])) mem[--n] = v;` -/
def clearBack (p : α → Bool) (v : α) : Nat → List α → Option (Nat × List α)
  | 0, mem => some (0, mem)
  | n + 1, mem => do
      let c ← mem[n]?
      if p c then clearBack p v n (mem.set n v) else return (n + 1, mem)

/-- `while (n > 0) { --n; mem[n] = f (mem[n]); }` -/
def mapBack (f : α → α) : Nat → List α → Option (List α)
  | 0, mem => some mem
  | n + 1, mem => do
      let c ← mem[n]?
      mapBack f n (mem.set n (f c))

/-- The scan stops behind the last cell that differs, or at the limit. -/
theorem scanBack_eq (p : α → Bool) (low : Nat) (mem : List α) {n : Nat} (h : n ≤ mem.length) :
    scanBack p low mem n = some (max (min low n) ((mem.take n).rdropWhile p).length) := by
  induction n with
  | zero => simp [scanBack]
  | succ n ih =>
      have hlt : n < mem.length := h
      have htake : mem.take (n + 1) = mem.take n ++ [mem[n]] :=
        List.take_succ_eq_append_getElem hlt
      have hsub : (mem.take n).rdropWhile p <+: mem.take n := List.rdropWhile_prefix p _
      have hle := hsub.length_le
      rw [List.length_take] at hle
      rw [scanBack, List.getElem?_eq_getElem hlt, Option.bind_eq_bind, Option.bind_some, htake,
        List.rdropWhile_concat, ih (Nat.le_of_lt hlt)]
      -- The scan stops at `low`, or at the first element that stays.
      by_cases hlow : low < n + 1
      · rw [if_pos hlow]
        by_cases hp : p mem[n] = true
        · rw [if_pos hp, if_pos hp]
          congr 2
          omega
        · rw [if_neg hp, if_neg hp, List.length_append, List.length_take, List.length_singleton]
          show some (n + 1) = _
          congr 1
          omega
      · rw [if_neg hlow]
        congr 1
        split
        · omega
        · rw [List.length_append, List.length_take, List.length_singleton]
          omega

/-- The loop overwrites the cells at the end that satisfy the test, and no others. -/
theorem clearBack_append (p : α → Bool) (v : α) (pre rest : List α) :
    clearBack p v pre.length (pre ++ rest) = some ((pre.rdropWhile p).length,
      pre.rdropWhile p ++ (List.replicate (pre.length - (pre.rdropWhile p).length) v ++ rest)) := by
  induction pre using List.reverseRecOn generalizing rest with
  | nil => simp [clearBack]
  | append_singleton pre c ih =>
      have hcell : (pre ++ [c] ++ rest)[pre.length]? = some c := by simp
      rw [List.length_append, List.length_singleton, clearBack, hcell, Option.bind_eq_bind,
        Option.bind_some, List.rdropWhile_concat]
      by_cases hp : p c = true
      · -- The cell joins those behind it, which are overwritten already.
        have hset : (pre ++ [c] ++ rest).set pre.length v = pre ++ (v :: rest) := by simp
        have hsub : pre.rdropWhile p <+: pre := List.rdropWhile_prefix p pre
        have hle := hsub.length_le
        have hcount : pre.length + 1 - (pre.rdropWhile p).length =
            pre.length - (pre.rdropWhile p).length + 1 := by omega
        rw [if_pos hp, if_pos hp, hset, ih, hcount, List.replicate_succ', List.append_assoc,
          List.singleton_append]
      · rw [if_neg hp, if_neg hp]
        simp

/-- The loop changes each of the cells once. -/
theorem mapBack_append (f : α → α) (pre rest : List α) :
    mapBack f pre.length (pre ++ rest) = some (pre.map f ++ rest) := by
  induction pre using List.reverseRecOn generalizing rest with
  | nil => simp [mapBack]
  | append_singleton pre c ih =>
      have hcell : (pre ++ [c] ++ rest)[pre.length]? = some c := by simp
      have hset : (pre ++ [c] ++ rest).set pre.length (f c) = pre ++ (f c :: rest) := by simp
      rw [List.length_append, List.length_singleton, mapBack, hcell, Option.bind_eq_bind,
        Option.bind_some, hset, ih]
      simp

/-! ### The size of the memory -/

/-- The size stays. -/
theorem length_of_clearBack {p : α → Bool} {v : α} {n m : Nat} {mem mem' : List α}
    (h : clearBack p v n mem = some (m, mem')) : mem'.length = mem.length := by
  induction n generalizing mem with
  | zero =>
      cases h
      rfl
  | succ n ih =>
      obtain ⟨c, -, h⟩ := Option.bind_eq_some_iff.mp h
      by_cases hp : p c = true
      · rw [if_pos hp] at h
        rw [ih h, List.length_set]
      · rw [if_neg hp] at h
        cases h
        rfl

/-- The size stays. -/
theorem length_of_mapBack {f : α → α} {n : Nat} {mem mem' : List α}
    (h : mapBack f n mem = some mem') : mem'.length = mem.length := by
  induction n generalizing mem with
  | zero =>
      cases h
      rfl
  | succ n ih =>
      obtain ⟨c, -, h⟩ := Option.bind_eq_some_iff.mp h
      rw [ih h, List.length_set]

end GlibcPorts.Lib
