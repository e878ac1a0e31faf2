import Mathlib.Logic.Function.Basic
import GlibcPorts.Timer.KernelPosixTimers

/-!
# `GlibcPorts.Proofs.Timer.Table`: the lookups in the id table

* `freeSlot_eq_some` and `freeSlot_eq_none`: the slot found is empty, and none is found only
  in a full table.
* `ptr2id_eq`: the id of a struct that is in the table once is the index of its slot.
* `slot_of_update_some` and `slot_of_update_none`: what is in the slots when one of them is set.
* `kfreebsdTimerId2ptr_natCast` and `kfreebsdTimerId2ptr_eq_some`: an id yields what is in its
  slot, and only ids of slots yield a struct.
-/

set_option autoImplicit false

namespace GlibcPorts.Timer

variable {t : AllTimers} {i : Nat} {a : Addr}

/-- The slot found is free. -/
theorem freeSlot_eq_some (h : freeSlot t = some i) : i < TIMER_MAX ∧ t i = none := by
  have hmem := List.mem_of_find?_eq_some h
  have hslot := List.find?_some h
  exact ⟨List.mem_range.mp hmem, of_decide_eq_true hslot⟩

/-- When none is found, none is free. -/
theorem freeSlot_eq_none (h : freeSlot t = none) : ∀ i < TIMER_MAX, t i ≠ none := by
  intro i hi
  have hall := List.find?_eq_none.mp h i (List.mem_range.mpr hi)
  simpa using hall

/-- A struct that is in the table in one slot only has the index of that slot as its id. -/
theorem ptr2id_eq (hi : i < TIMER_MAX) (hslot : t i = some a)
    (huniq : ∀ j, t j = some a → j = i) : kfreebsdTimerPtr2id t a = i := by
  unfold kfreebsdTimerPtr2id
  cases hfind : (List.range TIMER_MAX).find? fun i => t i = some a with
  | none =>
      have hall := List.find?_eq_none.mp hfind i (List.mem_range.mpr hi)
      exact absurd hslot (by simpa using hall)
  | some j =>
      have hj := List.find?_some hfind
      rw [huniq j (of_decide_eq_true hj)]

/-- A struct of the table behind a store of `a` in the slot `i`. -/
theorem slot_of_update_some {j : Nat} {b : Addr} (h : Function.update t i (some a) j = some b) :
    j = i ∧ b = a ∨ j ≠ i ∧ t j = some b := by
  by_cases hji : j = i
  · subst hji
    rw [Function.update_self] at h
    cases h
    exact .inl ⟨rfl, rfl⟩
  · rw [Function.update_of_ne hji] at h
    exact .inr ⟨hji, h⟩

/-- A struct of the table behind a store of `NULL` in the slot `i`. -/
theorem slot_of_update_none {j : Nat} {b : Addr} (h : Function.update t i none j = some b) :
    j ≠ i ∧ t j = some b := by
  by_cases hji : j = i
  · subst hji
    rw [Function.update_self] at h
    cases h
  · rw [Function.update_of_ne hji] at h
    exact ⟨hji, h⟩

/-- A slot of an id that is in range. -/
theorem kfreebsdTimerId2ptr_natCast (hi : i < TIMER_MAX) :
    kfreebsdTimerId2ptr t (i : Int) = t i := by
  unfold kfreebsdTimerId2ptr
  rw [if_pos ⟨Int.natCast_nonneg i, Int.ofNat_lt.mpr hi⟩, Int.toNat_natCast]

/-- An id that yields a struct is the index of the struct's slot. -/
theorem kfreebsdTimerId2ptr_eq_some {id : TimerT} (h : kfreebsdTimerId2ptr t id = some a) :
    ∃ j < TIMER_MAX, id = (j : Int) ∧ t j = some a := by
  unfold kfreebsdTimerId2ptr at h
  split at h
  · rename_i hid
    obtain ⟨h0, h1⟩ := hid
    exact ⟨id.toNat, (Int.toNat_lt h0).mpr h1, (Int.toNat_of_nonneg h0).symm, h⟩
  · cases h

end GlibcPorts.Timer
