import Mathlib.Data.List.Nodup
import Mathlib.Logic.Function.Basic

/-!
# `GlibcPorts.Lib.LinkedList`: singly linked lists in memory

`Linked next p l` says that the list that starts at the pointer `p` and follows the `next`
fields has the nodes `l` and ends in a null pointer. The memory determines `l`
(`Linked.unique`), and no node occurs twice (`Linked.nodup`), so such a list has no cycle.

The edits of a linked list: a push at the head (`Linked.push`), and the two forms of an
unlink, at the head and behind a node (`Linked.unlink_head`, `Linked.unlink_after`). Writes
to other nodes do not matter (`Linked.congr`).
-/

set_option autoImplicit false

namespace GlibcPorts.Lib

universe u

variable {α : Type u}

/-- The list at the pointer `p` has the nodes `l`, in order, and ends in a null pointer. -/
def Linked (next : α → Option α) : Option α → List α → Prop
  | p, [] => p = none
  | p, a :: l => p = some a ∧ Linked next (next a) l

namespace Linked

variable {next next' : α → Option α} {p : Option α} {l l' : List α}

@[simp] theorem nil_iff : Linked next p [] ↔ p = none := Iff.rfl

@[simp] theorem cons_iff {a : α} : Linked next p (a :: l) ↔ p = some a ∧ Linked next (next a) l :=
  Iff.rfl

/-- The empty list is the null pointer's. -/
theorem none_iff : Linked next none l ↔ l = [] := by
  cases l <;> simp

/-- The list at a node starts with that node. -/
theorem exists_of_some {a : α} (h : Linked next (some a) l) :
    ∃ t, l = a :: t ∧ Linked next (next a) t := by
  cases l with
  | nil => simp at h
  | cons b t =>
      obtain ⟨hb, ht⟩ := h
      cases hb
      exact ⟨t, rfl, ht⟩

/-- The memory determines the nodes. -/
theorem unique (h : Linked next p l) (h' : Linked next p l') : l = l' := by
  induction l generalizing p l' with
  | nil =>
      rw [nil_iff] at h
      subst h
      exact (none_iff.mp h').symm
  | cons a l ih =>
      obtain ⟨rfl, hl⟩ := h
      obtain ⟨t, rfl, ht⟩ := exists_of_some h'
      rw [ih hl ht]

/-- The part of a list behind one of its nodes is the list at that node's `next`. -/
theorem suffix {a : α} {l₁ l₂ : List α} (h : Linked next p (l₁ ++ a :: l₂)) :
    Linked next (next a) l₂ := by
  induction l₁ generalizing p with
  | nil => exact h.2
  | cons b l₁ ih => exact ih h.2

/-- No node occurs twice: the two suffixes behind it would be the same list. -/
theorem nodup (h : Linked next p l) : l.Nodup := by
  induction l generalizing p with
  | nil => exact List.nodup_nil
  | cons a l ih =>
      refine List.nodup_cons.mpr ⟨fun hmem => ?_, ih h.2⟩
      obtain ⟨l₁, l₂, rfl⟩ := List.append_of_mem hmem
      have heq : l₁ ++ a :: l₂ = l₂ := unique h.2 (suffix h.2)
      have hlen := congrArg List.length heq
      simp only [List.length_append, List.length_cons] at hlen
      omega

/-- Two memories that agree on the nodes have the same list. -/
theorem congr (h : Linked next p l) (hnext : ∀ a ∈ l, next' a = next a) : Linked next' p l := by
  induction l generalizing p with
  | nil => exact h
  | cons a l ih =>
      refine ⟨h.1, ?_⟩
      rw [hnext a List.mem_cons_self]
      exact ih h.2 fun b hb => hnext b (List.mem_cons_of_mem _ hb)

/-- A node whose `next` is the head becomes the new head. -/
theorem push {a : α} (h : Linked next p l) (ha : next a = p) : Linked next (some a) (a :: l) :=
  ⟨rfl, ha ▸ h⟩

/-- Moving the head behind the first node removes that node. -/
theorem unlink_head {a : α} (h : Linked next (some a) l) [DecidableEq α] :
    Linked next (next a) (l.erase a) := by
  obtain ⟨t, rfl, ht⟩ := exists_of_some h
  rwa [List.erase_cons_head]

/-- The `next` of a node is the first node behind it. -/
theorem next_eq_head {a : α} {l₁ l₂ : List α} (h : Linked next p (l₁ ++ a :: l₂)) :
    next a = l₂.head? := by
  have hs := suffix h
  cases l₂ with
  | nil => exact hs
  | cons b l₂ => exact hs.1

/-- Setting the `next` of the node before `b` to the node behind `b` removes `b`. -/
theorem unlink_after [DecidableEq α] {a b : α} {l₁ l₂ : List α}
    (h : Linked next p (l₁ ++ a :: b :: l₂)) :
    Linked (Function.update next a (next b)) p ((l₁ ++ a :: b :: l₂).erase b) := by
  have hnd := h.nodup
  have hb₁ : b ∉ l₁ := fun hm =>
    List.disjoint_of_nodup_append hnd hm (by simp)
  have hab : a ≠ b := by
    have := (List.nodup_append.mp hnd).2.1
    simp only [List.nodup_cons, List.mem_cons, not_or] at this
    exact this.1.1
  rw [List.erase_append_right _ hb₁, List.erase_cons_tail (by simpa using hab),
    List.erase_cons_head]
  clear hb₁
  -- The link of `a` is the only one that changes.
  induction l₁ generalizing p with
  | nil =>
      obtain ⟨rfl, -, hl₂⟩ := h
      refine ⟨rfl, ?_⟩
      rw [Function.update_self]
      refine hl₂.congr fun c hc => Function.update_of_ne ?_ _ _
      rintro rfl
      simp [hc] at hnd
  | cons c l₁ ih =>
      have hca : c ≠ a := by
        rintro rfl
        simp at hnd
      refine ⟨h.1, ?_⟩
      rw [Function.update_of_ne hca]
      exact ih h.2 (List.nodup_cons.mp hnd).2

/-- Nodes that point to the number behind them, up to the last one. -/
theorem range' {next : Nat → Option Nat} {k n : Nat}
    (hnext : ∀ i, k ≤ i → i < k + n → next i = some (i + 1)) (hlast : next (k + n) = none) :
    Linked next (some k) (List.range' k (n + 1)) := by
  induction n generalizing k with
  | zero => exact ⟨rfl, hlast⟩
  | succ n ih =>
      rw [List.range'_succ]
      refine ⟨rfl, ?_⟩
      rw [hnext k (Nat.le_refl k) (by omega)]
      refine ih (fun i hle hlt => hnext i (by omega) (by omega)) ?_
      rw [← hlast]
      exact congrArg next (by omega)

end Linked

end GlibcPorts.Lib
