import Mathlib.Data.Finset.Card
import Mathlib.Order.Interval.Finset.Nat

/-!
# `GlibcPorts.Lib.Intervals`: half-open intervals of addresses

A `Span` is what C code gives by its first address and the one behind its last. `Span.Meets` is
the test by which such code finds out whether two of them overlap, and `Span.overlap` the number
of the addresses that they have in common (`card_inter`).

`Uncovered` is for code that counts down while it goes through intervals that do not overlap: what
is left of a set contains all that the next ones have of it, so taking one away takes away just
its overlap with the whole set (`Uncovered.sdiff`, `Uncovered.card_sdiff`).
-/

set_option autoImplicit false

namespace GlibcPorts.Lib

/-- The addresses from `lo` on and in front of `hi`. -/
structure Span where
  lo : Nat
  hi : Nat
deriving DecidableEq, Repr

namespace Span

/-- The addresses of the interval. -/
def addrs (s : Span) : Finset Nat := Finset.Ico s.lo s.hi

/-- One of them ends in front of the other. -/
def Apart (s t : Span) : Prop := s.hi ≤ t.lo ∨ t.hi ≤ s.lo

/-- Each starts in front of the end of the other. -/
def Meets (s t : Span) : Prop := s.lo < t.hi ∧ t.lo < s.hi

instance (s t : Span) : Decidable (s.Apart t) := inferInstanceAs (Decidable (_ ∨ _))

instance (s t : Span) : Decidable (s.Meets t) := inferInstanceAs (Decidable (_ ∧ _))

/-- The number of the common addresses. -/
def overlap (s t : Span) : Nat := min s.hi t.hi - max s.lo t.lo

variable {s t : Span}

/-- They are those from the start up to the end. -/
@[simp] theorem mem_addrs {s : Span} {a : Nat} : a ∈ s.addrs ↔ s.lo ≤ a ∧ a < s.hi :=
  Finset.mem_Ico

/-- Their number. -/
theorem card_addrs (s : Span) : s.addrs.card = s.hi - s.lo := Nat.card_Ico _ _

/-- The addresses that two intervals share. -/
theorem card_inter (s t : Span) : (s.addrs ∩ t.addrs).card = s.overlap t := by
  rw [addrs, addrs, Finset.Ico_inter_Ico, Nat.card_Ico]
  rfl

/-- Intervals that lie apart share none. -/
theorem Apart.disjoint (h : s.Apart t) : Disjoint s.addrs t.addrs := by
  rw [Finset.disjoint_left]
  intro a hs ht
  rw [mem_addrs] at hs ht
  obtain hle | hle := h <;> omega

/-- Without a common address they do not meet, unless one of them is empty. -/
theorem inter_eq_empty (h : ¬ s.Meets t) : s.addrs ∩ t.addrs = ∅ := by
  rw [Finset.eq_empty_iff_forall_notMem]
  intro a ha
  obtain ⟨hs, ht⟩ := Finset.mem_inter.mp ha
  rw [mem_addrs] at hs ht
  exact h ⟨by omega, by omega⟩

/-- Where two that are not empty meet there is a common address. -/
theorem Meets.exists_mem (h : s.Meets t) (hs : s.lo < s.hi) (ht : t.lo < t.hi) :
    ∃ a, a ∈ s.addrs ∧ a ∈ t.addrs := by
  obtain ⟨hlo, hhi⟩ := h
  refine ⟨max s.lo t.lo, ?_, ?_⟩ <;> rw [mem_addrs] <;> omega

end Span

/-! ### Counting down -/

section Uncovered

variable {α : Type} [DecidableEq α]

/-- `u` is what is left of `a`, and the sets of `es` have taken nothing yet. -/
structure Uncovered (a u : Finset α) (es : List (Finset α)) : Prop where
  subset : u ⊆ a
  inter_subset : ∀ e ∈ es, a ∩ e ⊆ u

variable {a u e : Finset α} {es : List (Finset α)}

/-- Nothing is covered yet. -/
theorem Uncovered.self (a : Finset α) (es : List (Finset α)) : Uncovered a a es where
  subset := Finset.Subset.refl a
  inter_subset _ _ := Finset.inter_subset_left

/-- What is left is left without the first set. -/
theorem Uncovered.tail (h : Uncovered a u (e :: es)) : Uncovered a u es where
  subset := h.subset
  inter_subset e' he' := h.inter_subset e' (List.mem_cons_of_mem e he')

/-- A set takes from what is left what it has of the whole. -/
theorem Uncovered.inter_eq (h : Uncovered a u (e :: es)) : u ∩ e = a ∩ e := by
  apply Finset.Subset.antisymm
  · exact Finset.inter_subset_inter_right h.subset
  · exact Finset.subset_inter (h.inter_subset e List.mem_cons_self) Finset.inter_subset_right

/-- Taking a set away takes away what it has of the whole. -/
theorem Uncovered.card_sdiff (h : Uncovered a u (e :: es)) :
    (u \ e).card + (a ∩ e).card = u.card := by
  rw [← h.inter_eq]
  exact Finset.card_sdiff_add_card_inter u e

/-- The other sets are apart from the one that is taken away. -/
theorem Uncovered.sdiff (h : Uncovered a u (e :: es)) (hdisj : ∀ e' ∈ es, Disjoint e e') :
    Uncovered a (u \ e) es where
  subset := Finset.sdiff_subset.trans h.subset
  inter_subset e' he' := by
    intro x hx
    rw [Finset.mem_sdiff]
    refine ⟨h.inter_subset e' (List.mem_cons_of_mem e he') hx, fun hxe => ?_⟩
    exact Finset.disjoint_left.mp (hdisj e' he') hxe (Finset.mem_inter.mp hx).2

end Uncovered

end GlibcPorts.Lib
