import GlibcPorts.Lib.Block
import Mathlib.Data.Nat.Find

/-!
# `GlibcPorts.Lib.Realloc`: blocks that grow, and the arrays in them

`Heap.realloc` is `realloc` over a `Heap`. A `Placement` is where the allocator puts a block: at
the address of the block that grows, or at any address without one. Which calls fail is a
parameter, so what is proved holds for every relocation and every failure.

`Heap.Extends` says what a program owns that has one block: its heap is another one and that
block. `Extends.realloc_grow`, `Extends.realloc_fails` and `Extends.freePtr` are the rules for it.

A `ResizableArray` is the pointer, the length and the size of an array that grows when it is full.
`ResizableArray.add` stores records behind the others, and `Holds.add` says what the array holds
then, wherever it was moved to.
-/

set_option autoImplicit false

namespace GlibcPorts.Lib

variable {α : Type}

/-- The records that were there, cut to `n` or with unset ones behind them. -/
def Block.resize (b : Block α) (n : Nat) : Block α := b.take n ++ Block.fresh (n - b.length)

/-- Records that were stored, and unset ones up to `n`. -/
def Block.filled (xs : List α) (n : Nat) : Block α := xs.map some ++ Block.fresh (n - xs.length)

namespace Block

variable {xs ys : List α} {m n : Nat}

/-- A new block has the size asked for. -/
@[simp] theorem length_fresh (n : Nat) : (fresh n : Block α).length = n :=
  List.length_replicate

/-- So has one that is filled. -/
@[simp] theorem length_filled (h : xs.length ≤ n) : (filled xs n).length = n := by
  rw [filled, List.length_append, List.length_map, length_fresh]
  omega

/-- And one that got another size. -/
@[simp] theorem length_resize (b : Block α) (n : Nat) : (b.resize n).length = n := by
  rw [resize, List.length_append, List.length_take, length_fresh]
  omega

/-- Filled with nothing. -/
@[simp] theorem filled_nil (n : Nat) : (filled [] n : Block α) = fresh n := rfl

/-- The block of `realloc (NULL, n)`. -/
theorem resize_nil (n : Nat) : (resize [] n : Block α) = fresh n := by
  rw [resize, List.take_nil, List.nil_append, List.length_nil, Nat.sub_zero]

/-- A block cut behind its first records. -/
theorem resize_length (xs : List α) (rest : Block α) :
    resize (xs.map some ++ rest) xs.length = xs.map some := by
  have htake : (xs.map some ++ rest).take xs.length = xs.map some :=
    List.take_left' (List.length_map _)
  have hspare : xs.length - (xs.map some ++ rest).length = 0 := by
    rw [List.length_append, List.length_map]
    omega
  rw [resize, htake, hspare]
  exact List.append_nil _

/-- An array that grows keeps its records. -/
theorem resize_filled (hxs : xs.length ≤ m) (h : m ≤ n) :
    (filled xs m).resize n = filled xs n := by
  have hall : (filled xs m).take n = filled xs m :=
    List.take_of_length_le (by rw [length_filled hxs]; exact h)
  rw [resize, hall, length_filled hxs, filled, filled, List.append_assoc, fresh, fresh, fresh,
    List.replicate_append_replicate]
  congr 2
  omega

/-- The records in front of the first unset one. -/
def stored : Block α → List α
  | some x :: b => x :: stored b
  | _ => []

/-- What is stored in front comes first. -/
theorem stored_append (xs : List α) (rest : Block α) :
    stored (xs.map some ++ rest) = xs ++ rest.stored := by
  induction xs with
  | nil => rfl
  | cons x xs ih => exact congrArg (x :: ·) ih

/-- A block that is filled stores the elements. -/
theorem stored_filled (xs : List α) (n : Nat) : (filled xs n).stored = xs := by
  have hfresh : (fresh (n - xs.length) : Block α).stored = [] := by
    cases n - xs.length <;> rfl
  rw [filled, stored_append, hfresh, List.append_nil]

/-- Stores records from the index `i` on, if they fit. -/
def storeAt (b : Block α) (i : Nat) (ys : List α) : Option (Block α) :=
  if i + ys.length ≤ b.length then
    some (b.take i ++ ys.map some ++ b.drop (i + ys.length))
  else none

/-- A store at the start of a block. -/
theorem storeAt_zero {b : Block α} (h : ys.length ≤ b.length) :
    b.storeAt 0 ys = some (ys.map some ++ b.drop ys.length) := by
  rw [storeAt, Nat.zero_add, if_pos h]
  rfl

/-- A store right behind the records. -/
theorem storeAt_filled (h : xs.length + ys.length ≤ n) :
    (filled xs n).storeAt xs.length ys = some (filled (xs ++ ys) n) := by
  have hxs : xs.length ≤ n := Nat.le_of_add_right_le h
  have htake : (filled xs n).take xs.length = xs.map some := List.take_left' (List.length_map _)
  have hdrop : (filled xs n).drop (xs.length + ys.length) =
      fresh (n - (xs ++ ys).length) := by
    have hfirst : (filled xs n).drop xs.length = fresh (n - xs.length) :=
      List.drop_left' (List.length_map _)
    rw [← List.drop_drop, hfirst, fresh, List.drop_replicate, List.length_append, Nat.sub_sub,
      fresh]
  rw [storeAt, length_filled hxs, if_pos h, htake, hdrop, filled, List.map_append]

end Block

/-! ### `realloc` and `free` -/

namespace Heap

/-- Only finitely many blocks are allocated. -/
def Finite (h : Heap α) : Prop := ∃ n, ∀ q, n ≤ q → h q = none

/-- `free (p)`. Nothing happens for NULL. -/
def freePtr (h : Heap α) : Option Nat → Option (Heap α)
  | none => some h
  | some a => h.free a

end Heap

/-- Where the call number `k` of `realloc` puts the block. -/
structure Placement (α : Type) where
  place : Nat → Heap α → Option Nat → Nat → Nat
  /-- No other block is there. -/
  unused : ∀ k h p n, h.Finite → h (place k h p n) = none ∨ p = some (place k h p n)

open Classical in
/-- The block goes to the lowest address without one. -/
noncomputable def Placement.lowest (α : Type) : Placement α where
  place _ h _ _ := if hunused : ∃ q, h q = none then Nat.find hunused else 0
  unused _ h _ _ hfin := by
    obtain ⟨n, hn⟩ := hfin
    have hunused : ∃ q, h q = none := ⟨n, hn n (Nat.le_refl n)⟩
    rw [dif_pos hunused]
    exact .inl (Nat.find_spec hunused)

namespace Heap

/-- `realloc (p, n)`, as the call number `k`: the pointer that it returns, and the heap behind it.
A call that fails leaves the block. It is `none` if `p` is not a block. -/
def realloc (P : Placement α) (fails : Nat → Bool) (k : Nat) (h : Heap α) (p : Option Nat)
    (n : Nat) : Option (Option Nat × Heap α) :=
  let q := P.place k h p n
  match p with
  | none => some (if fails k then (none, h) else (some q, h.alloc q n))
  | some a =>
      match h a with
      | none => none
      | some b =>
          if n = 0 then (h.free a).map (none, ·)
          else if fails k then some (none, h)
          else (h.free a).map fun freed => (some q, freed.store q (b.resize n))

/-- The heap is `base` and, unless `p` is NULL, the block `b` at `p`. -/
inductive Extends (base : Heap α) : Heap α → Option Nat → Block α → Prop
  | null : Extends base base none []
  | block {a : Nat} {b : Block α} (hunused : base a = none) :
      Extends base (base.store a b) (some a) b

section Finite

variable {h : Heap α}

/-- Storing a block keeps the heap finite. -/
theorem Finite.store (hfin : h.Finite) (a : Nat) (b : Block α) : (h.store a b).Finite := by
  obtain ⟨n, hn⟩ := hfin
  refine ⟨max n (a + 1), fun q hq => ?_⟩
  have hne : q ≠ a := by omega
  rw [Heap.store, Function.update_of_ne hne]
  exact hn q (by omega)

end Finite

namespace Extends

variable {base h : Heap α} {p : Option Nat} {b : Block α} {P : Placement α} {fails : Nat → Bool}
  {k n : Nat}

/-- One block more keeps the heap finite. -/
theorem finite (hbase : base.Finite) (hext : Extends base h p b) : h.Finite := by
  cases hext with
  | null => exact hbase
  | block hunused => exact hbase.store _ _

/-- `free` leaves what else there was. -/
theorem freePtr (hext : Extends base h p b) : h.freePtr p = some base := by
  cases hext with
  | null => rfl
  | @block a b hunused =>
      show (base.store a b).free a = some base
      have hrestore : Function.update (base.store a b) a none = base := by
        rw [Heap.store, Function.update_idem, ← hunused, Function.update_eq_self]
      rw [Heap.free, store_self, Option.isSome_some, if_pos rfl, hrestore]

/-- Without a pointer to a block nothing is left. -/
theorem eq_base_iff (hext : Extends base h p b) : h = base ↔ p = none := by
  cases hext with
  | null => exact iff_of_true rfl rfl
  | @block a b hunused =>
      refine iff_of_false (fun hsame => ?_) (Option.some_ne_none a)
      have hblock := store_self base a b
      rw [hsame, hunused] at hblock
      cases hblock

/-- The block, and a store in it. -/
theorem update {a : Nat} (hext : Extends base h (some a) b) (b' : Block α) :
    h a = some b ∧ Extends base (h.store a b') (some a) b' := by
  cases hext with
  | block hunused =>
      have hstore : (base.store a b).store a b' = base.store a b' := Function.update_idem _ _ _
      rw [hstore]
      exact ⟨store_self _ _ _, .block hunused⟩

/-- NULL points to no records. -/
theorem eq_nil (hext : Extends base h none b) : b = [] := by
  cases hext
  rfl

/-- There is one block at a pointer. -/
theorem unique {b' : Block α} (hext : Extends base h p b) (hext' : Extends base h p b') :
    b = b' := by
  cases p with
  | none => rw [hext.eq_nil, hext'.eq_nil]
  | some a =>
      have hat : h a = some b := (hext.update b).1
      rw [(hext'.update b').1] at hat
      exact (Option.some.inj hat).symm

/-- A call that fails leaves everything as it was. -/
theorem realloc_fails (hext : Extends base h p b) (hn : n ≠ 0) (hfails : fails k = true) :
    h.realloc P fails k p n = some (none, h) := by
  cases hext with
  | null => simp only [Heap.realloc, hfails, if_true]
  | block hunused =>
      simp only [Heap.realloc, store_self, hfails, if_true]
      exact if_neg hn

/-- A call that does not fail moves the block. -/
theorem realloc_grow (hbase : base.Finite) (hext : Extends base h p b) (hn : n ≠ 0)
    (hfails : fails k = false) :
    ∃ q h', h.realloc P fails k p n = some (some q, h') ∧
      Extends base h' (some q) (b.resize n) := by
  have hplace := P.unused k h p n (hext.finite hbase)
  cases hext with
  | null =>
      have hunused := hplace.resolve_right (by simp)
      refine ⟨_, _, ?_, .block hunused⟩
      rw [Block.resize_nil]
      simp only [Heap.realloc, hfails, Bool.false_eq_true, if_false]
      rfl
  | @block a b hunused =>
      have hfree : (base.store a b).free a = some base := (Extends.block hunused).freePtr
      -- Behind the release of the old block, its own address is free too.
      have hq : base (P.place k (base.store a b) (some a) n) = none := by
        by_cases hqa : P.place k (base.store a b) (some a) n = a
        · rw [hqa]
          exact hunused
        · have hother := hplace.resolve_right fun hsame => hqa (Option.some.inj hsame).symm
          have hkept : base.store a b (P.place k (base.store a b) (some a) n) =
              base (P.place k (base.store a b) (some a) n) := Function.update_of_ne hqa _ _
          rwa [hkept] at hother
      refine ⟨_, _, ?_, .block hq⟩
      simp only [Heap.realloc, store_self, hfails, Bool.false_eq_true, if_false, hfree,
        Option.map_some]
      exact if_neg hn

end Extends

end Heap

/-! ### Resizable arrays -/

/-- A resizable array, and the heap it is in. -/
structure ResizableArray (α : Type) where
  array : Option Nat
  len : Nat
  allocated : Nat
  heap : Heap α

namespace ResizableArray

/-- No array yet. -/
def empty (h : Heap α) : ResizableArray α := ⟨none, 0, 0, h⟩

/-- Moves the array to a block of `n` records. It is `some none` if `realloc` returns NULL. -/
def resize (P : Placement α) (fails : Nat → Bool) (k n : Nat) (g : ResizableArray α) :
    Option (Option (ResizableArray α)) :=
  (g.heap.realloc P fails k g.array n).map fun moved =>
    moved.1.map fun q => { g with array := some q, allocated := n, heap := moved.2 }

/-- Stores records behind the others. -/
def append (ys : List α) (g : ResizableArray α) : Option (ResizableArray α) := do
  let a ← g.array
  let b ← g.heap a
  let b' ← b.storeAt g.len ys
  return { g with len := g.len + ys.length, heap := g.heap.store a b' }

/-- Stores records behind the others, in a block of `n` records if the array is `full`. It is
`some none` if `realloc` returns NULL. -/
def add (P : Placement α) (fails : Nat → Bool) (k : Nat) (full : Bool) (n : Nat) (ys : List α)
    (g : ResizableArray α) : Option (Option (ResizableArray α)) := do
  let moved ← if full then g.resize P fails k n else some (some g)
  match moved with
  | none => return none
  | some g' => (g'.append ys).map some

/-- The array holds `xs`, and its heap is `base` beside it. -/
structure Holds (base : Heap α) (g : ResizableArray α) (xs : List α) : Prop where
  len_eq : g.len = xs.length
  len_le : xs.length ≤ g.allocated
  extends_base : base.Extends g.heap g.array (Block.filled xs g.allocated)

variable {base : Heap α} {g : ResizableArray α} {xs ys : List α} {P : Placement α}
  {fails : Nat → Bool} {k n : Nat}

/-- No element in no block. -/
theorem holds_empty (base : Heap α) : (empty base).Holds base [] where
  len_eq := rfl
  len_le := Nat.le_refl 0
  extends_base := .null

/-- Without a block there is no room. -/
theorem Holds.allocated_eq_zero (h : g.Holds base xs) (harray : g.array = none) :
    g.allocated = 0 := by
  have hext := h.extends_base
  rw [harray] at hext
  generalize hb : Block.filled xs g.allocated = b at hext
  generalize g.heap = heap at hext
  cases hext
  have hlen := congrArg List.length hb
  rwa [Block.length_filled h.len_le] at hlen

/-- Without a block nothing is stored. -/
theorem Holds.eq_nil (h : g.Holds base xs) (harray : g.array = none) : xs = [] := by
  have hzero := h.allocated_eq_zero harray
  have hle := h.len_le
  apply List.eq_nil_of_length_eq_zero
  omega

/-- The block of an array, and stores that leave as many records in it. -/
theorem Holds.update (h : g.Holds base xs) {a : Nat} (harray : g.array = some a)
    (hlen : ys.length = xs.length) :
    g.heap a = some (Block.filled xs g.allocated) ∧
      ({ g with heap := g.heap.store a (Block.filled ys g.allocated) } :
        ResizableArray α).Holds base ys := by
  have hext := h.extends_base
  rw [harray] at hext
  obtain ⟨hblock, hstore⟩ := hext.update (Block.filled ys g.allocated)
  refine ⟨hblock, ⟨?_, ?_, ?_⟩⟩
  · rw [hlen]
    exact h.len_eq
  · rw [hlen]
    exact h.len_le
  · show base.Extends (g.heap.store a _) g.array _
    rwa [harray]

/-- Records that are stored are in a block. -/
theorem Holds.exists_block (h : g.Holds base xs) (hxs : xs ≠ []) :
    ∃ a, g.array = some a ∧ g.heap a = some (Block.filled xs g.allocated) := by
  cases harray : g.array with
  | none => exact absurd (h.eq_nil harray) hxs
  | some a => exact ⟨a, rfl, (h.update harray rfl).1⟩

/-- Elements for which there is room are added. -/
theorem Holds.append (h : g.Holds base xs) (hroom : xs.length + ys.length ≤ g.allocated)
    (hys : ys ≠ []) :
    ∃ g', g.append ys = some g' ∧ g'.Holds base (xs ++ ys) := by
  have hpos : 0 < ys.length := List.length_pos_iff.mpr hys
  cases harray : g.array with
  -- Without a block there is no room for an element.
  | none =>
      have hext := h.extends_base
      rw [harray] at hext
      have hlen := h.allocated_eq_zero harray
      omega
  | some a =>
      have hext := h.extends_base
      rw [harray] at hext
      obtain ⟨hblock, hstore⟩ := hext.update (Block.filled (xs ++ ys) g.allocated)
      refine ⟨{ g with
        len := g.len + ys.length, heap := g.heap.store a (Block.filled (xs ++ ys) g.allocated) },
        ?_, ⟨?_, ?_, ?_⟩⟩
      · simp only [ResizableArray.append, harray, hblock, h.len_eq, Option.bind_eq_bind,
          Option.bind_some, Block.storeAt_filled hroom]
        rfl
      · rw [List.length_append, h.len_eq]
      · rw [List.length_append]
        exact hroom
      · show base.Extends (g.heap.store a _) g.array _
        rwa [harray]

/-- A `realloc` that succeeds gives the room asked for. -/
theorem Holds.resize (hbase : base.Finite) (h : g.Holds base xs) (hn : n ≠ 0)
    (hgrow : g.allocated ≤ n) (hfails : fails k = false) :
    ∃ g', g.resize P fails k n = some (some g') ∧ g'.Holds base xs ∧ g'.allocated = n := by
  obtain ⟨q, h', hrealloc, hext⟩ := h.extends_base.realloc_grow hbase (P := P) hn hfails
  refine ⟨{ g with array := some q, allocated := n, heap := h' }, ?_, ⟨h.len_eq, ?_, ?_⟩, rfl⟩
  · rw [ResizableArray.resize, hrealloc]
    rfl
  · exact Nat.le_trans h.len_le hgrow
  · rw [Block.resize_filled h.len_le hgrow] at hext
    exact hext

/-- What `add` does: nothing, if the array is full and `realloc` fails, or else the records are
behind the others. -/
theorem Holds.add (P : Placement α) (fails : Nat → Bool) (k n : Nat) (full : Bool)
    (hbase : base.Finite) (h : g.Holds base xs) (hys : ys ≠ [])
    (hfull : full = true → g.allocated ≤ n ∧ xs.length + ys.length ≤ n)
    (hroom : full = false → xs.length + ys.length ≤ g.allocated) :
    (full = true ∧ fails k = true ∧ g.add P fails k full n ys = some none) ∨
      (¬ (full = true ∧ fails k = true) ∧
        ∃ g', g.add P fails k full n ys = some (some g') ∧ g'.Holds base (xs ++ ys)) := by
  have hlen := List.length_pos_iff.mpr hys
  -- A full array moves first. Behind that there is room.
  cases full with
  | false =>
      obtain ⟨g', happend, hholds⟩ := h.append (hroom rfl) hys
      refine .inr ⟨by simp, g', ?_, hholds⟩
      simp [ResizableArray.add, happend]
  | true =>
      obtain ⟨hgrow, hfits⟩ := hfull rfl
      have hn : n ≠ 0 := by omega
      cases hfails : fails k with
      | true =>
          have hrealloc := h.extends_base.realloc_fails (P := P) hn hfails
          refine .inl ⟨rfl, rfl, ?_⟩
          simp [ResizableArray.add, ResizableArray.resize, hrealloc]
      | false =>
          obtain ⟨g', hresize, hholds, halloc⟩ := h.resize (P := P) hbase hn hgrow hfails
          obtain ⟨g'', happend, hholds'⟩ := hholds.append (by rwa [halloc]) hys
          refine .inr ⟨by simp, g'', ?_, hholds'⟩
          simp [ResizableArray.add, hresize, happend]

end ResizableArray

end GlibcPorts.Lib
