import Mathlib.Algebra.Ring.Nat

/-!
# `GlibcPorts.Lib.BitFields`: the bit fields of a word

A C compiler places the bit fields of a struct in a word one after the other, from the least
significant bit where the byte order is little endian and from the most significant bit where it
is big endian. `lowFirst` and `highFirst` are the values of the fields under the two rules, for the
widths in the order of the declaration. A header that serves both declares the fields twice, the
second time in reverse: `highFirst_reverse` says that both structs have the same values.
-/

set_option autoImplicit false

namespace GlibcPorts.Lib.BitFields

/-- The fields of a word, the first one at the least significant bit. -/
def lowFirst : List Nat → Nat → List Nat
  | [], _ => []
  | width :: widths, word => word % 2 ^ width :: lowFirst widths (word / 2 ^ width)

/-- The fields of the low `size` bits of a word, the first one at the most significant bit. -/
def highFirst : List Nat → Nat → Nat → List Nat
  | [], _, _ => []
  | width :: widths, size, word =>
      word / 2 ^ (size - width) % 2 ^ width :: highFirst widths (size - width) word

/-- One field for each width. -/
@[simp] theorem length_lowFirst (widths : List Nat) (word : Nat) :
    (lowFirst widths word).length = widths.length := by
  induction widths generalizing word with
  | nil => rfl
  | cons width widths ih => rw [lowFirst, List.length_cons, ih, List.length_cons]

/-- Fields that end above some low bits do not see them. -/
theorem highFirst_div (widths : List Nat) (size low word : Nat) (h : widths.sum ≤ size) :
    highFirst widths size (word / 2 ^ low) = highFirst widths (size + low) word := by
  induction widths generalizing size with
  | nil => rfl
  | cons width widths ih =>
      rw [List.sum_cons] at h
      have hsize : size + low - width = size - width + low := by omega
      rw [highFirst, highFirst, hsize, ih (size - width) (by omega), Nat.div_div_eq_div_mul,
        ← Nat.pow_add, Nat.add_comm low]

/-- The field that is declared last has the low bits. -/
theorem highFirst_concat (widths : List Nat) (width word : Nat) :
    highFirst (widths ++ [width]) (widths.sum + width) word
      = highFirst widths widths.sum (word / 2 ^ width) ++ [word % 2 ^ width] := by
  suffices haux : ∀ us rest, us.sum ≤ rest →
      highFirst (us ++ [width]) (rest + width) word
        = highFirst us (rest + width) word
          ++ highFirst [width] (rest - us.sum + width) word by
    rw [haux widths widths.sum (Nat.le_refl _), highFirst_div _ _ _ _ (Nat.le_refl _),
      Nat.sub_self, Nat.zero_add]
    simp [highFirst]
  intro us
  induction us with
  | nil => simp [highFirst]
  | cons u us ih =>
      intro rest h
      rw [List.sum_cons] at h
      have hrest : rest + width - u = rest - u + width := by omega
      have hsum : rest - (u + us.sum) = rest - u - us.sum := by omega
      rw [List.cons_append, highFirst, highFirst, hrest, ih (rest - u) (by omega), List.sum_cons,
        hsum, List.cons_append]

/-- Declared in reverse from the other end, the fields have the same values. -/
theorem highFirst_reverse (widths : List Nat) (word : Nat) :
    highFirst widths.reverse widths.sum word = (lowFirst widths word).reverse := by
  induction widths generalizing word with
  | nil => rfl
  | cons width widths ih =>
      have hsum : widths.sum = widths.reverse.sum := (List.sum_reverse widths).symm
      rw [List.reverse_cons, List.sum_cons, Nat.add_comm, hsum, highFirst_concat, ← hsum, ih,
        lowFirst, List.reverse_cons]

end GlibcPorts.Lib.BitFields
