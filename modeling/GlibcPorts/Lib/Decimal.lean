import GlibcPorts.Lib.CString
import Mathlib.Tactic.IntervalCases

/-!
# `GlibcPorts.Lib.Decimal`: decimal numbers in strings

`decimal` is the string that `sprintf` stores for `%lu`, and `strtoul` the function of `stdlib.h`
with the base 10: it passes over white space, takes a sign and then all the digits.

`strtoul_decimal` reads a printed number back. `strlen_decimal_le_iff` says how long it is.
-/

set_option autoImplicit false

namespace GlibcPorts.Lib

open CString (upToNul)

/-- `isdigit`. -/
def isDigit (c : UInt8) : Bool := 48 ≤ c && c ≤ 57

/-- `isspace`. -/
def isSpace (c : UInt8) : Bool := c = 32 || (9 ≤ c && c ≤ 13)

/-- The number that digits stand for. -/
def digitsValue (ds : List UInt8) : Nat := ds.foldl (fun v d => 10 * v + (d.toNat - 48)) 0

/-- The characters that `%lu` prints. -/
def decimalChars (n : Nat) : List UInt8 := (Nat.toDigits 10 n).map fun c => UInt8.ofNat c.toNat

/-- `strtoul (s, &endp, 10)`: the number and the offset of `endp`. A number that is too large is
`ulongMax`, and a minus sign negates the number as an `unsigned long`. -/
def strtoul (ulongMax : Nat) (s : CString) : Nat × Nat :=
  let spaces := (s.chars.takeWhile isSpace).length
  let rest := s.chars.drop spaces
  let sign := if rest.head? = some 43 ∨ rest.head? = some 45 then 1 else 0
  let digits := (rest.drop sign).takeWhile isDigit
  if digits = [] then (0, 0)
  else
    let v := digitsValue digits
    let v := if ulongMax < v then ulongMax
      else if rest.head? = some 45 then (ulongMax + 1 - v) % (ulongMax + 1) else v
    (v, spaces + sign + digits.length)

/-- The byte of a digit. -/
theorem digitChar_byte {d : Nat} (h : d < 10) :
    UInt8.ofNat (Nat.digitChar d).toNat = UInt8.ofNat (48 + d) := by
  interval_cases d <;> rfl

/-- It is one. -/
theorem isDigit_byte {d : Nat} (h : d < 10) : isDigit (UInt8.ofNat (48 + d)) = true := by
  interval_cases d <;> rfl

/-- The digit of the byte. -/
theorem toNat_digit_byte {d : Nat} (h : d < 10) : (UInt8.ofNat (48 + d)).toNat - 48 = d := by
  interval_cases d <;> rfl

/-- The last digit comes off the end. -/
theorem decimalChars_eq (n : Nat) :
    decimalChars n =
      (if n < 10 then [] else decimalChars (n / 10)) ++ [UInt8.ofNat (48 + n % 10)] := by
  unfold decimalChars
  rw [Nat.toDigits_eq_if (by omega)]
  split
  · rename_i hlt
    rw [List.map_singleton, digitChar_byte hlt, Nat.mod_eq_of_lt hlt, List.nil_append]
  · rw [List.map_append, List.map_singleton, digitChar_byte (Nat.mod_lt _ (by omega))]

/-- A number is printed with digits only. -/
theorem isDigit_of_mem_decimalChars (n : Nat) : ∀ c ∈ decimalChars n, isDigit c = true := by
  induction n using Nat.strongRecOn with
  | ind n ih =>
      intro c hc
      rw [decimalChars_eq, List.mem_append, List.mem_singleton] at hc
      rcases hc with hc | rfl
      · split at hc
        · cases hc
        · exact ih (n / 10) (Nat.div_lt_self (by omega) (by omega)) c hc
      · exact isDigit_byte (Nat.mod_lt _ (by omega))

/-- The digits of a printed number stand for it. -/
theorem digitsValue_decimalChars (n : Nat) : digitsValue (decimalChars n) = n := by
  induction n using Nat.strongRecOn with
  | ind n ih =>
      have hlast : (UInt8.ofNat (48 + n % 10)).toNat - 48 = n % 10 :=
        toNat_digit_byte (Nat.mod_lt _ (by omega))
      rw [decimalChars_eq, digitsValue, List.foldl_append, List.foldl_cons, List.foldl_nil, hlast]
      split
      · rename_i hlt
        rw [List.foldl_nil, Nat.mul_zero, Nat.zero_add, Nat.mod_eq_of_lt hlt]
      · have hrest := ih (n / 10) (Nat.div_lt_self (by omega) (by omega))
        rw [digitsValue] at hrest
        rw [hrest, Nat.div_add_mod]

/-- There is always a digit. -/
theorem decimalChars_ne_nil (n : Nat) : decimalChars n ≠ [] := by
  rw [decimalChars_eq]
  exact List.append_ne_nil_of_right_ne_nil _ (List.cons_ne_nil _ _)

/-- `sprintf (buf, "%lu", n)`. -/
def decimal (n : Nat) : CString :=
  ⟨decimalChars n, fun h => by simpa [isDigit] using isDigit_of_mem_decimalChars n 0 h⟩

/-- A number below a power of ten has no more digits than the exponent. -/
theorem strlen_decimal_le_iff {n k : Nat} (hk : 0 < k) : (decimal n).strlen ≤ k ↔ n < 10 ^ k := by
  show (decimalChars n).length ≤ k ↔ n < 10 ^ k
  rw [decimalChars, List.length_map]
  exact Nat.length_toDigits_le_iff (by omega) hk

/-- So the string is not empty. -/
theorem strlen_decimal_pos (n : Nat) : 0 < (decimal n).strlen :=
  List.length_pos_iff.mpr (decimalChars_ne_nil n)

/-- A digit is neither white space nor a sign. -/
theorem isSpace_of_isDigit {c : UInt8} (h : isDigit c = true) :
    isSpace c = false ∧ c ≠ 43 ∧ c ≠ 45 := by
  simp only [isDigit, Bool.and_eq_true, decide_eq_true_iff, UInt8.le_iff_toNat_le] at h
  have h48 : (48 : UInt8).toNat = 48 := rfl
  refine ⟨?_, ?_, ?_⟩
  · simp only [isSpace, Bool.or_eq_false_iff, Bool.and_eq_false_iff, decide_eq_false_iff_not,
      UInt8.le_iff_toNat_le]
    have h13 : (13 : UInt8).toNat = 13 := rfl
    refine ⟨?_, .inr (by omega)⟩
    rintro rfl
    exact absurd h.1 (by decide)
  · rintro rfl
    exact absurd h.1 (by decide)
  · rintro rfl
    exact absurd h.1 (by decide)

/-- `strtoul` of digits takes all of them. -/
theorem strtoul_of_digits {s : CString} {ulongMax : Nat} (hne : s.chars ≠ [])
    (hdigits : ∀ c ∈ s.chars, isDigit c = true) (hle : digitsValue s.chars ≤ ulongMax) :
    strtoul ulongMax s = (digitsValue s.chars, s.strlen) := by
  obtain ⟨c, cs, hcs⟩ := List.exists_cons_of_ne_nil hne
  have hc := isSpace_of_isDigit (hdigits c (by rw [hcs]; exact List.mem_cons_self))
  have hspaces : s.chars.takeWhile isSpace = [] := by
    rw [hcs, List.takeWhile_cons_of_neg (by simp [hc.1])]
  have hhead : s.chars.head? = some c := by rw [hcs]; rfl
  have hall : s.chars.takeWhile isDigit = s.chars := List.takeWhile_eq_self_iff.mpr hdigits
  have hsign : ¬ (s.chars.head? = some 43 ∨ s.chars.head? = some 45) := by
    rw [hhead]
    simp [hc.2.1, hc.2.2]
  have hminus : ¬ s.chars.head? = some 45 := fun h => hsign (.inr h)
  simp only [strtoul, hspaces, List.length_nil, List.drop_zero, if_neg hsign, hall, if_neg hne,
    if_neg hminus, if_neg (Nat.not_lt.mpr hle), Nat.zero_add]
  rfl

/-- `strtoul` reads a printed number back, to its end. -/
theorem strtoul_decimal {ulongMax n : Nat} (h : n ≤ ulongMax) :
    strtoul ulongMax (decimal n) = (n, (decimal n).strlen) := by
  have hvalue : digitsValue (decimal n).chars = n := digitsValue_decimalChars n
  rw [strtoul_of_digits (decimalChars_ne_nil n) (isDigit_of_mem_decimalChars n)
    (hvalue.symm ▸ h), hvalue]

/-- Without a character `strtoul` converts nothing. -/
theorem strtoul_of_nil {s : CString} (ulongMax : Nat) (h : s.chars = []) :
    strtoul ulongMax s = (0, 0) := by
  simp [strtoul, h]

end GlibcPorts.Lib
