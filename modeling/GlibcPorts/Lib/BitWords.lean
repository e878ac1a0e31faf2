import GlibcPorts.Lib.ByteOrder
import Mathlib.Algebra.Order.Ring.Nat

/-!
# `GlibcPorts.Lib.BitWords`: sets kept as bits

A set of small numbers is an array of machine words with a bit for each number. `hasBit ws i` is
the bit `i` of the array `ws`, counted through its words.

* `hasBit_set`, `hasBit_clear`: one bit is changed through the word it is in, and no other.
* `hasBit_zipWith`: what is done word by word is done bit by bit.
* `eq_of_hasBit`: the bits are all there is to an array of a given length.

The same array as bytes of a memory is one long number, `leNat`. `testBit_of_writeAt` and
`testBit_of_readBytes` say which of its bits are stored and read, and `eq_of_testBit` that equal
bits are equal bytes.
-/

set_option autoImplicit false

namespace GlibcPorts.Lib

/-! ### Arrays of words -/

section Words

variable {w : Nat}

/-- The bit `i` of an array of words. -/
def hasBit (ws : List (BitVec w)) (i : Nat) : Bool := (ws[i / w]?.getD 0).getLsbD (i % w)

/-- The word with the one bit that stands for `i`. -/
def bitOf (w i : Nat) : BitVec w := (1 : BitVec w) <<< (i % w)

variable {ws vs : List (BitVec w)} {i j : Nat}

/-- The word has this bit only. -/
theorem getLsbD_bitOf (hw : 0 < w) (i j : Nat) :
    (bitOf w i).getLsbD (j % w) = decide (j % w = i % w) := by
  have hj := Nat.mod_lt j hw
  rw [bitOf, BitVec.getLsbD_shiftLeft]
  by_cases heq : j % w = i % w
  · simp [heq, Nat.mod_lt i hw, hw]
  · by_cases hlt : j % w < i % w
    · simp [heq, hlt]
    · have hpos : j % w - i % w ≠ 0 := by omega
      simp [heq, hpos]

/-- A number is given by its word and its place in the word. -/
theorem eq_iff_div_mod (i j w : Nat) : i = j ↔ i / w = j / w ∧ i % w = j % w := by
  constructor
  · rintro rfl
    exact ⟨rfl, rfl⟩
  · rintro ⟨hdiv, hmod⟩
    rw [← Nat.div_add_mod i w, ← Nat.div_add_mod j w, hdiv, hmod]

/-- A change of one word, bit by bit. -/
theorem hasBit_modify (f : BitVec w → BitVec w) (k : Nat) (hk : k < ws.length) (j : Nat) :
    hasBit (ws.modify k f) j =
      if j / w = k then (f (ws[k]?.getD 0)).getLsbD (j % w) else hasBit ws j := by
  unfold hasBit
  rw [List.getElem?_modify]
  by_cases hjk : j / w = k
  · rw [if_pos hjk, hjk, List.getElem?_eq_getElem hk]
    simp
  · rw [if_neg hjk]
    simp [Ne.symm hjk]

/-- Setting the bit of `i` puts `i` in. -/
theorem hasBit_set (hi : i / w < ws.length) (hw : 0 < w) (j : Nat) :
    hasBit (ws.modify (i / w) (· ||| bitOf w i)) j = (hasBit ws j || decide (j = i)) := by
  rw [hasBit_modify _ _ hi]
  by_cases hword : j / w = i / w
  · rw [if_pos hword, BitVec.getLsbD_or, getLsbD_bitOf hw, hasBit, hword]
    simp [eq_iff_div_mod j i w, hword]
  · have hne : j ≠ i := fun h => hword (h ▸ rfl)
    rw [if_neg hword]
    simp [hne]

/-- Clearing the bit of `i` takes `i` out. -/
theorem hasBit_clear (hi : i / w < ws.length) (hw : 0 < w) (j : Nat) :
    hasBit (ws.modify (i / w) (· &&& ~~~ bitOf w i)) j = (hasBit ws j && !decide (j = i)) := by
  rw [hasBit_modify _ _ hi]
  by_cases hword : j / w = i / w
  · rw [if_pos hword, BitVec.getLsbD_and, BitVec.getLsbD_not, getLsbD_bitOf hw, hasBit, hword]
    simp [eq_iff_div_mod j i w, hword, Nat.mod_lt j hw]
  · have hne : j ≠ i := fun h => hword (h ▸ rfl)
    rw [if_neg hword]
    simp [hne]

/-- The test of a bit. -/
theorem and_bitOf_ne_zero (hw : 0 < w) (x : BitVec w) (i : Nat) :
    x &&& bitOf w i ≠ 0 ↔ x.getLsbD (i % w) = true := by
  have hi := Nat.mod_lt i hw
  constructor
  · intro hne
    by_contra hbit
    apply hne
    apply BitVec.eq_of_getLsbD_eq
    intro j hj
    have hb := getLsbD_bitOf hw i j
    rw [Nat.mod_eq_of_lt hj] at hb
    rw [BitVec.getLsbD_and, hb]
    by_cases heq : j = i % w
    · rw [heq, Bool.eq_false_iff.mpr hbit]
      simp
    · simp [heq]
  · intro hbit hzero
    have hb := congrArg (BitVec.getLsbD · (i % w)) hzero
    simp only [BitVec.getLsbD_and, getLsbD_bitOf hw, hbit] at hb
    simp at hb

/-- An operation on the words is one on the bits. -/
theorem hasBit_zipWith {f : BitVec w → BitVec w → BitVec w} {g : Bool → Bool → Bool}
    (hf : ∀ x y j, j < w → (f x y).getLsbD j = g (x.getLsbD j) (y.getLsbD j))
    (hlen : ws.length = vs.length) (hj : j < ws.length * w) :
    hasBit (List.zipWith f ws vs) j = g (hasBit ws j) (hasBit vs j) := by
  have hw : 0 < w := by
    rcases Nat.eq_zero_or_pos w with rfl | hw
    · omega
    · exact hw
  have hword : j / w < ws.length := (Nat.div_lt_iff_lt_mul hw).mpr hj
  have hword' : j / w < vs.length := hlen ▸ hword
  unfold hasBit
  rw [List.getElem?_zipWith, List.getElem?_eq_getElem hword, List.getElem?_eq_getElem hword']
  exact hf _ _ _ (Nat.mod_lt j hw)

/-- There is no bit behind the words. -/
theorem hasBit_of_le (hj : ws.length * w ≤ j) : hasBit ws j = false := by
  rcases Nat.eq_zero_or_pos w with rfl | hw
  · rw [hasBit]
    exact BitVec.getLsbD_of_ge _ _ (Nat.zero_le _)
  · have hword : ws.length ≤ j / w := (Nat.le_div_iff_mul_le hw).mpr hj
    rw [hasBit, List.getElem?_eq_none hword]
    simp

/-- A bit of words that are alike. -/
theorem hasBit_replicate (x : BitVec w) (n : Nat) (hj : j < n * w) :
    hasBit (List.replicate n x) j = x.getLsbD (j % w) := by
  have hw : 0 < w := by
    rcases Nat.eq_zero_or_pos w with rfl | hw
    · omega
    · exact hw
  rw [hasBit, List.getElem?_replicate, if_pos ((Nat.div_lt_iff_lt_mul hw).mpr hj)]
  rfl

/-- Arrays of one length with the same bits are the same. -/
theorem eq_of_hasBit (hw : 0 < w) (hlen : ws.length = vs.length)
    (h : ∀ j, hasBit ws j = hasBit vs j) : ws = vs := by
  apply List.ext_getElem hlen
  intro k hk hk'
  apply BitVec.eq_of_getLsbD_eq
  intro j hj
  have hbit := h (w * k + j)
  have hdiv : (w * k + j) / w = k := by
    rw [Nat.mul_add_div hw, Nat.div_eq_of_lt hj, Nat.add_zero]
  have hmod : (w * k + j) % w = j := by rw [Nat.mul_add_mod, Nat.mod_eq_of_lt hj]
  rwa [hasBit, hasBit, hdiv, hmod, List.getElem?_eq_getElem hk,
    List.getElem?_eq_getElem hk'] at hbit

end Words

/-! ### The bits of a memory -/

section Memory

variable {mem mem' as bs : List UInt8} {p n i j : Nat}

/-- As many numbers as bits can hold. -/
theorem pow_256 (n : Nat) : 256 ^ n = 2 ^ (8 * n) := by
  rw [Nat.pow_mul]

/-- A bit of the low bytes, or of the high ones. -/
theorem testBit_leNat_append (as bs : List UInt8) (j : Nat) :
    (leNat (as ++ bs)).testBit j =
      if j < 8 * as.length then (leNat as).testBit j
      else (leNat bs).testBit (j - 8 * as.length) := by
  have hlt := leNat_lt as
  rw [pow_256] at hlt
  rw [leNat_append, pow_256, Nat.add_comm]
  exact Nat.testBit_two_pow_mul_add _ hlt j

/-- A bit behind the memory. -/
theorem testBit_leNat_of_le (h : 8 * bs.length ≤ j) : (leNat bs).testBit j = false := by
  apply Nat.testBit_lt_two_pow
  have hlt := leNat_lt bs
  rw [pow_256] at hlt
  exact Nat.lt_of_lt_of_le hlt (Nat.pow_le_pow_right (by decide) h)

/-- The bits after a store. -/
theorem testBit_of_writeAt (h : CString.writeAt mem p bs = some mem') (j : Nat) :
    (leNat mem').testBit j =
      if 8 * p ≤ j ∧ j < 8 * (p + bs.length) then (leNat bs).testBit (j - 8 * p)
      else (leNat mem).testBit j := by
  have hle := CString.le_of_writeAt h
  have htake : (mem.take p).length = p := List.length_take_of_le (by omega)
  have hmid : ((mem.drop p).take bs.length).length = bs.length := by
    rw [List.length_take_of_le]
    rw [List.length_drop]
    omega
  have hsplit : mem = mem.take p ++ ((mem.drop p).take bs.length ++ mem.drop (p + bs.length)) := by
    rw [← List.drop_drop, List.take_append_drop, List.take_append_drop]
  have hmem : (leNat mem).testBit j = (leNat (mem.take p ++
      ((mem.drop p).take bs.length ++ mem.drop (p + bs.length)))).testBit j :=
    congrArg (fun m => (leNat m).testBit j) hsplit
  rw [CString.writeAt_of_le hle] at h
  cases h
  rw [hmem]
  simp only [testBit_leNat_append, htake, hmid]
  -- A bit in front, inside, or behind.
  by_cases hlow : j < 8 * p
  · rw [if_pos hlow, if_pos hlow, if_neg (by omega)]
  · rw [if_neg hlow, if_neg hlow]
    by_cases hhigh : j - 8 * p < 8 * bs.length
    · rw [if_pos hhigh, if_pos (by omega)]
    · rw [if_neg hhigh, if_neg hhigh, if_neg (by omega)]

/-- The bits of what is read. -/
theorem testBit_of_readBytes (h : readBytes mem p n = some bs) (hj : j < 8 * n) :
    (leNat bs).testBit j = (leNat mem).testBit (8 * p + j) := by
  have hlen := length_of_readBytes h
  have hsame := testBit_of_writeAt (writeAt_of_readBytes h) (8 * p + j)
  rw [if_pos (by omega), Nat.add_sub_cancel_left] at hsame
  exact hsame.symm

/-- Memories of one length with the same bits are the same. -/
theorem eq_of_testBit (hlen : as.length = bs.length)
    (h : ∀ j, j < 8 * as.length → (leNat as).testBit j = (leNat bs).testBit j) : as = bs := by
  have hnum : leNat as = leNat bs := by
    apply Nat.eq_of_testBit_eq
    intro j
    by_cases hj : j < 8 * as.length
    · exact h j hj
    · rw [testBit_leNat_of_le (Nat.le_of_not_lt hj),
        testBit_leNat_of_le (hlen ▸ Nat.le_of_not_lt hj)]
  rw [← leBytes_leNat as, ← leBytes_leNat bs, hnum, hlen]

/-- Bytes that are zero. -/
theorem leNat_replicate_zero (n : Nat) : leNat (List.replicate n 0) = 0 := by
  induction n with
  | zero => rfl
  | succ n ih => rw [List.replicate_succ, leNat, ih]; rfl

end Memory

end GlibcPorts.Lib
