import Mathlib.Algebra.Group.Nat.Defs
import Mathlib.Data.Nat.Bitwise

/-!
# `GlibcPorts.Lib.Alignment`: multiples of a power of two

C code that aligns a number works on its bits: `n & (a - 1)` is what is over, and
`(n + a - 1) & ~(a - 1)` is the next multiple of `a`, for an `a` that is a power of two.
`toNat_and_mask` and `toNat_and_compl_mask` say what these are as numbers, and `roundUp` is the
next multiple, with the facts that the code relies on. The sum may wrap around in the machine
word. Then the result is zero (`toNat_alignUp_of_le`). `toNat_divUp` is the number of pieces of any
size `n` that code without masks divides by.
-/

set_option autoImplicit false

namespace GlibcPorts.Lib

/-- The least multiple of `a` that is not below `n`. -/
def roundUp (a n : Nat) : Nat := (n + a - 1) / a * a

section RoundUp

variable {a n m : Nat}

/-- It is not below the number. -/
theorem le_roundUp (ha : 0 < a) (n : Nat) : n ≤ roundUp a n := by
  have hdiv := Nat.div_add_mod (n + a - 1) a
  have hmod := Nat.mod_lt (n + a - 1) ha
  have hcomm : a * ((n + a - 1) / a) = (n + a - 1) / a * a := Nat.mul_comm _ _
  unfold roundUp
  omega

/-- It is less than one unit above. -/
theorem roundUp_lt (ha : 0 < a) (n : Nat) : roundUp a n < n + a := by
  have hle := Nat.div_mul_le_self (n + a - 1) a
  unfold roundUp
  omega

/-- A multiple that comes first can be taken out. -/
theorem roundUp_add (ha : 0 < a) (h : a ∣ n) (m : Nat) : roundUp a (n + m) = n + roundUp a m := by
  obtain ⟨k, rfl⟩ := h
  unfold roundUp
  rw [show a * k + m + a - 1 = m + a - 1 + a * k by omega, Nat.add_mul_div_left _ _ ha,
    Nat.add_mul, Nat.add_comm, Nat.mul_comm a k]

end RoundUp

/-! ### On machine words -/

section Words

variable {w k : Nat}

/-- The mask of the low `k` bits. -/
def lowMask (w k : Nat) : BitVec w := BitVec.ofNat w (2 ^ k - 1)

/-- Its bits are the `k` lowest. -/
theorem getLsbD_lowMask (hk : k ≤ w) (i : Nat) : (lowMask w k).getLsbD i = decide (i < k) := by
  rw [lowMask, BitVec.getLsbD_ofNat, Nat.testBit_two_pow_sub_one]
  by_cases hi : i < k
  · simp [hi, Nat.lt_of_lt_of_le hi hk]
  · simp [hi]

/-- The low bits are the remainder. -/
theorem toNat_and_lowMask (hk : k ≤ w) (x : BitVec w) :
    (x &&& lowMask w k).toNat = x.toNat % 2 ^ k := by
  have hmask : (lowMask w k).toNat = 2 ^ k - 1 := by
    rw [lowMask, BitVec.toNat_ofNat]
    refine Nat.mod_eq_of_lt (Nat.lt_of_lt_of_le ?_ (Nat.pow_le_pow_right (by decide) hk))
    have hpos := Nat.two_pow_pos k
    omega
  rw [BitVec.toNat_and, hmask, Nat.and_two_pow_sub_one_eq_mod]

/-- The other bits are the multiple below. -/
theorem toNat_and_compl_lowMask (hk : k ≤ w) (x : BitVec w) :
    (x &&& ~~~lowMask w k).toNat = x.toNat / 2 ^ k * 2 ^ k := by
  have hshift : x &&& ~~~lowMask w k = (x >>> k) <<< k := by
    ext i hi
    rw [BitVec.getElem_and, BitVec.getElem_not, BitVec.getElem_shiftLeft]
    have hbit : (lowMask w k)[i] = decide (i < k) := by
      rw [← BitVec.getLsbD_eq_getElem, getLsbD_lowMask hk]
    rw [hbit]
    by_cases hik : i < k
    · simp [hik]
    · have hsum : k + (i - k) = i := by omega
      simp [hik, hsum, BitVec.getLsbD_eq_getElem hi]
  rw [hshift, BitVec.toNat_shiftLeft, BitVec.toNat_ushiftRight, Nat.shiftRight_eq_div_pow,
    Nat.shiftLeft_eq]
  exact Nat.mod_eq_of_lt (Nat.lt_of_le_of_lt (Nat.div_mul_le_self _ _) x.isLt)

/-- `(x + a - 1) & ~(a - 1)`, for `a` the power `2 ^ k`. -/
def alignUp (k : Nat) (x : BitVec w) : BitVec w := (x + lowMask w k) &&& ~~~lowMask w k

/-- The number that it is, with the sum as the word has it. -/
theorem toNat_alignUp (hk : k ≤ w) (x : BitVec w) :
    (alignUp k x).toNat = (x.toNat + (2 ^ k - 1)) % 2 ^ w / 2 ^ k * 2 ^ k := by
  have hmask : (lowMask w k).toNat = (2 ^ k - 1) % 2 ^ w := BitVec.toNat_ofNat _ _
  rw [alignUp, toNat_and_compl_lowMask hk, BitVec.toNat_add, hmask, Nat.add_mod_mod]

/-- Without a wrap around it is the next multiple. -/
theorem toNat_alignUp_of_lt (hk : k ≤ w) {x : BitVec w} (h : x.toNat + (2 ^ k - 1) < 2 ^ w) :
    (alignUp k x).toNat = roundUp (2 ^ k) x.toNat := by
  have hpos := Nat.two_pow_pos k
  rw [toNat_alignUp hk, Nat.mod_eq_of_lt h, roundUp, Nat.add_sub_assoc hpos]

/-- With one it is zero. -/
theorem toNat_alignUp_of_le (hk : k ≤ w) {x : BitVec w} (h : 2 ^ w ≤ x.toNat + (2 ^ k - 1)) :
    (alignUp k x).toNat = 0 := by
  have hpos := Nat.two_pow_pos k
  have hx := x.isLt
  have hkw : 2 ^ k ≤ 2 ^ w := Nat.pow_le_pow_right (by decide) hk
  have hwrap : (x.toNat + (2 ^ k - 1)) % 2 ^ w = x.toNat + (2 ^ k - 1) - 2 ^ w := by
    rw [Nat.mod_eq_sub_mod h, Nat.mod_eq_of_lt (by omega)]
  rw [toNat_alignUp hk, hwrap, Nat.div_eq_of_lt (by omega), Nat.zero_mul]

/-- `(x + n - 1) / n`, for any `n`. -/
theorem toNat_divUp {n : Nat} (hn : 0 < n) (hlt : n < 2 ^ w) {x : BitVec w}
    (h : x.toNat + (n - 1) < 2 ^ w) :
    ((x + BitVec.ofNat w n - 1) / BitVec.ofNat w n).toNat = (x.toNat + (n - 1)) / n := by
  have hsum : x + BitVec.ofNat w n - 1 = BitVec.ofNat w (x.toNat + (n - 1)) := by
    rw [BitVec.sub_eq_iff_eq_add]
    apply BitVec.eq_of_toNat_eq
    have hone : (1 : BitVec w).toNat = 1 % 2 ^ w := BitVec.toNat_ofNat _ _
    rw [BitVec.toNat_add, BitVec.toNat_add, BitVec.toNat_ofNat, BitVec.toNat_ofNat, hone,
      Nat.add_mod_mod, ← Nat.add_mod, Nat.add_assoc, Nat.sub_add_cancel hn]
  rw [hsum, BitVec.toNat_udiv, BitVec.toNat_ofNat, BitVec.toNat_ofNat, Nat.mod_eq_of_lt h,
    Nat.mod_eq_of_lt hlt]

end Words

end GlibcPorts.Lib
