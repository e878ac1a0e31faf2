import GlibcPorts.Rtld.Mrlock
import Mathlib.Data.Nat.Bitwise

/-!
# `GlibcPorts.Proofs.Rtld.Fields`: the lock word as four fields

`Fields` is the lock word read as what it stands for: a count of readers and three flags.
`Fields.addReader`, `Fields.subReader`, `Fields.setWriter` and `Fields.clearWriter` are the
updates the code means to make, on the fields and not on the bits. They are partial: a count
that would leave its bits, or a flag that is not there to clear, gives `none`.

The theorems say that the bit operations of the code compute these updates, and that its
bit tests read the fields:

* `fields_exchange_lock`, `fields_exchange_change`: the values that the two
  compare-and-exchanges install;
* `fields_sub_inc`, `fields_sub_writer`: the two fetch-and-adds;
* `fields_or_rwait`, `fields_or_wwait`: the two `atomic_or`s;
* `and_blocked_eq_zero_iff` and its neighbours: the tests.
-/

set_option autoImplicit false

namespace GlibcPorts.Rtld

/-- The lock word as the count of readers above the low three bits and the three flags. -/
@[ext]
structure Fields where
  count : Nat
  writer : Bool
  rwait : Bool
  wwait : Bool
deriving DecidableEq, Repr

/-- The fields of a lock word. -/
def fields (w : Word) : Fields where
  count := w.toNat / 8
  writer := w.toNat.testBit 0
  rwait := w.toNat.testBit 1
  wwait := w.toNat.testBit 2

namespace Fields

/-- The largest count whose word is still a nonnegative `int`. -/
def maxCount : Nat := 2 ^ 28 - 1

/-- A reader takes the lock: one more reader, and `RWAIT` is dropped. -/
def addReader (f : Fields) : Option Fields :=
  if f.count < maxCount then some { f with count := f.count + 1, rwait := false } else none

/-- A reader releases the lock. -/
def subReader (f : Fields) : Option Fields :=
  if 0 < f.count then some { f with count := f.count - 1 } else none

/-- The writer takes the lock: `WRITER` is set, `WWAIT` is dropped, `RWAIT` stays. -/
def setWriter (f : Fields) : Option Fields :=
  if f.count = 0 ∧ f.writer = false then some { f with writer := true, wwait := false } else none

/-- The writer releases the lock. -/
def clearWriter (f : Fields) : Option Fields :=
  if f.writer then some { f with writer := false } else none

end Fields

private theorem bool_eq_of_toNat_eq : ∀ {b c : Bool}, b.toNat = c.toNat → b = c := by decide

/-- The word is the sum of its fields. -/
theorem toNat_eq_fields (w : Word) :
    w.toNat = 8 * (fields w).count + 4 * (fields w).wwait.toNat + 2 * (fields w).rwait.toNat
      + (fields w).writer.toNat := by
  simp only [fields, Nat.toNat_testBit]
  omega

/-- A word that is the sum of some fields has these fields. -/
theorem fields_eq_of_toNat {w : Word} {f : Fields}
    (h : w.toNat = 8 * f.count + 4 * f.wwait.toNat + 2 * f.rwait.toNat + f.writer.toNat) :
    fields w = f := by
  have hw := f.writer.toNat_lt
  have hr := f.rwait.toNat_lt
  have hww := f.wwait.toNat_lt
  ext
  · simp only [fields]
    omega
  · apply bool_eq_of_toNat_eq
    simp only [fields, Nat.toNat_testBit]
    omega
  · apply bool_eq_of_toNat_eq
    simp only [fields, Nat.toNat_testBit]
    omega
  · apply bool_eq_of_toNat_eq
    simp only [fields, Nat.toNat_testBit]
    omega

/-! ### The masks

`&&&` with a mask keeps the fields under the mask. -/

/-- The count bits alone. -/
theorem toNat_and_rbits (w : Word) :
    (w &&& RTLD_MRLOCK_RBITS).toNat = 8 * (fields w).count := by
  have hmask : ∀ i < 32, RTLD_MRLOCK_RBITS.getLsbD i = decide (3 ≤ i) := by decide
  -- The mask is the complement of the low three bits, so it shifts them out and back.
  have hshift : w &&& RTLD_MRLOCK_RBITS = (w >>> 3) <<< 3 := by
    apply BitVec.eq_of_getLsbD_eq
    intro i hi
    rw [BitVec.getLsbD_and, hmask i hi, BitVec.getLsbD_shiftLeft, BitVec.getLsbD_ushiftRight]
    by_cases h3 : 3 ≤ i
    · simp [h3, hi, Nat.not_lt.mpr h3]
    · simp [h3, Nat.lt_of_not_le h3]
  rw [hshift, BitVec.toNat_shiftLeft, BitVec.toNat_ushiftRight, Nat.shiftLeft_eq,
    Nat.shiftRight_eq_div_pow]
  have hlt := w.isLt
  simp only [fields]
  omega

/-- One flag alone: the bit at position `k` with its weight. -/
theorem toNat_and_flag (w : Word) (k : Nat) (hk : k < 32) :
    (w &&& BitVec.ofNat 32 (2 ^ k)).toNat = (w.toNat.testBit k).toNat * 2 ^ k := by
  have hpow : 2 ^ k < 2 ^ 32 := Nat.pow_lt_pow_right (by decide) hk
  rw [BitVec.toNat_and, BitVec.toNat_ofNat, Nat.mod_eq_of_lt hpow, Nat.and_two_pow]

/-- The bit of the writer. -/
theorem toNat_and_writer (w : Word) :
    (w &&& RTLD_MRLOCK_WRITER).toNat = (fields w).writer.toNat :=
  (toNat_and_flag w 0 (by decide)).trans (Nat.mul_one _)

/-- The bit of the readers that wait. -/
theorem toNat_and_rwait (w : Word) :
    (w &&& RTLD_MRLOCK_RWAIT).toNat = 2 * (fields w).rwait.toNat :=
  (toNat_and_flag w 1 (by decide)).trans (Nat.mul_comm _ _)

/-- The bit of the writers that wait. -/
theorem toNat_and_wwait (w : Word) :
    (w &&& RTLD_MRLOCK_WWAIT).toNat = 4 * (fields w).wwait.toNat :=
  (toNat_and_flag w 2 (by decide)).trans (Nat.mul_comm _ _)

/-! ### The tests -/

/-- The test for readers. -/
theorem and_rbits_eq_zero_iff (w : Word) : w &&& RTLD_MRLOCK_RBITS = 0 ↔ (fields w).count = 0 := by
  rw [← BitVec.toNat_inj, toNat_and_rbits]
  simp

/-- The test for a writer. -/
theorem and_writer_eq_zero_iff (w : Word) :
    w &&& RTLD_MRLOCK_WRITER = 0 ↔ (fields w).writer = false := by
  rw [← BitVec.toNat_inj, toNat_and_writer]
  cases (fields w).writer <;> simp

/-- The test for readers that wait. -/
theorem and_rwait_eq_zero_iff (w : Word) :
    w &&& RTLD_MRLOCK_RWAIT = 0 ↔ (fields w).rwait = false := by
  rw [← BitVec.toNat_inj, toNat_and_rwait]
  cases (fields w).rwait <;> simp

/-- The test for writers that wait. -/
theorem and_wwait_eq_zero_iff (w : Word) :
    w &&& RTLD_MRLOCK_WWAIT = 0 ↔ (fields w).wwait = false := by
  rw [← BitVec.toNat_inj, toNat_and_wwait]
  cases (fields w).wwait <;> simp

/-- The reader's test: no writer holds the lock or waits for it. -/
theorem and_blocked_eq_zero_iff (w : Word) :
    w &&& (RTLD_MRLOCK_WRITER ||| RTLD_MRLOCK_WWAIT) = 0
      ↔ (fields w).writer = false ∧ (fields w).wwait = false := by
  rw [← and_writer_eq_zero_iff, ← and_wwait_eq_zero_iff, BitVec.and_or_distrib_left]
  exact BitVec.or_eq_zero_iff

/-- The reader's unlock test: it is the last reader and the writer waits. -/
theorem and_last_eq_iff (w : Word) :
    w &&& (RTLD_MRLOCK_RBITS ||| RTLD_MRLOCK_WWAIT) = RTLD_MRLOCK_INC ||| RTLD_MRLOCK_WWAIT
      ↔ (fields w).count = 1 ∧ (fields w).wwait = true := by
  have hw := (fields w).wwait.toNat_lt
  have hsum : (w &&& (RTLD_MRLOCK_RBITS ||| RTLD_MRLOCK_WWAIT)).toNat
      = 8 * (fields w).count + 4 * (fields w).wwait.toNat := by
    rw [BitVec.and_or_distrib_left, BitVec.toNat_or, toNat_and_rbits, toNat_and_wwait]
    -- The two masks have no bit in common, so their `|||` is a sum.
    exact (Nat.two_pow_add_eq_or_of_lt (i := 3) (by omega) _).symm
  rw [← BitVec.toNat_inj, hsum, ← Bool.toNat_eq_one]
  show _ = 12 ↔ _
  omega

/-! ### The values the code installs -/

/-- There is room for so many readers. -/
theorem count_lt (w : Word) : (fields w).count < 2 ^ 29 := by
  have hlt := w.isLt
  simp only [fields]
  omega

/-- The reader's exchange adds one reader, modulo the width of the count, and drops the
flags. -/
theorem fields_exchange_lock (w : Word) :
    fields ((w &&& RTLD_MRLOCK_RBITS) + RTLD_MRLOCK_INC)
      = { count := ((fields w).count + 1) % 2 ^ 29
          writer := false, rwait := false, wwait := false } := by
  apply fields_eq_of_toNat
  have hlt := count_lt w
  rw [BitVec.toNat_add, toNat_and_rbits]
  simp [RTLD_MRLOCK_INC]
  omega

/-- The writer's exchange keeps `RWAIT` alone and sets `WRITER`. -/
theorem fields_exchange_change (w : Word) :
    fields ((w &&& RTLD_MRLOCK_RWAIT) + RTLD_MRLOCK_WRITER)
      = { count := 0, writer := true, rwait := (fields w).rwait, wwait := false } := by
  apply fields_eq_of_toNat
  rw [BitVec.toNat_add, toNat_and_rwait]
  have hr := (fields w).rwait.toNat_lt
  simp [RTLD_MRLOCK_WRITER]
  omega

/-- `|||` acts on each field alone. -/
theorem fields_or (w m : Word) :
    fields (w ||| m)
      = { count := (fields w).count ||| (fields m).count
          writer := (fields w).writer || (fields m).writer
          rwait := (fields w).rwait || (fields m).rwait
          wwait := (fields w).wwait || (fields m).wwait } := by
  ext1
  · exact Nat.or_div_two_pow (n := 3)
  · exact Nat.testBit_or _ _ _
  · exact Nat.testBit_or _ _ _
  · exact Nat.testBit_or _ _ _

/-- The reader's `atomic_or` sets `RWAIT`. -/
theorem fields_or_rwait (w : Word) :
    fields (w ||| RTLD_MRLOCK_RWAIT) = { fields w with rwait := true } := by
  rw [fields_or, show fields RTLD_MRLOCK_RWAIT = ⟨0, false, true, false⟩ from by decide]
  simp

/-- The writer's `atomic_or` sets `WWAIT`. -/
theorem fields_or_wwait (w : Word) :
    fields (w ||| RTLD_MRLOCK_WWAIT) = { fields w with wwait := true } := by
  rw [fields_or, show fields RTLD_MRLOCK_WWAIT = ⟨0, false, false, true⟩ from by decide]
  simp

/-- The reader's fetch-and-add takes one reader away, modulo the width of the count, and
keeps the flags. -/
theorem fields_sub_inc (w : Word) :
    fields (w - RTLD_MRLOCK_INC)
      = { fields w with count := ((fields w).count + (2 ^ 29 - 1)) % 2 ^ 29 } := by
  apply fields_eq_of_toNat
  have hw := toNat_eq_fields w
  have hlt := w.isLt
  have hwriter := (fields w).writer.toNat_lt
  have hrwait := (fields w).rwait.toNat_lt
  have hwwait := (fields w).wwait.toNat_lt
  -- `w - 8` is `w + (2 ^ 32 - 8)` modulo `2 ^ 32`, a multiple of 8 that leaves the flags.
  simp [BitVec.toNat_sub, RTLD_MRLOCK_INC]
  omega

/-- The writer's fetch-and-add clears `WRITER` and keeps the rest. -/
theorem fields_sub_writer (w : Word) (h : (fields w).writer = true) :
    fields (w - RTLD_MRLOCK_WRITER) = { fields w with writer := false } := by
  apply fields_eq_of_toNat
  have hw := toNat_eq_fields w
  have hlt := w.isLt
  rw [h] at hw
  simp [BitVec.toNat_sub, RTLD_MRLOCK_WRITER] at hw ⊢
  omega

end GlibcPorts.Rtld
