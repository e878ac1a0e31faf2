import GlibcPorts.Lib.CString
import GlibcPorts.Lib.Records
import Mathlib.Algebra.Group.Nat.Defs
import Mathlib.Data.Nat.Bitwise

/-!
# `GlibcPorts.Lib.ByteOrder`: numbers as bytes

`leBytes k n` has the low `8 * k` bits of `n`, the least significant byte first. It and `leNat`
are the two directions of one coding: `leNat_leBytes` and `leBytes_leNat`. The other byte order is
the reverse of it.

`or_eq_add` is the step by which C code puts a number together from its bytes. `readBytes` reads
some bytes of the memory (`getElem?_of_readBytes`), and `readBytes_of_writeAt`,
`writeAt_of_readBytes` and `getElem?_of_writeAt` say what is read after a store, and what a store
leaves.
-/

set_option autoImplicit false

namespace GlibcPorts.Lib

/-- The `k` low bytes of a number, the least significant one first. -/
def leBytes : Nat → Nat → List UInt8
  | 0, _ => []
  | k + 1, n => UInt8.ofNat n :: leBytes k (n / 256)

/-- They are `k` bytes. -/
@[simp] theorem length_leBytes (k n : Nat) : (leBytes k n).length = k := by
  induction k generalizing n with
  | zero => rfl
  | succ k ih => rw [leBytes, List.length_cons, ih]

/-- The byte `i` of a number. -/
theorem getElem?_leBytes {i k : Nat} (n : Nat) (h : i < k) :
    (leBytes k n)[i]? = some (UInt8.ofNat (n / 256 ^ i)) := by
  induction k generalizing i n with
  | zero => exact absurd h (Nat.not_lt_zero i)
  | succ k ih =>
      cases i with
      | zero => rw [leBytes, List.getElem?_cons_zero, Nat.pow_zero, Nat.div_one]
      | succ i =>
          rw [leBytes, List.getElem?_cons_succ, ih (n / 256) (Nat.lt_of_succ_lt_succ h),
            Nat.div_div_eq_div_mul, Nat.pow_succ']

/-- A byte is the number modulo 256. -/
theorem toNat_ofNat_byte (n : Nat) : (UInt8.ofNat n).toNat = n % 256 := rfl

/-- The number of the low bytes of a number. -/
theorem leNat_leBytes (k n : Nat) : leNat (leBytes k n) = n % 256 ^ k := by
  induction k generalizing n with
  | zero => simp [leBytes, leNat, Nat.mod_one]
  | succ k ih => rw [leBytes, leNat, ih, toNat_ofNat_byte, Nat.pow_succ', Nat.mod_mul]

/-- A number of so many bytes. -/
theorem leNat_lt (bs : List UInt8) : leNat bs < 256 ^ bs.length := by
  induction bs with
  | nil => exact Nat.one_pos
  | cons b bs ih =>
      have hb : b.toNat < 256 := b.toNat_lt
      rw [leNat, List.length_cons, Nat.pow_succ]
      omega

/-- The bytes of the number of some bytes. -/
theorem leBytes_leNat (bs : List UInt8) : leBytes bs.length (leNat bs) = bs := by
  induction bs with
  | nil => rfl
  | cons b bs ih =>
      have hb : b.toNat < 256 := b.toNat_lt
      have hlow : UInt8.ofNat (b.toNat + 256 * leNat bs) = b := by
        apply UInt8.toNat_inj.mp
        rw [toNat_ofNat_byte, Nat.add_mul_mod_self_left, Nat.mod_eq_of_lt hb]
      have hhigh : (b.toNat + 256 * leNat bs) / 256 = leNat bs := by omega
      rw [List.length_cons, leNat, leBytes, hlow, hhigh, ih]

/-- The low bytes and the high ones. -/
theorem leNat_append (as bs : List UInt8) :
    leNat (as ++ bs) = leNat as + 256 ^ as.length * leNat bs := by
  induction as with
  | nil => simp [leNat]
  | cons a as ih =>
      rw [List.cons_append, leNat, leNat, ih, List.length_cons, Nat.pow_succ', Nat.mul_add,
        Nat.mul_assoc, Nat.add_assoc]

/-- A number that the bytes can hold comes back. -/
theorem leNat_leBytes_of_lt {k n : Nat} (h : n < 256 ^ k) : leNat (leBytes k n) = n := by
  rw [leNat_leBytes, Nat.mod_eq_of_lt h]

/-- The low bytes and then the higher ones. -/
theorem leBytes_add (j k n : Nat) :
    leBytes (j + k) n = leBytes j n ++ leBytes k (n / 256 ^ j) := by
  induction j generalizing n with
  | zero => rw [Nat.zero_add, Nat.pow_zero, Nat.div_one, leBytes, List.nil_append]
  | succ j ih =>
      rw [Nat.succ_add, leBytes, ih, leBytes, List.cons_append, Nat.div_div_eq_div_mul,
        Nat.pow_succ']

/-- The bytes of a number do not depend on what is above them. -/
theorem leBytes_mod (k n : Nat) : leBytes k (n % 256 ^ k) = leBytes k n := by
  have h := leBytes_leNat (leBytes k n)
  rwa [leNat_leBytes, length_leBytes] at h

/-- Numbers without a common bit, the one a multiple of a power of two and the other below it. -/
theorem or_eq_add {k x y : Nat} (hx : 2 ^ k ∣ x) (hy : y < 2 ^ k) : x ||| y = x + y := by
  obtain ⟨a, rfl⟩ := hx
  exact (Nat.two_pow_add_eq_or_of_lt hy a).symm

/-! ### Bytes of the memory -/

/-- The `n` bytes at the offset `p`, if they lie in the memory. -/
def readBytes (mem : List UInt8) (p n : Nat) : Option (List UInt8) :=
  if p + n ≤ mem.length then some ((mem.drop p).take n) else none

section Memory

variable {mem mem' bs : List UInt8} {p n : Nat}

/-- So many bytes are read. -/
theorem length_of_readBytes (h : readBytes mem p n = some bs) : bs.length = n := by
  unfold readBytes at h
  split at h
  · cases h
    rw [List.length_take, List.length_drop]
    omega
  · cases h

/-- The bytes that were read are those of the memory. -/
theorem getElem?_of_readBytes (h : readBytes mem p n = some bs) {i : Nat} (hi : i < n) :
    mem[p + i]? = bs[i]? := by
  unfold readBytes at h
  split at h
  · cases h
    rw [List.getElem?_take_of_lt hi, List.getElem?_drop]
  · cases h

/-- What is stored is read. -/
theorem readBytes_of_writeAt (h : CString.writeAt mem p bs = some mem') :
    readBytes mem' p bs.length = some bs := by
  have hle := CString.le_of_writeAt h
  have hp : (mem.take p).length = p := List.length_take_of_le (by omega)
  rw [readBytes, CString.length_of_writeAt h, if_pos hle, CString.drop_of_writeAt h (Nat.le_refl p),
    List.drop_of_length_le (Nat.le_of_eq hp), List.nil_append, List.take_left]

/-- A store of what is there changes nothing. -/
theorem writeAt_of_readBytes (h : readBytes mem p n = some bs) :
    CString.writeAt mem p bs = some mem := by
  have hlen := length_of_readBytes h
  unfold readBytes at h
  split at h
  · next hle =>
    cases h
    have hdrop : mem.drop (p + n) = (mem.drop p).drop n := by rw [List.drop_drop]
    rw [CString.writeAt_of_le (by rw [hlen]; exact hle), hlen, hdrop, List.take_append_drop,
      List.take_append_drop]
  · cases h

/-- A store leaves the bytes before it and behind it. -/
theorem getElem?_of_writeAt (h : CString.writeAt mem p bs = some mem') {i : Nat}
    (hi : i < p ∨ p + bs.length ≤ i) : mem'[i]? = mem[i]? := by
  have hle := CString.le_of_writeAt h
  have hp : (mem.take p).length = p := List.length_take_of_le (by omega)
  rw [CString.writeAt_of_le hle] at h
  cases h
  rcases hi with hi | hi
  · rw [List.getElem?_append_left (by rw [hp]; exact hi), List.getElem?_take_of_lt hi]
  · rw [List.getElem?_append_right (by rw [hp]; omega), hp,
      List.getElem?_append_right (by omega), List.getElem?_drop]
    congr 1
    omega

end Memory

end GlibcPorts.Lib
