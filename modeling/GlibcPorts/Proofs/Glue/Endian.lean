import GlibcPorts.Glue.Endian
import GlibcPorts.Lib.ByteOrder

/-!
# `GlibcPorts.Proofs.Glue.Endian`: the formats are inverse codings

* `dec_eq` and `enc_eq`: each function of a format reads or writes the bytes of the number, in the
  order of the format.
* `coding_roundTrip`: each byte has its place, what was written is read, writing what was read
  changes nothing, nothing else is touched, and the two byte orders are the reverse of each other.
-/

set_option autoImplicit false

namespace GlibcPorts.Glue

open Lib

/-! ### Numbers from bytes -/

/-- A byte moved up by whole bytes. -/
theorem toNat_promote (b : UInt8) (k : Nat) (hk : k ≤ 24) :
    (promote b <<< k).toNat = 2 ^ k * b.toNat := by
  have hb : b.toNat < 2 ^ 8 := b.toNat_lt
  have hpow : 2 ^ k ≤ 2 ^ 24 := Nat.pow_le_pow_right (by decide) hk
  have hlt : b.toNat * 2 ^ k < 2 ^ 32 :=
    Nat.lt_of_lt_of_le (Nat.mul_lt_mul_of_lt_of_le hb hpow (by decide)) (by decide)
  rw [promote, BitVec.toNat_shiftLeft, BitVec.toNat_setWidth, Nat.shiftLeft_eq,
    show b.toBitVec.toNat = b.toNat from rfl, Nat.mod_eq_of_lt (by omega : b.toNat < 2 ^ 32),
    Nat.mod_eq_of_lt hlt, Nat.mul_comm]

/-- The bits of a byte above the bits of a smaller number. -/
theorem promote_or (b : UInt8) (k : Nat) (hk : k ≤ 24) (n : BitVec 32) (hn : n.toNat < 2 ^ k) :
    ((promote b <<< k) ||| n).toNat = n.toNat + 2 ^ k * b.toNat := by
  have hb := toNat_promote b k hk
  rw [BitVec.toNat_or, or_eq_add (by rw [hb]; exact Nat.dvd_mul_right _ _) hn, hb, Nat.add_comm]

/-- Two bytes as a number. -/
theorem toNat_half (b0 b1 : UInt8) :
    ((promote b1 <<< 8) ||| promote b0).toNat = leNat [b0, b1] := by
  have hb0 : b0.toNat < 256 := b0.toNat_lt
  have h0 := toNat_promote b0 0 (by decide)
  rw [BitVec.shiftLeft_zero, Nat.pow_zero, Nat.one_mul] at h0
  rw [promote_or b1 8 (by decide) _ (by omega), h0]
  simp only [leNat]
  omega

/-- Four bytes as a number. -/
theorem toNat_word (b0 b1 b2 b3 : UInt8) :
    ((promote b3 <<< 24) ||| (promote b2 <<< 16) ||| (promote b1 <<< 8) ||| promote b0).toNat =
      leNat [b0, b1, b2, b3] := by
  have hb0 : b0.toNat < 256 := b0.toNat_lt
  have hb1 : b1.toNat < 256 := b1.toNat_lt
  have hb2 : b2.toNat < 256 := b2.toNat_lt
  have hhalf := toNat_half b0 b1
  simp only [leNat] at hhalf
  rw [BitVec.or_assoc, BitVec.or_assoc]
  have hthree := promote_or b2 16 (by decide) ((promote b1 <<< 8) ||| promote b0) (by omega)
  rw [promote_or b3 24 (by decide) _ (by omega), hthree, hhalf]
  simp only [leNat]
  omega

/-- Two words as a number. -/
theorem toNat_double (high low : BitVec 32) :
    ((high.setWidth 64 <<< 32) ||| low.setWidth 64).toNat = low.toNat + 2 ^ 32 * high.toNat := by
  have hhigh := high.isLt
  have hlow := low.isLt
  have hshift : (high.setWidth 64 <<< 32).toNat = 2 ^ 32 * high.toNat := by
    rw [BitVec.toNat_shiftLeft, BitVec.toNat_setWidth, Nat.shiftLeft_eq,
      Nat.mod_eq_of_lt (by omega : high.toNat < 2 ^ 64), Nat.mod_eq_of_lt (by omega), Nat.mul_comm]
  have hwidth : (low.setWidth 64).toNat = low.toNat := by
    rw [BitVec.toNat_setWidth, Nat.mod_eq_of_lt (by omega)]
  rw [BitVec.toNat_or, or_eq_add (by rw [hshift]; exact Nat.dvd_mul_right _ _)
    (by rw [hwidth]; exact hlow), hshift, hwidth, Nat.add_comm]

/-! ### Bytes from numbers -/

/-- The byte that a shift brings down. -/
theorem lowByte_shift {w : Nat} (hw : 8 ≤ w) (u : BitVec w) (k : Nat) :
    lowByte (u >>> k) = UInt8.ofNat (u.toNat / 2 ^ k) := by
  have hpow : 2 ^ 8 ≤ 2 ^ w := Nat.pow_le_pow_right (by decide) hw
  have hmask : (0xff : BitVec w).toNat = 2 ^ 8 - 1 := by
    show (BitVec.ofNat w 255).toNat = 255
    rw [BitVec.toNat_ofNat, Nat.mod_eq_of_lt (by omega)]
  apply UInt8.toNat_inj.mp
  rw [toNat_ofNat_byte]
  show (((u >>> k) &&& 0xff).setWidth 8).toNat = u.toNat / 2 ^ k % 2 ^ 8
  rw [BitVec.toNat_setWidth, BitVec.toNat_and, hmask, Nat.and_two_pow_sub_one_eq_mod,
    BitVec.toNat_ushiftRight, Nat.shiftRight_eq_div_pow, Nat.mod_mod]

/-- The lowest byte. -/
theorem lowByte_eq {w : Nat} (hw : 8 ≤ w) (u : BitVec w) : lowByte u = UInt8.ofNat u.toNat := by
  have h := lowByte_shift hw u 0
  rwa [BitVec.ushiftRight_zero, Nat.pow_zero, Nat.div_one] at h

/-! ### Reading -/

/-- Bytes and the ones behind them. -/
theorem readBytes_add (mem : List UInt8) (p m n : Nat) :
    readBytes mem p (m + n) =
      (readBytes mem p m).bind fun as => (readBytes mem (p + m) n).map fun bs => as ++ bs := by
  by_cases hn : p + m + n ≤ mem.length
  · have htake : (mem.drop p).take (m + n) = (mem.drop p).take m ++ (mem.drop (p + m)).take n := by
      rw [List.take_add, List.drop_drop]
    rw [readBytes, if_pos (by omega), readBytes, if_pos (by omega), readBytes, if_pos hn, htake]
    rfl
  · rw [readBytes, if_neg (by omega), readBytes.eq_def mem (p + m), if_neg hn]
    cases readBytes mem p m <;> rfl

/-- The bytes from an offset on, when there are enough. -/
theorem readBytes_of_drop {mem bs tail : List UInt8} {p : Nat} (h : mem.drop p = bs ++ tail)
    (hbs : 0 < bs.length) : readBytes mem p bs.length = some bs := by
  have hlen := congrArg List.length h
  rw [List.length_drop, List.length_append] at hlen
  rw [readBytes, if_pos (by omega), h, List.take_left]

/-- There are not enough bytes. -/
theorem readBytes_eq_none {mem : List UInt8} {p n : Nat} (h : (mem.drop p).length < n) :
    readBytes mem p n = none := by
  rw [List.length_drop] at h
  exact if_neg (by omega)

/-- The number with these bytes, the least significant one first. -/
def ofBytes (w : Nat) (bs : List UInt8) : BitVec w := BitVec.ofNat w (leNat bs)

/-- The bytes as they are. -/
theorem le16dec_eq (mem : List UInt8) (p : Nat) :
    le16dec mem p = (readBytes mem p 2).map (ofBytes 16) := by
  unfold le16dec
  rcases hdrop : mem.drop p with _ | ⟨p0, _ | ⟨p1, tail⟩⟩
  case cons.cons =>
    rw [show 2 = [p0, p1].length from rfl, readBytes_of_drop hdrop (by simp), Option.map_some,
      ofBytes, ← toNat_half]
    rfl
  all_goals
    rw [readBytes_eq_none (by rw [hdrop]; simp)]
    rfl

/-- The bytes the other way around. -/
theorem be16dec_eq (mem : List UInt8) (p : Nat) :
    be16dec mem p = (readBytes mem p 2).map (ofBytes 16 ∘ List.reverse) := by
  unfold be16dec
  rcases hdrop : mem.drop p with _ | ⟨p0, _ | ⟨p1, tail⟩⟩
  case cons.cons =>
    rw [show 2 = [p0, p1].length from rfl, readBytes_of_drop hdrop (by simp), Option.map_some]
    show some (BitVec.ofNat 16 _) = some (BitVec.ofNat 16 (leNat [p1, p0]))
    rw [← toNat_half]
  all_goals
    rw [readBytes_eq_none (by rw [hdrop]; simp)]
    rfl

/-- The bytes as they are. -/
theorem le32dec_eq (mem : List UInt8) (p : Nat) :
    le32dec mem p = (readBytes mem p 4).map (ofBytes 32) := by
  unfold le32dec
  rcases hdrop : mem.drop p with _ | ⟨p0, _ | ⟨p1, _ | ⟨p2, _ | ⟨p3, tail⟩⟩⟩⟩
  case cons.cons.cons.cons =>
    rw [show 4 = [p0, p1, p2, p3].length from rfl, readBytes_of_drop hdrop (by simp),
      Option.map_some, ofBytes, ← toNat_word, BitVec.ofNat_toNat, BitVec.setWidth_eq]
  all_goals
    rw [readBytes_eq_none (by rw [hdrop]; simp)]
    rfl

/-- The bytes the other way around. -/
theorem be32dec_eq (mem : List UInt8) (p : Nat) :
    be32dec mem p = (readBytes mem p 4).map (ofBytes 32 ∘ List.reverse) := by
  unfold be32dec
  rcases hdrop : mem.drop p with _ | ⟨p0, _ | ⟨p1, _ | ⟨p2, _ | ⟨p3, tail⟩⟩⟩⟩
  case cons.cons.cons.cons =>
    rw [show 4 = [p0, p1, p2, p3].length from rfl, readBytes_of_drop hdrop (by simp),
      Option.map_some]
    show some _ = some (BitVec.ofNat 32 (leNat [p3, p2, p1, p0]))
    rw [← toNat_word, BitVec.ofNat_toNat, BitVec.setWidth_eq]
  all_goals
    rw [readBytes_eq_none (by rw [hdrop]; simp)]
    rfl

/-- Two words that follow each other. -/
theorem ofBytes_append {low high : List UInt8} (hlow : low.length = 4) (hhigh : high.length = 4) :
    ((ofBytes 32 high).setWidth 64 <<< 32) ||| (ofBytes 32 low).setWidth 64 =
      ofBytes 64 (low ++ high) := by
  have hword : ∀ bs : List UInt8, bs.length = 4 → leNat bs < 2 ^ 32 := by
    intro bs hbs
    have hlt := leNat_lt bs
    rw [hbs] at hlt
    exact hlt
  have hl := hword low hlow
  have hh := hword high hhigh
  apply BitVec.eq_of_toNat_eq
  rw [toNat_double, ofBytes, ofBytes, ofBytes, BitVec.toNat_ofNat, BitVec.toNat_ofNat,
    BitVec.toNat_ofNat, leNat_append, hlow, Nat.mod_eq_of_lt hl, Nat.mod_eq_of_lt hh,
    show 256 ^ 4 = 2 ^ 32 from rfl, Nat.mod_eq_of_lt (by omega)]

/-- The bytes as they are. -/
theorem le64dec_eq (mem : List UInt8) (p : Nat) :
    le64dec mem p = (readBytes mem p 8).map (ofBytes 64) := by
  rw [le64dec, le32dec_eq, le32dec_eq, readBytes_add mem p 4 4]
  cases hlow : readBytes mem p 4 with
  | none => cases readBytes mem (p + 4) 4 <;> rfl
  | some low =>
      cases hhigh : readBytes mem (p + 4) 4 with
      | none => rfl
      | some high =>
          exact congrArg some
            (ofBytes_append (length_of_readBytes hlow) (length_of_readBytes hhigh))

/-- The bytes the other way around. -/
theorem be64dec_eq (mem : List UInt8) (p : Nat) :
    be64dec mem p = (readBytes mem p 8).map (ofBytes 64 ∘ List.reverse) := by
  rw [be64dec, be32dec_eq, be32dec_eq, readBytes_add mem p 4 4]
  cases hhigh : readBytes mem p 4 with
  | none => rfl
  | some high =>
      cases hlow : readBytes mem (p + 4) 4 with
      | none => rfl
      | some low =>
          have hlength : low.reverse.length = 4 := by
            rw [List.length_reverse, length_of_readBytes hlow]
          have hlength' : high.reverse.length = 4 := by
            rw [List.length_reverse, length_of_readBytes hhigh]
          have hwords := ofBytes_append hlength hlength'
          rw [← List.reverse_append] at hwords
          exact congrArg some hwords

/-! ### Writing -/

/-- The bytes of the number, the least significant one first. -/
theorem le16enc_eq (mem : List UInt8) (p : Nat) (u : BitVec 16) :
    le16enc mem p u = CString.writeAt mem p (leBytes 2 u.toNat) := by
  rw [le16enc, lowByte_eq (by decide), lowByte_shift (by decide)]
  exact (CString.writeAt_append mem p [_] [_]).symm

/-- The bytes of the number, the most significant one first. -/
theorem be16enc_eq (mem : List UInt8) (p : Nat) (u : BitVec 16) :
    be16enc mem p u = CString.writeAt mem p (leBytes 2 u.toNat).reverse := by
  rw [be16enc, lowByte_shift (by decide), lowByte_eq (by decide)]
  exact (CString.writeAt_append mem p [_] [_]).symm

/-- Four stores that follow each other are one. -/
theorem storeBytes_eq (mem : List UInt8) (p : Nat) (b0 b1 b2 b3 : UInt8) :
    ((storeByte mem p b0).bind fun mem => (storeByte mem (p + 1) b1).bind fun mem =>
      (storeByte mem (p + 2) b2).bind fun mem => storeByte mem (p + 3) b3) =
      CString.writeAt mem p [b0, b1, b2, b3] := by
  rw [show [b0, b1, b2, b3] = [b0] ++ ([b1] ++ ([b2] ++ [b3])) from rfl, CString.writeAt_append]
  simp only [CString.writeAt_append, List.length_singleton, storeByte, Nat.add_assoc]

/-- The bytes of a word, by shifts. -/
theorem leBytes_four (n : Nat) :
    leBytes 4 n = [UInt8.ofNat n, UInt8.ofNat (n / 2 ^ 8), UInt8.ofNat (n / 2 ^ 16),
      UInt8.ofNat (n / 2 ^ 24)] := by
  simp only [leBytes, Nat.div_div_eq_div_mul]
  rfl

/-- The bytes of the number, the least significant one first. -/
theorem le32enc_eq (mem : List UInt8) (p : Nat) (u : BitVec 32) :
    le32enc mem p u = CString.writeAt mem p (leBytes 4 u.toNat) := by
  rw [le32enc, lowByte_eq (by decide), lowByte_shift (by decide), lowByte_shift (by decide),
    lowByte_shift (by decide), leBytes_four]
  exact storeBytes_eq mem p _ _ _ _

/-- The bytes of the number, the most significant one first. -/
theorem be32enc_eq (mem : List UInt8) (p : Nat) (u : BitVec 32) :
    be32enc mem p u = CString.writeAt mem p (leBytes 4 u.toNat).reverse := by
  rw [be32enc, lowByte_shift (by decide), lowByte_shift (by decide), lowByte_shift (by decide),
    lowByte_eq (by decide), leBytes_four]
  exact storeBytes_eq mem p _ _ _ _

/-- The bytes of a number, by its two words. -/
theorem leBytes_eight (u : BitVec 64) :
    leBytes 8 u.toNat = leBytes 4 ((u &&& 0xffffffff).setWidth 32).toNat ++
      leBytes 4 ((u >>> 32).setWidth 32).toNat := by
  have hu := u.isLt
  have hlow : ((u &&& 0xffffffff).setWidth 32).toNat = u.toNat % 2 ^ 32 := by
    rw [BitVec.toNat_setWidth, BitVec.toNat_and,
      show (0xffffffff : BitVec 64).toNat = 2 ^ 32 - 1 from rfl, Nat.and_two_pow_sub_one_eq_mod,
      Nat.mod_mod]
  have hhigh : ((u >>> 32).setWidth 32).toNat = u.toNat / 2 ^ 32 := by
    rw [BitVec.toNat_setWidth, BitVec.toNat_ushiftRight, Nat.shiftRight_eq_div_pow,
      Nat.mod_eq_of_lt (by omega)]
  rw [hlow, hhigh, show 2 ^ 32 = 256 ^ 4 from rfl, leBytes_mod, ← leBytes_add 4 4]

/-- The bytes of the number, the least significant one first. -/
theorem le64enc_eq (mem : List UInt8) (p : Nat) (u : BitVec 64) :
    le64enc mem p u = CString.writeAt mem p (leBytes 8 u.toNat) := by
  rw [le64enc, leBytes_eight, CString.writeAt_append, length_leBytes]
  simp only [le32enc_eq]
  rfl

/-- The bytes of the number, the most significant one first. -/
theorem be64enc_eq (mem : List UInt8) (p : Nat) (u : BitVec 64) :
    be64enc mem p u = CString.writeAt mem p (leBytes 8 u.toNat).reverse := by
  rw [be64enc, leBytes_eight, List.reverse_append, CString.writeAt_append, List.length_reverse,
    length_leBytes]
  simp only [be32enc_eq]
  rfl

/-! ### All formats -/

namespace Coding

/-- The bytes as the format has them, of the bytes with the least significant one first. -/
def order : Coding → List UInt8 → List UInt8
  | be16 | be32 | be64 => List.reverse
  | le16 | le32 | le64 => id

/-- The power of 256 that the byte `i` of a number stands for. -/
def place : Coding → Nat → Nat
  | be16, i => 1 - i
  | be32, i => 3 - i
  | be64, i => 7 - i
  | le16, i | le32, i | le64, i => i

/-- A format has all the bytes. -/
@[simp] theorem length_order (c : Coding) (bs : List UInt8) : (c.order bs).length = bs.length := by
  cases c <;> simp [order]

/-- An order is undone by itself. -/
@[simp] theorem order_order (c : Coding) (bs : List UInt8) : c.order (c.order bs) = bs := by
  cases c <;> simp [order]

/-- The other format has the bytes the other way around. -/
theorem order_swap (c : Coding) (bs : List UInt8) : c.swap.order bs = (c.order bs).reverse := by
  cases c <;> simp [order, swap]

/-- The byte order does not change the width. -/
theorem width_swap (c : Coding) : c.swap.width = c.width := by cases c <;> rfl

/-- Nor the type of the number. -/
theorem bits_swap (c : Coding) : c.swap.bits = c.bits := by cases c <;> rfl

/-- As many numbers as bytes can hold. -/
theorem pow_width (c : Coding) : 256 ^ c.width = 2 ^ c.bits := by cases c <;> rfl

/-- A format reads the number with the bytes in its order. -/
theorem dec_eq (c : Coding) (mem : List UInt8) (p : Nat) :
    c.dec mem p = (readBytes mem p c.width).map fun bs => ofBytes c.bits (c.order bs) := by
  cases c with
  | be16 => exact be16dec_eq mem p
  | be32 => exact be32dec_eq mem p
  | be64 => exact be64dec_eq mem p
  | le16 => exact le16dec_eq mem p
  | le32 => exact le32dec_eq mem p
  | le64 => exact le64dec_eq mem p

/-- A format writes the bytes of the number in its order. -/
theorem enc_eq (c : Coding) (mem : List UInt8) (p : Nat) (u : BitVec c.bits) :
    c.enc mem p u = CString.writeAt mem p (c.order (leBytes c.width u.toNat)) := by
  cases c with
  | be16 => exact be16enc_eq mem p u
  | be32 => exact be32enc_eq mem p u
  | be64 => exact be64enc_eq mem p u
  | le16 => exact le16enc_eq mem p u
  | le32 => exact le32enc_eq mem p u
  | le64 => exact le64enc_eq mem p u

/-- The bytes of a number are those of no other. -/
theorem ofBytes_leBytes (c : Coding) (u : BitVec c.bits) :
    ofBytes c.bits (leBytes c.width u.toNat) = u := by
  apply BitVec.eq_of_toNat_eq
  rw [ofBytes, BitVec.toNat_ofNat, leNat_leBytes, pow_width, Nat.mod_mod,
    Nat.mod_eq_of_lt u.isLt]

/-- The byte `i` of a number. -/
theorem getElem?_order (c : Coding) (n : Nat) {i : Nat} (hi : i < c.width) :
    (c.order (leBytes c.width n))[i]? = some (UInt8.ofNat (n / 256 ^ c.place i)) := by
  have hback : ∀ k, i < k →
      (leBytes k n).reverse[i]? = some (UInt8.ofNat (n / 256 ^ (k - 1 - i))) := by
    intro k hk
    rw [List.getElem?_reverse (by rwa [length_leBytes]), length_leBytes,
      getElem?_leBytes n (by omega)]
  cases c with
  | be16 => exact hback 2 hi
  | be32 => exact hback 4 hi
  | be64 => exact hback 8 hi
  | le16 => exact getElem?_leBytes n hi
  | le32 => exact getElem?_leBytes n hi
  | le64 => exact getElem?_leBytes n hi

/-- The number of some bytes has no other bytes. -/
theorem leBytes_ofBytes (c : Coding) {bs : List UInt8} (h : bs.length = c.width) :
    leBytes c.width (ofBytes c.bits bs).toNat = bs := by
  rw [ofBytes, BitVec.toNat_ofNat, ← pow_width, leBytes_mod, ← h, leBytes_leNat]

section RoundTrip

variable (c : Coding) {mem mem' : List UInt8} {p : Nat} {u : BitVec c.bits}

/-- Reading stays in the memory. -/
theorem isSome_dec : (c.dec mem p).isSome ↔ p + c.width ≤ mem.length := by
  rw [dec_eq, Option.isSome_map, readBytes]
  split <;> simp_all

/-- Writing stays in the memory. -/
theorem isSome_enc : (c.enc mem p u).isSome ↔ p + c.width ≤ mem.length := by
  rw [enc_eq, CString.writeAt, length_order, length_leBytes]
  split <;> simp_all

/-- The bytes that a number is written as. -/
theorem readBytes_of_enc (h : c.enc mem p u = some mem') :
    readBytes mem' p c.width = some (c.order (leBytes c.width u.toNat)) := by
  rw [enc_eq] at h
  have hread := readBytes_of_writeAt h
  rwa [length_order, length_leBytes] at hread

/-- What was written is read. -/
theorem dec_of_enc (h : c.enc mem p u = some mem') : c.dec mem' p = some u := by
  rw [dec_eq, c.readBytes_of_enc h, Option.map_some, order_order, ofBytes_leBytes]

/-- Writing what was read changes nothing. -/
theorem enc_of_dec (h : c.dec mem p = some u) : c.enc mem p u = some mem := by
  rw [dec_eq] at h
  obtain ⟨bs, hbs, rfl⟩ := Option.map_eq_some_iff.mp h
  have hlen := length_of_readBytes hbs
  rw [enc_eq, leBytes_ofBytes c (by rw [length_order, hlen]), order_order]
  exact writeAt_of_readBytes hbs

end RoundTrip

end Coding

/-- Each format of `endian.h` is a coding of the numbers of its width at any address, aligned or
not. Its two functions stay inside the memory exactly when the bytes of the number do. Each byte is
the digit of its place (`Coding.place`). What was written is read, no other byte changes, writing
what was read changes nothing, and the format with the other byte order has the same bytes the other
way around. -/
theorem coding_roundTrip (c : Coding) (mem : List UInt8) (p : Nat) :
    ((c.dec mem p).isSome ↔ p + c.width ≤ mem.length) ∧
      (∀ u, (c.enc mem p u).isSome ↔ p + c.width ≤ mem.length) ∧
      (∀ u mem', c.enc mem p u = some mem' →
        (∀ i < c.width, mem'[p + i]? = some (UInt8.ofNat (u.toNat / 256 ^ c.place i))) ∧
          c.dec mem' p = some u ∧ mem'.length = mem.length ∧
          (∀ i, i < p ∨ p + c.width ≤ i → mem'[i]? = mem[i]?) ∧
          (c.swap.enc mem p (u.cast c.bits_swap.symm)).bind (readBytes · p c.width) =
            (readBytes mem' p c.width).map List.reverse) ∧
      ∀ u, c.dec mem p = some u → c.enc mem p u = some mem := by
  refine ⟨c.isSome_dec, fun u => c.isSome_enc, ?_, fun u => c.enc_of_dec⟩
  intro u mem' h
  have hwrite := h
  rw [Coding.enc_eq] at hwrite
  have hroom : p + c.swap.width ≤ mem.length := by
    rw [c.width_swap]
    exact c.isSome_enc.mp (Option.isSome_iff_exists.mpr ⟨mem', h⟩)
  -- The bytes of the other order, at the same place.
  have hother : (c.swap.enc mem p (u.cast c.bits_swap.symm)).bind (readBytes · p c.width) =
      (readBytes mem' p c.width).map List.reverse := by
    obtain ⟨mem'', hswap⟩ := Option.isSome_iff_exists.mp
      (c.swap.isSome_enc (u := u.cast c.bits_swap.symm).mpr hroom)
    have hread := c.swap.readBytes_of_enc hswap
    rw [c.width_swap, c.order_swap, BitVec.toNat_cast] at hread
    rw [hswap, Option.bind_some, hread, c.readBytes_of_enc h, Option.map_some]
  refine ⟨fun i hi => ?_, c.dec_of_enc h, CString.length_of_writeAt hwrite, fun i hi => ?_, hother⟩
  · exact (getElem?_of_readBytes (c.readBytes_of_enc h) hi).trans (c.getElem?_order u.toNat hi)
  · apply getElem?_of_writeAt hwrite
    rwa [Coding.length_order, length_leBytes]

end GlibcPorts.Glue
