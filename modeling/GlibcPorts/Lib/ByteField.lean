import GlibcPorts.Lib.CString

/-!
# `GlibcPorts.Lib.ByteField`: character arrays of a fixed size

`ByteField n` is a `char [n]` inside a structure. Such an array holds a string that needs no NUL
when it fills the array: `CString.cut bs k` is the string in the first `k` bytes, as the
functions of `string.h` with a bound read it, and `ByteField.str` the string of the whole array.

`strncpyBytes` is what `strncpy` stores: the string, cut to the bound, and NULs up to the bound.
A copy whose bound is a constant carries the proof that it fits (`ByteField.strncpy`). `store` is
a store at a computed offset, and it is `none` outside the array.

`chars_cut` is the fact behind the others: cutting is taking the first characters.
-/

set_option autoImplicit false

namespace GlibcPorts.Lib

/-- The characters of a string constant. -/
def asciiChars (s : String) : List UInt8 := s.toUTF8.data.toList

/-- A string constant in memory. -/
def literal (s : String) : List UInt8 := asciiChars s ++ [0]

namespace CString

/-- The string in the first `k` bytes. -/
def cut (bs : List UInt8) (k : Nat) : CString := upToNul (bs.take k)

/-- `strncmp (a, b, k) == 0`. -/
def strncmpEq (a b : List UInt8) (k : Nat) : Bool := cut a k = cut b k

/-- The bytes that `strncpy` with the bound `k` stores. -/
def strncpyBytes (src : List UInt8) (k : Nat) : List UInt8 :=
  (cut src k).chars ++ List.replicate (k - (cut src k).strlen) 0

/-- The first `k` bytes are compared as strings. -/
theorem strncmpEq_iff {a b : List UInt8} {k : Nat} :
    strncmpEq a b k = true ↔ cut a k = cut b k := by
  rw [strncmpEq, decide_eq_true_iff]

/-! ### The string in some bytes -/

section Strings

variable {bs : List UInt8} {k : Nat}

/-- Without a NUL these are all bytes. -/
theorem upToNul_eq_self_of_noNul (h : 0 ∉ bs) : (upToNul bs).chars = bs := by
  refine List.takeWhile_eq_self_iff.mpr fun c hc => ?_
  rw [decide_eq_true_iff]
  rintro rfl
  exact h hc

/-- A string in front of nothing or of a NUL. -/
theorem upToNul_chars_append (s : CString) (tail : List UInt8) (h : ∀ b ∈ tail.head?, b = 0) :
    upToNul (s.chars ++ tail) = s := by
  cases tail with
  | nil =>
      ext1
      rw [List.append_nil]
      exact upToNul_eq_self_of_noNul s.noNul
  | cons b tail =>
      have hbytes : s.chars ++ b :: tail = s.bytes ++ tail := by simp [h b rfl, bytes]
      rw [hbytes, upToNul_bytes_append]

/-- Bytes are their string and then nothing, or a NUL and more. -/
theorem exists_eq_chars_append (bs : List UInt8) :
    ∃ tail, bs = (upToNul bs).chars ++ tail ∧ ∀ b ∈ tail.head?, b = 0 := by
  by_cases hnul : 0 ∈ bs
  · obtain ⟨tail, htail⟩ := exists_eq_bytes_append hnul
    refine ⟨0 :: tail, ?_, by simp⟩
    rw [← List.singleton_append, ← List.append_assoc]
    exact htail
  · refine ⟨[], ?_, by simp⟩
    rw [List.append_nil, upToNul_eq_self_of_noNul hnul]

/-- A string is not longer than the bytes it is in. -/
theorem strlen_upToNul_le (bs : List UInt8) : (upToNul bs).strlen ≤ bs.length :=
  (List.takeWhile_sublist _).length_le

/-- The string of some bytes ends before them exactly when they have a NUL. -/
theorem strlen_upToNul_lt_iff : (upToNul bs).strlen < bs.length ↔ 0 ∈ bs := by
  constructor
  · intro hlt
    by_contra hnul
    rw [strlen, upToNul_eq_self_of_noNul hnul] at hlt
    exact Nat.lt_irrefl _ hlt
  · intro hnul
    obtain ⟨tail, htail⟩ := exists_eq_bytes_append hnul
    have hlen := congrArg List.length htail
    rw [List.length_append, length_bytes] at hlen
    omega

/-- Cutting takes the first characters of the string. -/
@[simp] theorem chars_cut (bs : List UInt8) (k : Nat) :
    (cut bs k).chars = (upToNul bs).chars.take k :=
  List.take_takeWhile.symm

/-- The length of a cut. -/
@[simp] theorem strlen_cut (bs : List UInt8) (k : Nat) :
    (cut bs k).strlen = min k (upToNul bs).strlen := by
  rw [strlen, chars_cut, List.length_take, strlen]

/-- A bound that the string keeps does not cut it. -/
theorem cut_eq_upToNul (h : (upToNul bs).strlen ≤ k) : cut bs k = upToNul bs := by
  ext1
  rw [chars_cut, List.take_of_length_le h]

/-- A cut behind the end. -/
theorem cut_of_length_le (h : bs.length ≤ k) : cut bs k = upToNul bs :=
  cut_eq_upToNul ((strlen_upToNul_le bs).trans h)

/-- The string behind the first characters of a string. -/
theorem chars_upToNul_drop {j : Nat} (h : j ≤ (upToNul bs).strlen) :
    (upToNul (bs.drop j)).chars = (upToNul bs).chars.drop j := by
  obtain ⟨tail, htail, hhead⟩ := exists_eq_chars_append bs
  have hnoNul : 0 ∉ (upToNul bs).chars.drop j := fun hmem =>
    (upToNul bs).noNul (List.mem_of_mem_drop hmem)
  have hdrop : bs.drop j = (upToNul bs).chars.drop j ++ tail := by
    exact (congrArg (List.drop j) htail).trans (List.drop_append_of_le_length h)
  rw [hdrop]
  exact congrArg chars (upToNul_chars_append ⟨(upToNul bs).chars.drop j, hnoNul⟩ _ hhead)

/-! ### Copies -/

/-- `strncpy` always writes `k` bytes. -/
@[simp] theorem length_strncpyBytes (src : List UInt8) (k : Nat) :
    (strncpyBytes src k).length = k := by
  have hle : (cut src k).strlen ≤ k := by
    rw [strlen_cut]
    exact Nat.min_le_left _ _
  simp only [strncpyBytes, List.length_append, List.length_replicate]
  unfold strlen at hle ⊢
  omega

/-- The string in a copy, whatever follows it, if the copy has a NUL or a NUL follows. -/
theorem upToNul_strncpyBytes_append {tail : List UInt8}
    (h : (upToNul bs).strlen < k ∨ ∀ b ∈ tail.head?, b = 0) :
    upToNul (strncpyBytes bs k ++ tail) = cut bs k := by
  rw [strncpyBytes, List.append_assoc]
  apply upToNul_chars_append
  cases hpad : k - (cut bs k).strlen with
  | zero =>
      rw [strlen_cut] at hpad
      simpa using h.resolve_left (by omega)
  | succ m => simp [List.replicate_succ]

/-- The string in a copy. -/
@[simp] theorem upToNul_strncpyBytes (src : List UInt8) (k : Nat) :
    upToNul (strncpyBytes src k) = cut src k := by
  have hcopy := @upToNul_strncpyBytes_append src k [] (.inr (by simp))
  rwa [List.append_nil] at hcopy

/-- A copy with a NUL is the string, a NUL and NULs. -/
theorem strncpyBytes_of_lt (h : (upToNul bs).strlen < k) :
    strncpyBytes bs k =
      (upToNul bs).chars ++ 0 :: List.replicate (k - (upToNul bs).strlen - 1) 0 := by
  rw [strncpyBytes, cut_eq_upToNul h.le, ← List.replicate_succ]
  congr 2
  omega

end Strings

end CString

/-! ### Arrays -/

/-- A `char [n]`. -/
@[ext] structure ByteField (n : Nat) where
  bytes : List UInt8
  length_bytes : bytes.length = n
deriving DecidableEq, Repr

namespace ByteField

open CString

variable {n : Nat}

/-- An array of NULs. -/
def zero (n : Nat) : ByteField n := ⟨List.replicate n 0, List.length_replicate⟩

/-- The byte at an index. -/
def get (f : ByteField n) (i : Fin n) : UInt8 := f.bytes.get (i.cast f.length_bytes.symm)

/-- The string in the array. It needs no NUL when it fills the array. -/
def str (f : ByteField n) : CString := upToNul f.bytes

/-- `strlen (f)`, if it does not read behind the array. -/
def strlen (f : ByteField n) : Option Nat :=
  if 0 ∈ f.bytes then some f.str.strlen else none

/-- `strncpy (f, src, k)`. -/
def strncpy (f : ByteField n) (src : List UInt8) (k : Nat) (h : k ≤ n) : ByteField n where
  bytes := strncpyBytes src k ++ f.bytes.drop k
  length_bytes := by
    rw [List.length_append, length_strncpyBytes, List.length_drop, f.length_bytes]
    omega

/-- Stores bytes at an offset of the array. -/
def store (f : ByteField n) (p : Nat) (bs : List UInt8) : Option (ByteField n) :=
  match h : writeAt f.bytes p bs with
  | none => none
  | some bs' => some ⟨bs', (length_of_writeAt h).trans f.length_bytes⟩

/-- A cut of a field at its size. -/
theorem cut_bytes (f : ByteField n) : cut f.bytes n = f.str :=
  cut_of_length_le f.length_bytes.le

/-- The string is shorter than the field when the field has a NUL. -/
theorem strlen_str_lt_iff (f : ByteField n) : f.str.strlen < n ↔ 0 ∈ f.bytes := by
  have hiff := @strlen_upToNul_lt_iff f.bytes
  rwa [f.length_bytes] at hiff

/-- `strlen` of a field, by its string. -/
theorem strlen_eq_ite (f : ByteField n) :
    f.strlen = if f.str.strlen < n then some f.str.strlen else none := by
  simp only [strlen, strlen_str_lt_iff]

/-- The first byte is a NUL exactly when the string is empty. -/
theorem get_zero_eq_iff (f : ByteField (n + 1)) : f.get 0 = 0 ↔ f.str.strlen = 0 := by
  obtain ⟨bytes, hlen⟩ := f
  cases bytes with
  | nil => simp at hlen
  | cons b bs => by_cases hb : b = 0 <;> simp [get, str, upToNul, CString.strlen, hb]

/-- An array with a character and a NUL holds the string of this character. -/
theorem get_zero_get_one_iff (f : ByteField (n + 2)) {c : UInt8} (hc : c ≠ 0) :
    (f.get 0 = c ∧ f.get 1 = 0) ↔ f.str.chars = [c] := by
  obtain ⟨bytes, hlen⟩ := f
  match bytes, hlen with
  | b :: b' :: bs, hlen =>
      by_cases hb : b = 0
      · simp [get, str, upToNul, hb, Ne.symm hc]
      · by_cases hb' : b' = 0 <;> simp [get, str, upToNul, hb, hb']

/-- A copy that fills the array does not depend on what was there. -/
theorem strncpy_full (f g : ByteField n) (src : List UInt8) :
    f.strncpy src n le_rfl = g.strncpy src n le_rfl := by
  ext1
  have hdrop : ∀ h : ByteField n, h.bytes.drop n = [] := fun h =>
    List.drop_eq_nil_of_le h.length_bytes.le
  simp only [strncpy, hdrop]

/-- The string in a copy that fills the array. -/
@[simp] theorem str_strncpy_full (f : ByteField n) (src : List UInt8) :
    (f.strncpy src n le_rfl).str = cut src n := by
  have hdrop : f.bytes.drop n = [] := List.drop_eq_nil_of_le f.length_bytes.le
  show upToNul (strncpyBytes src n ++ f.bytes.drop n) = cut src n
  rw [hdrop, List.append_nil, upToNul_strncpyBytes]

/-- The string in a copy into an array of NULs. -/
@[simp] theorem str_strncpy_zero (src : List UInt8) {k : Nat} (h : k ≤ n) :
    ((zero n).strncpy src k h).str = cut src k := by
  apply upToNul_strncpyBytes_append
  right
  intro b hb
  have hmem : b ∈ (zero n).bytes := List.mem_of_mem_drop (List.mem_of_mem_head? hb)
  exact List.eq_of_mem_replicate hmem

/-- The array that holds a string and NULs. -/
def ofString (n : Nat) (s : CString) : ByteField n := (zero n).strncpy s.bytes n le_rfl

/-- A string that fits is read back. -/
theorem str_ofString {s : CString} (h : s.strlen ≤ n) : (ofString n s).str = s := by
  have hs : upToNul s.bytes = s := upToNul_chars_append s [0] (by simp)
  rw [ofString, str_strncpy_full, cut_eq_upToNul (by rwa [hs]), hs]

/-- A store inside the array. -/
theorem store_of_le {f : ByteField n} {p : Nat} {bs : List UInt8} (h : p + bs.length ≤ n) :
    ∃ g, f.store p bs = some g ∧
      g.bytes = f.bytes.take p ++ (bs ++ f.bytes.drop (p + bs.length)) := by
  have hwrite := @writeAt_of_le f.bytes p bs (by rw [f.length_bytes]; exact h)
  refine ⟨⟨_, (length_of_writeAt hwrite).trans f.length_bytes⟩, ?_, rfl⟩
  unfold store
  split
  · rename_i hnone
    rw [hwrite] at hnone
    cases hnone
  · rename_i bs' hsome
    rw [hwrite] at hsome
    cases hsome
    rfl

end ByteField

end GlibcPorts.Lib
