import Mathlib.Data.List.TakeWhile

/-!
# `GlibcPorts.Lib.CString`: C strings in memory

A memory is the list of its bytes. `CString.readAt mem p` is the string that starts at the
offset `p`, and `strcpy`, `strcat` and `memcpy` are the functions of `string.h`. Each of them is
`none` when it would read or write outside the memory.

`readAt_eq_some_iff` is the fact behind the others: there is a string at `p` exactly when the
memory from `p` on starts with the characters of the string and a NUL. What `strcpy` and `strcat`
leave in memory is `readAt_of_strcpy` and `readAt_of_strcat`. `strcat_eq_some` says when `strcat`
stays inside, and `memcpy_of_le` when `memcpy` does.
-/

set_option autoImplicit false

namespace GlibcPorts.Lib

/-- A string without its NUL. -/
@[ext] structure CString where
  chars : List UInt8
  noNul : 0 ∉ chars
deriving DecidableEq, Repr

namespace CString

/-- `strlen`. -/
def strlen (s : CString) : Nat := s.chars.length

/-- The bytes of the string in memory. -/
def bytes (s : CString) : List UInt8 := s.chars ++ [0]

/-- One string and then another. -/
def append (s t : CString) : CString :=
  ⟨s.chars ++ t.chars, by simp [s.noNul, t.noNul]⟩

instance : Append CString := ⟨append⟩

/-- The characters of a list of bytes up to its first NUL. -/
def upToNul (bs : List UInt8) : CString :=
  ⟨bs.takeWhile (· ≠ 0), fun h => by simpa using List.mem_takeWhile_imp h⟩

/-- The string at the offset `p`. -/
def readAt (mem : List UInt8) (p : Nat) : Option CString :=
  if 0 ∈ mem.drop p then some (upToNul (mem.drop p)) else none

/-- The characters of the two. -/
@[simp] theorem chars_append (s t : CString) : (s ++ t).chars = s.chars ++ t.chars := rfl

/-- The length of the two. -/
@[simp] theorem strlen_append (s t : CString) : (s ++ t).strlen = s.strlen + t.strlen :=
  List.length_append

/-- The NUL takes one byte more. -/
@[simp] theorem length_bytes (s : CString) : s.bytes.length = s.strlen + 1 := by
  simp [bytes, strlen]

/-- Three strings. -/
theorem append_assoc (s t u : CString) : s ++ t ++ u = s ++ (t ++ u) := by
  ext1
  simp [List.append_assoc]

/-- Reading stops at the NUL of the string. -/
@[simp] theorem upToNul_bytes_append (s : CString) (tail : List UInt8) :
    upToNul (s.bytes ++ tail) = s := by
  ext1
  show (s.chars ++ [0] ++ tail).takeWhile (· ≠ 0) = s.chars
  have hchars : ∀ c ∈ s.chars, decide (c ≠ 0) = true := by
    intro c hc
    rw [decide_eq_true_iff]
    rintro rfl
    exact s.noNul hc
  rw [List.append_assoc, List.takeWhile_append_of_pos hchars]
  simp

/-- Bytes with a NUL are a string, its NUL and the rest. -/
theorem exists_eq_bytes_append {bs : List UInt8} (h : 0 ∈ bs) :
    ∃ tail, bs = (upToNul bs).bytes ++ tail := by
  have hsplit : bs.takeWhile (· ≠ 0) ++ bs.dropWhile (· ≠ 0) = bs := List.takeWhile_append_dropWhile
  cases hdrop : bs.dropWhile (· ≠ 0) with
  | nil =>
      -- Nothing was dropped, so every byte differs from the NUL.
      have hall := List.dropWhile_eq_nil_iff.mp hdrop 0 h
      simp at hall
  | cons b tail =>
      have hb : b = 0 := by
        have hhead := List.head?_dropWhile_not (· ≠ (0 : UInt8)) bs
        rw [hdrop] at hhead
        simpa using hhead
      subst hb
      refine ⟨tail, ?_⟩
      show bs = bs.takeWhile (· ≠ 0) ++ [0] ++ tail
      rw [List.append_assoc, List.singleton_append, ← hdrop]
      exact hsplit.symm

/-- There is a string at `p` exactly when its bytes are. -/
theorem readAt_eq_some_iff {mem : List UInt8} {p : Nat} {s : CString} :
    readAt mem p = some s ↔ ∃ tail, mem.drop p = s.bytes ++ tail := by
  unfold readAt
  constructor
  · intro h
    split at h
    · rename_i hnul
      cases h
      exact exists_eq_bytes_append hnul
    · cases h
  · rintro ⟨tail, htail⟩
    have hnul : (0 : UInt8) ∈ mem.drop p := by simp [htail, bytes]
    rw [if_pos hnul, htail, upToNul_bytes_append]

/-! ### Writing -/

/-- Stores `bs` at the offset `p`. -/
def writeAt (mem : List UInt8) (p : Nat) (bs : List UInt8) : Option (List UInt8) :=
  if p + bs.length ≤ mem.length then some (mem.take p ++ (bs ++ mem.drop (p + bs.length)))
  else none

/-- `strcpy (dst, s)`. -/
def strcpy (mem : List UInt8) (dst : Nat) (s : CString) : Option (List UInt8) :=
  writeAt mem dst s.bytes

/-- `memcpy (dst, src, n)`, where `src` is all that can be read. -/
def memcpy (mem : List UInt8) (dst : Nat) (src : List UInt8) (n : Nat) : Option (List UInt8) :=
  if n ≤ src.length then writeAt mem dst (src.take n) else none

/-- `strcat (dst, s)`. -/
def strcat (mem : List UInt8) (dst : Nat) (s : CString) : Option (List UInt8) :=
  (readAt mem dst).bind fun d => writeAt mem (dst + d.strlen) s.bytes

section Writes

variable {mem mem' : List UInt8} {p : Nat} {bs : List UInt8} {s d : CString}

/-- A store inside the memory. -/
theorem writeAt_of_le (h : p + bs.length ≤ mem.length) :
    writeAt mem p bs = some (mem.take p ++ (bs ++ mem.drop (p + bs.length))) :=
  if_pos h

/-- A store over as many bytes. -/
theorem writeAt_over (front old rest : List UInt8) (h : old.length = bs.length) :
    writeAt (front ++ (old ++ rest)) front.length bs = some (front ++ (bs ++ rest)) := by
  have hle : front.length + bs.length ≤ (front ++ (old ++ rest)).length := by
    simp only [List.length_append]
    omega
  rw [writeAt_of_le hle, List.take_left, ← List.drop_drop, List.drop_left, ← h, List.drop_left]

/-- A write that succeeds stays inside. -/
theorem le_of_writeAt (h : writeAt mem p bs = some mem') : p + bs.length ≤ mem.length := by
  unfold writeAt at h
  split at h
  · assumption
  · cases h

/-- A store does not change the size of the memory. -/
theorem length_of_writeAt (h : writeAt mem p bs = some mem') : mem'.length = mem.length := by
  have hle := le_of_writeAt h
  rw [writeAt_of_le hle] at h
  cases h
  simp only [List.length_append, List.length_take, List.length_drop]
  omega

/-- What a store leaves from an offset at or before it on. -/
theorem drop_of_writeAt (h : writeAt mem p bs = some mem') {q : Nat} (hq : q ≤ p) :
    mem'.drop q = (mem.take p).drop q ++ (bs ++ mem.drop (p + bs.length)) := by
  have hle := le_of_writeAt h
  rw [writeAt_of_le hle] at h
  cases h
  rw [List.drop_append_of_le_length]
  rw [List.length_take]
  omega

/-- A store and one right behind it are one store. -/
theorem writeAt_append (mem : List UInt8) (p : Nat) (as bs : List UInt8) :
    writeAt mem p (as ++ bs) =
      (writeAt mem p as).bind fun mem => writeAt mem (p + as.length) bs := by
  by_cases has : p + as.length ≤ mem.length
  · have hp : (mem.take p).length = p := List.length_take_of_le (by omega)
    have hpa : (mem.take p ++ as).length = p + as.length := by rw [List.length_append, hp]
    have hlen : (mem.take p ++ (as ++ mem.drop (p + as.length))).length = mem.length := by
      simp only [List.length_append, List.length_drop, hp]
      omega
    have hdrop : (mem.take p ++ as ++ mem.drop (p + as.length)).drop (p + as.length + bs.length) =
        mem.drop (p + as.length + bs.length) := by
      rw [← List.drop_drop, List.drop_left' hpa, List.drop_drop]
    rw [writeAt_of_le has, Option.bind_some, writeAt, writeAt, hlen, List.length_append,
      ← Nat.add_assoc, ← List.append_assoc (mem.take p) as, List.take_left' hpa, hdrop]
    simp only [List.append_assoc]
  · have hboth : ¬ p + (as ++ bs).length ≤ mem.length := by
      rw [List.length_append]
      omega
    rw [writeAt, if_neg hboth, writeAt, if_neg has, Option.bind_none]

/-- A copy inside both memories. -/
theorem memcpy_of_le {src : List UInt8} {n : Nat} (hsrc : n ≤ src.length)
    (hdst : p + n ≤ mem.length) :
    memcpy mem p src n = some (mem.take p ++ (src.take n ++ mem.drop (p + n))) := by
  have hlen : (src.take n).length = n := List.length_take_of_le hsrc
  rw [memcpy, if_pos hsrc, writeAt_of_le (by rwa [hlen]), hlen]

/-- The size stays. -/
theorem length_of_memcpy {src : List UInt8} {n : Nat} (h : memcpy mem p src n = some mem') :
    mem'.length = mem.length := by
  unfold memcpy at h
  split at h
  · exact length_of_writeAt h
  · cases h

/-- `strcpy` leaves the string it copies. -/
theorem readAt_of_strcpy (h : strcpy mem p s = some mem') : readAt mem' p = some s := by
  rw [readAt_eq_some_iff]
  refine ⟨mem.drop (p + s.bytes.length), ?_⟩
  rw [drop_of_writeAt h (Nat.le_refl p)]
  have hnil : (mem.take p).drop p = [] := by simp
  rw [hnil, List.nil_append]

/-- `strcat` leaves the string that was there and the string it appends. -/
theorem readAt_of_strcat (hd : readAt mem p = some d) (h : strcat mem p s = some mem') :
    readAt mem' p = some (d ++ s) := by
  rw [strcat, hd, Option.bind_some] at h
  obtain ⟨tail, htail⟩ := readAt_eq_some_iff.mp hd
  rw [readAt_eq_some_iff]
  refine ⟨mem.drop (p + d.strlen + s.bytes.length), ?_⟩
  rw [drop_of_writeAt h (Nat.le_add_right p d.strlen)]
  -- What stays of the old string is its characters: the store starts at its NUL.
  have hold : (mem.take (p + d.strlen)).drop p = d.chars := by
    rw [List.drop_take, Nat.add_sub_cancel_left, htail, bytes, List.append_assoc]
    exact List.take_left' rfl
  rw [hold]
  simp [bytes, List.append_assoc]

/-- `strcat` stays inside the memory when the joined string and its NUL do. -/
theorem strcat_eq_some (hd : readAt mem p = some d)
    (hroom : p + (d ++ s).bytes.length ≤ mem.length) :
    ∃ mem', strcat mem p s = some mem' ∧ readAt mem' p = some (d ++ s) ∧
      mem'.length = mem.length := by
  have hle : p + d.strlen + s.bytes.length ≤ mem.length := by
    simp only [length_bytes, strlen_append] at hroom ⊢
    omega
  have hcat : strcat mem p s = writeAt mem (p + d.strlen) s.bytes := by
    rw [strcat, hd, Option.bind_some]
  obtain ⟨mem', hmem'⟩ : ∃ mem', writeAt mem (p + d.strlen) s.bytes = some mem' :=
    ⟨_, writeAt_of_le hle⟩
  have hcat' : strcat mem p s = some mem' := hcat.trans hmem'
  exact ⟨mem', hcat', readAt_of_strcat hd hcat', length_of_writeAt hmem'⟩

/-- `strcat` leaves the memory when the joined string and its NUL do not fit. -/
theorem strcat_eq_none (hd : readAt mem p = some d)
    (hfull : mem.length < p + (d ++ s).bytes.length) : strcat mem p s = none := by
  have hgt : ¬ p + d.strlen + s.bytes.length ≤ mem.length := by
    simp only [length_bytes, strlen_append] at hfull ⊢
    omega
  rw [strcat, hd, Option.bind_some, writeAt, if_neg hgt]

/-- `strcpy` stays inside the memory when the string and its NUL do. -/
theorem strcpy_eq_some (hroom : p + s.bytes.length ≤ mem.length) :
    ∃ mem', strcpy mem p s = some mem' ∧ readAt mem' p = some s ∧ mem'.length = mem.length := by
  have hcpy : strcpy mem p s = some _ := writeAt_of_le hroom
  exact ⟨_, hcpy, readAt_of_strcpy hcpy, length_of_writeAt hcpy⟩

end Writes

end CString

end GlibcPorts.Lib
