import GlibcPorts.Proofs.Rtld.AuxiliaryVector
import GlibcPorts.Rtld.ShowAuxv

/-!
# `GlibcPorts.Proofs.Rtld.ShowAuxv`: which vectors can be printed, and what is lost

`showEntry_eq` says what the body of the loop does for an entry with a type in the table, and
`showEntry_eq_none_iff` when it leaves its memory: for every type from 24 on, since the form is
read first. `dlShowAuxv_iff` is both for the whole vector.

A line names its entry: the label up to the colon is different for each type, and digits name one
number (`toDigits_inj`). So the lines of two vectors agree exactly when the entries are the same in
print (`SameInPrint`): of a type that is in the table only the low 32 bits count, and of a path only
the text.
-/

set_option autoImplicit false

namespace GlibcPorts.Rtld

open Lib

/-! ### Digits -/

/-- Digits are different characters. -/
theorem digitChar_inj {m n : Nat} (hm : m < 16) (hn : n < 16)
    (h : Nat.digitChar m = Nat.digitChar n) : m = n := by
  have hall : ∀ m < 16, ∀ n < 16, Nat.digitChar m = Nat.digitChar n → m = n := by decide
  exact hall m hm n hn h

/-- Different numbers have different digits. -/
theorem toDigits_inj {base : Nat} (hone : 1 < base) (hle : base ≤ 16) {m n : Nat}
    (h : Nat.toDigits base m = Nat.toDigits base n) : m = n := by
  induction m using Nat.strongRecOn generalizing n with
  | ind m ih =>
      have hlength := congrArg List.length h
      rw [Nat.toDigits_eq_if hone, Nat.toDigits_eq_if (n := n) hone] at h hlength
      have hm := Nat.mod_lt m (by omega : 0 < base)
      have hn := Nat.mod_lt n (by omega : 0 < base)
      by_cases hmlt : m < base
      · by_cases hnlt : n < base
        · rw [if_pos hmlt, if_pos hnlt] at h
          exact digitChar_inj (by omega) (by omega) (List.singleton_inj.mp h)
        · rw [if_pos hmlt, if_neg hnlt, List.length_append] at hlength
          have hpos := Nat.length_toDigits_pos (b := base) (n := n / base)
          simp at hlength
      · by_cases hnlt : n < base
        · rw [if_neg hmlt, if_pos hnlt, List.length_append] at hlength
          have hpos := Nat.length_toDigits_pos (b := base) (n := m / base)
          simp at hlength
        · rw [if_neg hmlt, if_neg hnlt] at h
          obtain ⟨hinit, hlast⟩ := List.append_inj' h rfl
          have hdiv := ih (m / base) (Nat.div_lt_self (by omega) hone) hinit
          have hmod := digitChar_inj (by omega) (by omega) (List.singleton_inj.mp hlast)
          rw [← Nat.div_add_mod m base, ← Nat.div_add_mod n base, hdiv, hmod]

section Show

variable {abi : Abi} (strings : BitVec abi.longBits → Option (List Char))

/-- The type as the function sees it. -/
def Auxv.tag32 (av : Auxv abi) : Nat := (av.a_type.setWidth 32).toNat

/-- The low 32 bits of the type. -/
theorem tag32_eq (av : Auxv abi) : av.tag32 = av.a_type.toNat % 2 ^ 32 := BitVec.toNat_setWidth _ _

/-- The index into the table. -/
theorem index_eq (av : Auxv abi) (h : 2 ≤ av.tag32) :
    ((av.a_type - 2).setWidth 32).toNat = av.tag32 - 2 := by
  rw [tag32_eq] at *
  have hle : (2 : BitVec abi.longBits) ≤ av.a_type := by
    show (2 : BitVec abi.longBits).toNat ≤ av.a_type.toNat
    have htwo : (2 : BitVec abi.longBits).toNat = 2 := by cases abi <;> rfl
    omega
  have htwo : (2 : BitVec abi.longBits).toNat = 2 := by cases abi <;> rfl
  rw [BitVec.toNat_setWidth, BitVec.toNat_sub_of_le hle, htwo]
  omega

/-! ### One entry -/

/-- The digits of a machine word fit in the buffers. -/
theorem itoa_eq {base room : Nat} (hone : 1 < base) (hroom : 0 < room)
    (hfits : 2 ^ 64 ≤ base ^ room) (x : BitVec abi.longBits) :
    itoa x.toNat base room = some (Nat.toDigits base x.toNat) := by
  have hx := x.isLt
  have hbits : 2 ^ abi.longBits ≤ 2 ^ 64 := by cases abi <;> decide
  exact if_pos ((Nat.length_toDigits_le_iff hone hroom).mpr (by omega))

/-- The part of the table that is asked for a type. -/
def tableEntry (tag : Nat) : AuxVar := auxvars.getD (tag - 2) ⟨[], .unknown⟩

/-- What is printed for the value of an entry with a known type. -/
def valueText (av : Auxv abi) : Option (List Char) :=
  match (tableEntry av.tag32).form with
  | .dec => some (Nat.toDigits 10 av.a_val.toNat)
  | .hex => some (Nat.toDigits 16 av.a_val.toNat)
  | _ => strings av.a_val

/-- The line of an entry with a known type. -/
def knownLine (tag : Nat) (val : List Char) : List Char :=
  "AT_".toList ++ (tableEntry tag).label ++ val ++ "\n".toList

/-- The line of an entry with another type. -/
def genericLine (av : Auxv abi) : List Char :=
  "AT_??? (0x".toList ++ Nat.toDigits 16 av.a_type.toNat ++ "): 0x".toList
    ++ Nat.toDigits 16 av.a_val.toNat ++ "\n".toList

/-- The value that is printed. -/
theorem showValue_eq (av : Auxv abi) :
    showValue strings (tableEntry av.tag32).form av.a_val = valueText strings av := by
  unfold showValue valueText
  cases (tableEntry av.tag32).form with
  | dec => exact itoa_eq (by decide) (by decide) (by decide) av.a_val
  | hex => exact itoa_eq (by decide) (by decide) (by decide) av.a_val
  | unknown | str | ignore => rfl

/-- What the table says of a type. -/
theorem tableEntry_spec {tag : Nat} (h2 : 2 ≤ tag) (h24 : tag < 24) :
    auxvars[tag - 2]? = some (tableEntry tag) ∧ (tableEntry tag).form ≠ .ignore
      ∧ ((tableEntry tag).form = .unknown ↔ tag = 22)
      ∧ ((tableEntry tag).form = .str ↔ tag = AT_EXECPATH) := by
  have hall : ∀ i < 22, auxvars[i]? = some (tableEntry (i + 2))
      ∧ (tableEntry (i + 2)).form ≠ .ignore
      ∧ ((tableEntry (i + 2)).form = .unknown ↔ i + 2 = 22)
      ∧ ((tableEntry (i + 2)).form = .str ↔ i + 2 = AT_EXECPATH) := by decide
  have hi := hall (tag - 2) (by omega)
  rwa [Nat.sub_add_cancel h2] at hi

/-- The first two types are not printed. -/
theorem showEntry_of_lt {av : Auxv abi} (h : av.tag32 < 2) : showEntry strings av = some [] :=
  if_pos h

/-- The form of the entry is read outside of the table. -/
theorem showEntry_of_le {av : Auxv abi} (h : 24 ≤ av.tag32) : showEntry strings av = none := by
  have hnone : auxvars[av.tag32 - 2]? = none :=
    List.getElem?_eq_none (by show 22 ≤ _; omega)
  have h2 : ¬ (av.a_type.setWidth 32).toNat < 2 := by
    show ¬ av.tag32 < 2
    omega
  rw [showEntry, if_neg h2, index_eq av (by omega), hnone]

/-- In the table. -/
theorem showEntry_eq {av : Auxv abi} (h2 : 2 ≤ av.tag32) (h24 : av.tag32 < 24) :
    showEntry strings av =
      if av.tag32 = 22 then some [genericLine av]
      else (valueText strings av).map fun val => [knownLine av.tag32 val] := by
  obtain ⟨hentry, hignore, hunknown, -⟩ := tableEntry_spec h2 h24
  have hlt : ¬ (av.a_type.setWidth 32).toNat < 2 := by
    show ¬ av.tag32 < 2
    omega
  have hindex : av.tag32 - 2 < auxvars.length := by
    show _ < 22
    omega
  rw [showEntry, if_neg hlt, index_eq av h2, hentry]
  simp only [if_neg hignore]
  by_cases h22 : av.tag32 = 22
  · rw [if_neg (fun h => h.2 (hunknown.mpr h22)), if_pos h22,
      itoa_eq (by decide) (by decide) (by decide), itoa_eq (by decide) (by decide) (by decide)]
    rfl
  · rw [if_pos ⟨hindex, mt hunknown.mp h22⟩, if_neg h22, showValue_eq]
    cases valueText strings av <;> rfl

/-! ### The whole vector -/

/-- An entry that the function can print. -/
def Printable (av : Auxv abi) : Prop :=
  av.tag32 < 24 ∧ (av.tag32 = AT_EXECPATH → (strings av.a_val).isSome)

/-- A value can be printed unless it is that of a path without a string. -/
theorem isSome_valueText_iff {av : Auxv abi} (h2 : 2 ≤ av.tag32) (h24 : av.tag32 < 24)
    (h22 : av.tag32 ≠ 22) :
    (valueText strings av).isSome ↔ (av.tag32 = AT_EXECPATH → (strings av.a_val).isSome) := by
  obtain ⟨-, hignore, hunknown, hstr⟩ := tableEntry_spec h2 h24
  unfold valueText
  cases hform : (tableEntry av.tag32).form with
  | dec | hex =>
      have hne : av.tag32 ≠ AT_EXECPATH := fun h => by
        have := hstr.mpr h
        rw [hform] at this
        cases this
      simp [hne]
  | str => simp [hstr.mp hform]
  | unknown => exact absurd (hunknown.mp hform) h22
  | ignore => exact absurd hform hignore

/-- So can an entry. -/
theorem isSome_showEntry_iff (av : Auxv abi) :
    (showEntry strings av).isSome ↔ Printable strings av := by
  unfold Printable
  by_cases h2 : 2 ≤ av.tag32
  · by_cases h24 : av.tag32 < 24
    · rw [showEntry_eq strings h2 h24]
      by_cases h22 : av.tag32 = 22
      · have hne : av.tag32 ≠ AT_EXECPATH := by
          rw [h22]
          decide
        rw [if_pos h22]
        exact ⟨fun _ => ⟨h24, fun h => absurd h hne⟩, fun _ => rfl⟩
      · rw [if_neg h22, Option.isSome_map, isSome_valueText_iff strings h2 h24 h22]
        exact ⟨fun h => ⟨h24, h⟩, fun h => h.2⟩
    · rw [showEntry_of_le strings (by omega)]
      exact ⟨fun h => (nomatch h), fun h => absurd h.1 h24⟩
  · have hne : av.tag32 ≠ AT_EXECPATH := by
      show av.tag32 ≠ 15
      omega
    rw [showEntry_of_lt strings (by omega)]
    exact ⟨fun _ => ⟨by omega, fun h => absurd h hne⟩, fun _ => rfl⟩

/-- The entries in front of the end of the vector. -/
def shownEntries : List (Auxv abi) → List (Auxv abi)
  | [] => []
  | av :: auxv => if av.is AT_NULL then [] else av :: shownEntries auxv

/-- The vector is printed if it has an end and its entries are printable up to there. -/
theorem isSome_dlShowAuxv_iff (auxv : List (Auxv abi)) :
    (dlShowAuxv strings auxv).isSome ↔
      (∃ av ∈ auxv, av.is AT_NULL) ∧ ∀ av ∈ shownEntries auxv, Printable strings av := by
  induction auxv with
  | nil => simp [dlShowAuxv]
  | cons av auxv ih =>
      rw [dlShowAuxv, shownEntries]
      by_cases hnull : av.is AT_NULL
      · simp [hnull]
      · rw [if_neg hnull, if_neg hnull, List.forall_mem_cons, ← isSome_showEntry_iff strings av]
        have hend : (∃ x ∈ av :: auxv, x.is AT_NULL) ↔ ∃ x ∈ auxv, x.is AT_NULL := by
          simp [hnull]
        rw [hend, and_left_comm, ← ih]
        cases showEntry strings av with
        | none => simp
        | some line => cases dlShowAuxv strings auxv <;> simp

/-! ### What the lines say -/

/-- The entries that get a line. -/
def visibleEntries (auxv : List (Auxv abi)) : List (Auxv abi) :=
  (shownEntries auxv).filter (2 ≤ Auxv.tag32 ·)

/-- The line of an entry. -/
def IsLine (av : Auxv abi) (line : List Char) : Prop :=
  if av.tag32 = 22 then line = genericLine av
  else ∃ val, valueText strings av = some val ∧ line = knownLine av.tag32 val

/-- There is one line for each entry, in order. -/
theorem lines_of_dlShowAuxv {auxv : List (Auxv abi)} {lines : List (List Char)}
    (h : dlShowAuxv strings auxv = some lines) :
    List.Forall₂ (fun av line => (2 ≤ av.tag32 ∧ av.tag32 < 24) ∧ IsLine strings av line)
      (visibleEntries auxv) lines := by
  induction auxv generalizing lines with
  | nil => cases h
  | cons av auxv ih =>
      rw [dlShowAuxv] at h
      by_cases hnull : av.is AT_NULL
      · rw [if_pos hnull] at h
        cases h
        rw [visibleEntries, shownEntries, if_pos hnull]
        exact .nil
      · rw [if_neg hnull] at h
        obtain ⟨line, hline, hrest⟩ := Option.bind_eq_some_iff.mp h
        obtain ⟨rest, hlines, heq⟩ := Option.bind_eq_some_iff.mp hrest
        cases heq
        have htail := ih hlines
        have hprintable := (isSome_showEntry_iff strings av).mp (by rw [hline]; rfl)
        rw [visibleEntries, shownEntries, if_neg hnull]
        by_cases h2 : 2 ≤ av.tag32
        · rw [List.filter_cons_of_pos (by simpa using h2)]
          rw [showEntry_eq strings h2 hprintable.1] at hline
          by_cases h22 : av.tag32 = 22
          · rw [if_pos h22] at hline
            cases hline
            exact .cons ⟨⟨h2, hprintable.1⟩, by rw [IsLine, if_pos h22]⟩ htail
          · rw [if_neg h22] at hline
            obtain ⟨val, hval, hmap⟩ := Option.map_eq_some_iff.mp hline
            cases hmap
            exact .cons ⟨⟨h2, hprintable.1⟩, by rw [IsLine, if_neg h22]; exact ⟨val, hval, rfl⟩⟩
              htail
        · rw [List.filter_cons_of_neg (by simpa using h2)]
          rw [showEntry_of_lt strings (by omega)] at hline
          cases hline
          exact htail

/-- The name in front of the colon. -/
def lineName (tag : Nat) : List Char :=
  ("AT_".toList ++ (tableEntry tag).label).takeWhile (· ≠ ':')

/-- The name of the line of a type that is known. -/
theorem takeWhile_knownLine {tag : Nat} (h2 : 2 ≤ tag) (h24 : tag < 24) (h22 : tag ≠ 22)
    (val : List Char) : (knownLine tag val).takeWhile (· ≠ ':') = lineName tag := by
  have hcolon : ∀ i < 22, i ≠ 20 →
      (lineName (i + 2)).length ≠ ("AT_".toList ++ (tableEntry (i + 2)).label).length := by decide
  have hi := hcolon (tag - 2) (by omega) (by omega)
  rw [Nat.sub_add_cancel h2] at hi
  rw [knownLine, List.append_assoc, List.takeWhile_append]
  exact if_neg hi

/-- Different types have different names. -/
theorem lineName_inj {tag tag' : Nat} (h : 2 ≤ tag ∧ tag < 24) (h' : 2 ≤ tag' ∧ tag' < 24)
    (heq : lineName tag = lineName tag') : tag = tag' := by
  have hall : ∀ i < 22, ∀ j < 22, lineName (i + 2) = lineName (j + 2) → i = j := by decide
  have hi := hall (tag - 2) (by omega) (tag' - 2) (by omega)
  rw [Nat.sub_add_cancel h.1, Nat.sub_add_cancel h'.1] at hi
  have := hi heq
  omega

/-- A line of a known type does not look like the line of another type. -/
theorem knownLine_ne_generic {tag : Nat} (h2 : 2 ≤ tag) (h24 : tag < 24) (h22 : tag ≠ 22)
    (val : List Char) (av : Auxv abi) : knownLine tag val ≠ genericLine av := by
  have hchar : ∀ i < 22, i ≠ 20 →
      ("AT_".toList ++ (tableEntry (i + 2)).label)[3]?.any (· ≠ '?') := by decide
  have hi := hchar (tag - 2) (by omega) (by omega)
  rw [Nat.sub_add_cancel h2] at hi
  intro heq
  have hthird := congrArg (fun text : List Char => text[3]?.any (· ≠ '?')) heq
  have hlt : 3 < ("AT_".toList ++ (tableEntry tag).label).length := by
    by_contra hge
    rw [List.getElem?_eq_none (Nat.le_of_not_lt hge)] at hi
    cases hi
  have hknown : (knownLine tag val)[3]? = ("AT_".toList ++ (tableEntry tag).label)[3]? := by
    rw [knownLine, List.append_assoc, List.getElem?_append_left hlt]
  simp only [hknown, hi] at hthird
  cases hthird

/-- Different values of a type are printed differently. -/
theorem valueText_inj {av av' : Auxv abi} (h2 : 2 ≤ av.tag32) (h24 : av.tag32 < 24)
    (h22 : av.tag32 ≠ 22) (htag : av.tag32 = av'.tag32)
    (h : valueText strings av = valueText strings av') :
    if av.tag32 = AT_EXECPATH then strings av.a_val = strings av'.a_val
    else av.a_val = av'.a_val := by
  obtain ⟨-, hignore, hunknown, hstr⟩ := tableEntry_spec h2 h24
  unfold valueText at h
  rw [← htag] at h
  cases hform : (tableEntry av.tag32).form with
  | dec =>
      have hne : av.tag32 ≠ AT_EXECPATH := fun heq => by
        rw [hstr.mpr heq] at hform
        cases hform
      rw [hform] at h
      rw [if_neg hne]
      exact BitVec.eq_of_toNat_eq (toDigits_inj (by decide) (by decide) (Option.some.inj h))
  | hex =>
      have hne : av.tag32 ≠ AT_EXECPATH := fun heq => by
        rw [hstr.mpr heq] at hform
        cases hform
      rw [hform] at h
      rw [if_neg hne]
      exact BitVec.eq_of_toNat_eq (toDigits_inj (by decide) (by decide) (Option.some.inj h))
  | str =>
      rw [hform] at h
      rw [if_pos (hstr.mp hform)]
      exact h
  | unknown => exact absurd (hunknown.mp hform) h22
  | ignore => exact absurd hform hignore

/-- No digit closes the bracket. -/
theorem bracket_not_mem_toDigits (n : Nat) : ')' ∉ Nat.toDigits 16 n := by
  have hdigit : ∀ d < 16, ')' ≠ Nat.digitChar d := by decide
  induction n using Nat.strongRecOn with
  | ind n ih =>
      rw [Nat.toDigits_eq_if (by decide)]
      split
      · rw [List.mem_singleton]
        exact hdigit n (by omega)
      · rw [List.mem_append, List.mem_singleton]
        rintro (hmem | heq)
        · exact ih (n / 16) (by omega) hmem
        · exact hdigit (n % 16) (by omega) heq

/-- The line of an unknown type has all of the type and of the value. -/
theorem genericLine_inj {av av' : Auxv abi} (h : genericLine av = genericLine av') :
    av.a_type = av'.a_type ∧ av.a_val = av'.a_val := by
  unfold genericLine at h
  simp only [List.append_assoc] at h
  have hrest := List.append_cancel_left h
  have hdigits : ∀ n, ∀ c ∈ Nat.toDigits 16 n, decide (c ≠ ')') = true := fun n c hc =>
    decide_eq_true fun heq => bracket_not_mem_toDigits n (heq ▸ hc)
  have hbracket : ∀ (n : Nat) (rest : List Char),
      (Nat.toDigits 16 n ++ ("): 0x".toList ++ rest)).takeWhile (· ≠ ')') = Nat.toDigits 16 n
        ∧ (Nat.toDigits 16 n ++ ("): 0x".toList ++ rest)).dropWhile (· ≠ ')')
          = "): 0x".toList ++ rest := by
    intro n rest
    rw [List.takeWhile_append_of_pos (hdigits n), List.dropWhile_append_of_pos (hdigits n)]
    exact ⟨List.append_nil _, rfl⟩
  have htake := congrArg (List.takeWhile (· ≠ ')')) hrest
  have hdrop := congrArg (List.dropWhile (· ≠ ')')) hrest
  rw [(hbracket _ _).1, (hbracket _ _).1] at htake
  rw [(hbracket _ _).2, (hbracket _ _).2] at hdrop
  have hval := List.append_cancel_right (List.append_cancel_left hdrop)
  exact ⟨BitVec.eq_of_toNat_eq (toDigits_inj (by decide) (by decide) htake),
    BitVec.eq_of_toNat_eq (toDigits_inj (by decide) (by decide) hval)⟩

/-- Two entries look the same in print: of a type in the table, the low 32 bits and the value, or
the text of a path. Of type 22 everything. -/
def SameInPrint (av av' : Auxv abi) : Prop :=
  av.tag32 = av'.tag32
    ∧ if av.tag32 = 22 then av.a_type = av'.a_type ∧ av.a_val = av'.a_val
      else if av.tag32 = AT_EXECPATH then strings av.a_val = strings av'.a_val
      else av.a_val = av'.a_val

/-- Entries with one line are the same in print. -/
theorem sameInPrint_of_line {av av' : Auxv abi} {line : List Char}
    (h : 2 ≤ av.tag32 ∧ av.tag32 < 24) (h' : 2 ≤ av'.tag32 ∧ av'.tag32 < 24)
    (hline : IsLine strings av line) (hline' : IsLine strings av' line) :
    SameInPrint strings av av' := by
  unfold IsLine at hline hline'
  -- The unknown type has a line of its own form, which no known one has.
  by_cases h22 : av.tag32 = 22
  · rw [if_pos h22] at hline
    by_cases h22' : av'.tag32 = 22
    · rw [if_pos h22'] at hline'
      refine ⟨h22.trans h22'.symm, ?_⟩
      rw [if_pos h22]
      exact genericLine_inj (hline.symm.trans hline')
    · rw [if_neg h22'] at hline'
      obtain ⟨val, -, hknown⟩ := hline'
      exact absurd (hknown.symm.trans hline) (knownLine_ne_generic h'.1 h'.2 h22' val av)
  · rw [if_neg h22] at hline
    obtain ⟨val, hval, hknown⟩ := hline
    by_cases h22' : av'.tag32 = 22
    · rw [if_pos h22'] at hline'
      exact absurd (hknown.symm.trans hline') (knownLine_ne_generic h.1 h.2 h22 val av')
    · rw [if_neg h22'] at hline'
      obtain ⟨val', hval', hknown'⟩ := hline'
      -- The name up to the colon gives the type, and the rest the value.
      have hsame := hknown.symm.trans hknown'
      have hname := congrArg (List.takeWhile (· ≠ ':')) hsame
      rw [takeWhile_knownLine h.1 h.2 h22, takeWhile_knownLine h'.1 h'.2 h22'] at hname
      have htag := lineName_inj h h' hname
      rw [← htag] at hsame
      have hvals := List.append_cancel_left (List.append_cancel_right hsame)
      refine ⟨htag, ?_⟩
      rw [if_neg h22]
      exact valueText_inj strings h.1 h.2 h22 htag (by rw [hval, hval', hvals])

/-- The same in print means the same line. -/
theorem line_of_sameInPrint {av av' : Auxv abi} {line line' : List Char}
    (h : 2 ≤ av.tag32 ∧ av.tag32 < 24) (hsame : SameInPrint strings av av')
    (hline : IsLine strings av line) (hline' : IsLine strings av' line') : line = line' := by
  obtain ⟨htag, hval⟩ := hsame
  unfold IsLine at hline hline'
  rw [← htag] at hline'
  by_cases h22 : av.tag32 = 22
  · rw [if_pos h22] at hline hline' hval
    obtain ⟨htype, hvalue⟩ := hval
    have hgeneric : genericLine av = genericLine av' := by
      unfold genericLine
      rw [htype, hvalue]
    exact hline.trans (hgeneric.trans hline'.symm)
  · rw [if_neg h22] at hline hline' hval
    obtain ⟨val, hvalue, rfl⟩ := hline
    obtain ⟨val', hvalue', rfl⟩ := hline'
    -- The table has one form for the type, so the values are printed alike.
    have htext : valueText strings av = valueText strings av' := by
      obtain ⟨-, hignore, hunknown, hstr⟩ := tableEntry_spec h.1 h.2
      unfold valueText
      rw [← htag]
      by_cases hpath : av.tag32 = AT_EXECPATH
      · rw [if_pos hpath] at hval
        rw [hstr.mpr hpath]
        exact hval
      · rw [if_neg hpath] at hval
        rw [hval]
    rw [htext] at hvalue
    cases hvalue.symm.trans hvalue'
    rfl

/-- `_dl_show_auxv` stays in its memory exactly for a vector with an end whose entries up to there
have types below 24 and readable paths. Two vectors that it prints have the same lines exactly when
the entries that it shows look the same in print, one by one and in order. -/
theorem dlShowAuxv_spec :
    (∀ auxv : List (Auxv abi), (dlShowAuxv strings auxv).isSome ↔
      (∃ av ∈ auxv, av.is AT_NULL) ∧ ∀ av ∈ shownEntries auxv, Printable strings av)
    ∧ ∀ (xs ys : List (Auxv abi)) (xlines ylines : List (List Char)),
      dlShowAuxv strings xs = some xlines → dlShowAuxv strings ys = some ylines →
      (xlines = ylines ↔
        List.Forall₂ (SameInPrint strings) (visibleEntries xs) (visibleEntries ys)) := by
  refine ⟨isSome_dlShowAuxv_iff strings, fun xs ys xlines ylines hxs hys => ?_⟩
  have hxlines := lines_of_dlShowAuxv strings hxs
  have hylines := lines_of_dlShowAuxv strings hys
  generalize visibleEntries xs = avs at hxlines ⊢
  generalize visibleEntries ys = avs' at hylines ⊢
  clear hxs hys
  constructor
  · -- Both lists of entries go along the one list of lines.
    rintro rfl
    induction hxlines generalizing avs' with
    | nil =>
        cases hylines
        exact .nil
    | cons hline _ ih =>
        cases hylines with
        | cons hline' hrest' =>
            exact .cons (sameInPrint_of_line strings hline.1 hline'.1 hline.2 hline'.2)
              (ih _ hrest')
  · intro hsame
    induction hsame generalizing xlines ylines with
    | nil =>
        cases hxlines
        cases hylines
        rfl
    | cons hentry _ ih =>
        cases hxlines with
        | cons hline hrest =>
            cases hylines with
            | cons hline' hrest' =>
                rw [line_of_sameInPrint strings hline.1 hentry hline.2 hline'.2,
                  ih _ _ hrest hrest']

end Show

end GlibcPorts.Rtld
