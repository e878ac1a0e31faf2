import GlibcPorts.Proofs.UtmpCompat.Decoding

/-!
# `GlibcPorts.Proofs.UtmpCompat.Injectivity`: when the mapping from `struct utmp` is injective

The comment at the head of `utmpconv.c` says that the mapping from `struct utmp` to `struct utmpx`
is injective. `utmpToUtmpx_injective_iff` says of which records this is true.

Four things get lost. Of an empty record the function keeps nothing, and such records differ in
their time and in the bytes behind the NULs. The process id is not looked for behind a host of 14
bytes, although there is room for a digit. Of a line that does not start with `tty` only four bytes
are kept, as the id. And of a time of 64 bits only the lower half is kept.

`Merge` is what two records look like that differ in nothing else. `Lossy` are the records that
merge with another one; on a 64-bit machine these are all, because of the time.
-/

set_option autoImplicit false

namespace GlibcPorts.UtmpCompat

open Lib

/-- Two records hold the same strings, the same hidden process id and the same time. -/
structure Agree (abi : Abi) (u v : Utmp) : Prop where
  line : u.utLine.str = v.utLine.str
  name : u.utName.str = v.utName.str
  host : u.utHost.str = v.utHost.str
  pid : hiddenPid abi u = hiddenPid abi v
  time : u.utTime = v.utTime

/-- The lines of two records lead to the same line and id. -/
def SameKeptLine (u v : Utmp) : Prop :=
  u.utLine.str = v.utLine.str ∨
    (¬ IsSpecialLine u.utLine.str ∧ ¬ IsSpecialLine v.utLine.str ∧ ¬ IsTty u.utLine.str ∧
      ¬ IsTty v.utLine.str ∧
      u.utLine.str.chars.take UTX_IDSIZE = v.utLine.str.chars.take UTX_IDSIZE)

/-- Two records that are not empty are the same in what `__utmp_to_utmpx` keeps: the name, the host,
the line as far as it is kept, the process id but for the digit behind a host of 14 bytes, and the
lower half of the time. -/
structure SameKept (abi : Abi) (u v : Utmp) : Prop where
  name : u.utName.str = v.utName.str
  host : u.utHost.str = v.utHost.str
  line : SameKeptLine u v
  pid : u.utHost.str.strlen = UT_HOSTSIZE - 2 ∨ hiddenPid abi u = hiddenPid abi v
  time : Int32.ofInt u.utTime = Int32.ofInt v.utTime

/-- Two records that differ only in what `__utmp_to_utmpx` does not keep. -/
inductive Merge (abi : Abi) (u v : Utmp) : Prop
  | empty (hu : isEmpty u = true) (hv : isEmpty v = true)
      (hne : hiddenPid abi u ≠ hiddenPid abi v ∨ u.utTime ≠ v.utTime)
  | kept (hu : isEmpty u = false) (hv : isEmpty v = false) (hsame : SameKept abi u v)
      (hne : u.utLine.str ≠ v.utLine.str ∨ hiddenPid abi u ≠ hiddenPid abi v ∨
        u.utTime ≠ v.utTime)

/-- The records of which `__utmp_to_utmpx` does not keep everything. -/
inductive Lossy (abi : Abi) (u : Utmp) : Prop
  | empty (h : isEmpty u = true)
  | host (h : u.utHost.str.strlen = UT_HOSTSIZE - 2)
  | line (htty : ¬ IsTty u.utLine.str) (hlen : UTX_IDSIZE ≤ u.utLine.str.strlen)
  | time (h : abi = .lp64)

section

variable {abi : Abi} {u v : Utmp} {x y : Utmpx}

/-- A host that fills its array but for one byte has no room behind its NUL. -/
theorem hiddenPid_of_full (h : UT_HOSTSIZE - 1 ≤ u.utHost.str.strlen) : hiddenPid abi u = 0 := by
  have hdrop : u.utHost.bytes.drop (u.utHost.str.strlen + 1) = [] := by
    apply List.drop_eq_nil_of_le
    rw [u.utHost.length_bytes]
    omega
  rw [hiddenPid, hdrop, parsePid, strtoul_of_nil _ rfl]
  rfl

/-- The hidden process id is recovered unless it stands behind a host of 14 bytes. -/
theorem Reads.utPid_eq (h : Reads abi u x) (hhost : u.utHost.str.strlen ≠ UT_HOSTSIZE - 2) :
    x.utPid = hiddenPid abi u := by
  rw [h.pid]
  split_ifs with hroom
  · rfl
  · exact (hiddenPid_of_full (by omega)).symm

theorem processType_congr (h : u.utName.str = v.utName.str) : processType u = processType v := by
  have hname : ∀ name : String, nameIs u name = nameIs v name := by
    intro name
    simp only [nameIs, CString.strncmpEq, ByteField.cut_bytes, h]
  simp only [processType, hname]

/-- The id tells apart the lines of fewer bytes that do not start with `tty`. -/
theorem line_eq_of_id {s t : CString} (hlen : s.strlen < UTX_IDSIZE)
    (h : s.chars.take UTX_IDSIZE = t.chars.take UTX_IDSIZE) : s = t := by
  have hs : s.chars.take UTX_IDSIZE = s.chars := List.take_of_length_le hlen.le
  have ht : t.chars.length < UTX_IDSIZE := by
    have hlength := congrArg List.length h
    rw [hs, List.length_take] at hlength
    unfold CString.strlen at hlen
    omega
  ext1
  rw [← hs, h, List.take_of_length_le ht.le]

/-- Processes whose records have the same line and id have the same line as far as it is kept. -/
theorem ReadsProcess.sameKeptLine (hx : ReadsProcess u x) (hy : ReadsProcess v y)
    (hline : x.utLine.str = y.utLine.str) (hid : x.utId.str = y.utId.str) : SameKeptLine u v := by
  have hnil : ∀ s : CString, IsTty s → s ≠ lit "" := by
    rintro s htty rfl
    exact absurd htty (by decide)
  have hids := congrArg CString.chars hid
  rw [hx.line, hy.line] at hline
  rw [hx.id, hy.id] at hids
  by_cases hu : IsTty u.utLine.str <;> by_cases hv : IsTty v.utLine.str
  · rw [if_pos hu, if_pos hv] at hline
    exact .inl hline
  · rw [if_pos hu, if_neg hv] at hline
    exact absurd hline (hnil _ hu)
  · rw [if_neg hu, if_pos hv] at hline
    exact absurd hline.symm (hnil _ hv)
  · rw [if_neg hu, if_neg hv] at hids
    exact .inr ⟨hx.notSpecial, hy.notSpecial, hu, hv, hids⟩

theorem ReadsSpecial.isSpecialLine (h : ReadsSpecial u x) : IsSpecialLine u.utLine.str :=
  isSpecialLine_of_specialStrings h.strings

/-- Records of the same type, line, id and user come from the same name and the same kept line. -/
theorem Reads.name_eq_and_line (hx : Reads abi u x) (hy : Reads abi v y)
    (htype : x.utType = y.utType) (hline : x.utLine.str = y.utLine.str)
    (hid : x.utId.str = y.utId.str) (huser : x.utUser.str = y.utUser.str) :
    u.utName.str = v.utName.str ∧ SameKeptLine u v := by
  obtain hsx | hpx := hx.kind <;> obtain hsy | hpy := hy.kind
  · have hstrings := hsx.strings.symm.trans ((congrArg specialStrings htype).trans hsy.strings)
    rw [Option.some.injEq, Prod.mk.injEq] at hstrings
    exact ⟨hstrings.2, .inl hstrings.1⟩
  · have hstrings := hsx.strings
    rw [htype, hpy.type, specialStrings_processType] at hstrings
    cases hstrings
  · have hstrings := hsy.strings
    rw [← htype, hpx.type, specialStrings_processType] at hstrings
    cases hstrings
  · exact ⟨by rw [hpx.name, hpy.name, htype, huser], hpx.sameKeptLine hpy hline hid⟩

/-- Records with the same name and the same kept line have the same type, line, id and user. -/
theorem Reads.kind_eq (hx : Reads abi u x) (hy : Reads abi v y)
    (hname : u.utName.str = v.utName.str) (hline : SameKeptLine u v) :
    x.utType = y.utType ∧ x.utLine.str = y.utLine.str ∧ x.utId.str = y.utId.str ∧
      x.utUser.str = y.utUser.str := by
  -- Events and processes: an event on one side has a special line, which no process has.
  obtain hsx | hpx := hx.kind <;> obtain hsy | hpy := hy.kind
  · rcases hline with hline | ⟨hspecial, -⟩
    · have hstrings : some (u.utLine.str, u.utName.str) = some (v.utLine.str, v.utName.str) := by
        rw [hline, hname]
      refine ⟨specialStrings_inj (hsx.strings.trans hstrings) hsy.strings, ?_, ?_, ?_⟩
      · rw [hsx.line, hsy.line]
      · rw [hsx.id, hsy.id]
      · rw [hsx.user, hsy.user]
    · exact absurd hsx.isSpecialLine hspecial
  · rcases hline with hline | ⟨hspecial, -⟩
    · exact absurd (hline ▸ hsx.isSpecialLine) hpy.notSpecial
    · exact absurd hsx.isSpecialLine hspecial
  · rcases hline with hline | ⟨-, hspecial, -⟩
    · exact absurd (hline ▸ hsy.isSpecialLine) hpx.notSpecial
    · exact absurd hsy.isSpecialLine hspecial
  · have htype : x.utType = y.utType := by
      rw [hpx.type, hpy.type, processType_congr hname]
    have huser : x.utUser.str = y.utUser.str := by rw [hpx.user, hpy.user, htype, hname]
    refine ⟨htype, ?_, ?_, huser⟩
    · rw [hpx.line, hpy.line]
      rcases hline with hline | ⟨-, -, hu, hv, -⟩
      · rw [hline]
      · rw [if_neg hu, if_neg hv]
    · ext1
      rw [hpx.id, hpy.id]
      rcases hline with hline | ⟨-, -, hu, hv, htake⟩
      · rw [hline]
      · rw [if_neg hu, if_neg hv]
        exact htake

/-- The process ids that are recovered are equal exactly if the hidden ones are, unless both stand
behind a host of 14 bytes. -/
theorem Reads.utPid_eq_iff (hx : Reads abi u x) (hy : Reads abi v y)
    (hhost : u.utHost.str = v.utHost.str) :
    x.utPid = y.utPid ↔
      u.utHost.str.strlen = UT_HOSTSIZE - 2 ∨ hiddenPid abi u = hiddenPid abi v := by
  by_cases hfull : u.utHost.str.strlen = UT_HOSTSIZE - 2
  · -- Neither process id is recovered.
    rw [hx.pid, hy.pid, ← hhost, hfull]
    exact iff_of_true rfl (.inl rfl)
  · rw [hx.utPid_eq hfull, hy.utPid_eq (hhost ▸ hfull)]
    exact (or_iff_right hfull).symm

/-- Two records that are not empty are mapped to equal ones exactly if they are the same in what is
kept. -/
theorem Reads.utmpxEqual_iff (hx : Reads abi u x) (hy : Reads abi v y) :
    utmpxEqual x y = true ↔ SameKept abi u v := by
  rw [UtmpCompat.utmpxEqual_iff]
  constructor
  · rintro ⟨htype, hpid, hline, hid, huser, hhost, -, -, -, htime, -, -⟩
    obtain ⟨hname, hkept⟩ := hx.name_eq_and_line hy htype hline hid huser
    have hhosts : u.utHost.str = v.utHost.str := hx.host.symm.trans (hhost.trans hy.host)
    exact ⟨hname, hhosts, hkept, (hx.utPid_eq_iff hy hhosts).mp hpid,
      hx.time.symm.trans (htime.trans hy.time)⟩
  · intro hsame
    obtain ⟨htype, hlines, hid, huser⟩ := hx.kind_eq hy hsame.name hsame.line
    obtain ⟨hxterm, hxexit, hxsession, hxusec, hxaddr⟩ := hx.rest
    obtain ⟨hyterm, hyexit, hysession, hyusec, hyaddr⟩ := hy.rest
    refine ⟨htype, (hx.utPid_eq_iff hy hsame.host).mpr hsame.pid, hlines, hid, huser, ?_, ?_, ?_,
      ?_, ?_, ?_, ?_⟩
    · rw [hx.host, hy.host, hsame.host]
    · rw [hxterm, hyterm]
    · rw [hxexit, hyexit]
    · rw [hxsession, hysession]
    · rw [hx.time, hy.time, hsame.time]
    · rw [hxusec, hyusec]
    · rw [hxaddr, hyaddr]

/-- An empty record becomes the record of zeros. -/
theorem utmpToUtmpx_of_isEmpty (h : isEmpty u = true) : utmpToUtmpx abi u = some .zero := by
  rw [utmpToUtmpx, if_pos h]
  rfl

/-- Two records that `__utmp_to_utmpx` takes are mapped to equal ones and do not agree exactly if
they merge. -/
theorem merge_iff (hu : utmpToUtmpx abi u = some x) (hv : utmpToUtmpx abi v = some y) :
    (utmpxEqual x y = true → Agree abi u v) ↔ ¬ Merge abi u v := by
  obtain ⟨hempty, rfl⟩ | ⟨hnot, hx⟩ := utmpToUtmpx_cases hu
  all_goals obtain ⟨hempty', rfl⟩ | ⟨hnot', hy⟩ := utmpToUtmpx_cases hv
  · obtain ⟨hline, hname, hhost⟩ := isEmpty_iff.mp hempty
    obtain ⟨hline', hname', hhost'⟩ := isEmpty_iff.mp hempty'
    have hequal : utmpxEqual .zero .zero = true := by decide
    constructor
    · intro hagree hmerge
      have hagrees := hagree hequal
      cases hmerge with
      | empty _ _ hne => exact hne.elim (absurd hagrees.pid) (absurd hagrees.time)
      | kept hu => exact absurd (hempty.symm.trans hu) (by decide)
    · intro hmerge _
      -- Two empty records differ in the pid or the time, or not at all.
      have hnil : ∀ {s t : CString}, s.strlen = 0 → t.strlen = 0 → s = t := by
        intro s t hs ht
        ext1
        rw [List.length_eq_zero_iff.mp hs, List.length_eq_zero_iff.mp ht]
      have hsame := not_or.mp fun hne => hmerge (.empty hempty hempty' hne)
      exact ⟨hnil hline hline', hnil hname hname', hnil hhost hhost', not_not.mp hsame.1,
        not_not.mp hsame.2⟩
  · refine iff_of_true (fun hequal => ?_) fun hmerge => ?_
    · exact absurd (UtmpCompat.utmpxEqual_iff.mp hequal).1.symm hy.utType_ne
    · cases hmerge with
      | empty _ hv => exact absurd (hnot'.symm.trans hv) (by decide)
      | kept hu => exact absurd (hempty.symm.trans hu) (by decide)
  · refine iff_of_true (fun hequal => ?_) fun hmerge => ?_
    · exact absurd (UtmpCompat.utmpxEqual_iff.mp hequal).1 hx.utType_ne
    · cases hmerge with
      | empty hu => exact absurd (hnot.symm.trans hu) (by decide)
      | kept _ hv => exact absurd (hempty'.symm.trans hv) (by decide)
  · -- Neither is empty: what is kept is equal, and the question is what is not kept.
    rw [hx.utmpxEqual_iff hy]
    constructor
    · intro hagree hmerge
      cases hmerge with
      | empty hu => exact absurd (hnot.symm.trans hu) (by decide)
      | kept _ _ hsame hne =>
          have hagrees := hagree hsame
          rcases hne with hline | hpid | htime
          · exact hline hagrees.line
          · exact hpid hagrees.pid
          · exact htime hagrees.time
    · intro hmerge hsame
      have hall := not_or.mp fun hne => hmerge (.kept hnot hnot' hsame hne)
      have hrest := not_or.mp hall.2
      exact ⟨not_not.mp hall.1, hsame.name, hsame.host, not_not.mp hrest.1, not_not.mp hrest.2⟩

/-- On a 32-bit machine the time is kept whole. -/
theorem time_eq_of_ilp32 (hu : Abi.ilp32.IsLong u.utTime) (hv : Abi.ilp32.IsLong v.utTime)
    (h : Int32.ofInt u.utTime = Int32.ofInt v.utTime) : u.utTime = v.utTime := by
  have hkept : ∀ {t : Int}, Abi.ilp32.IsLong t → (Int32.ofInt t).toInt = t := by
    intro t ht
    have hlow : -2147483648 ≤ t := ht.1
    have hhigh : t < 2147483648 := ht.2
    rw [Int32.toInt_ofInt]
    exact Int.bmod_eq_of_le_mul_two (by simp; omega) (by simp; omega)
  rw [← hkept hu, h, hkept hv]

/-- A record that is kept whole merges with no other. -/
theorem Merge.lossy (hu : abi.IsLong u.utTime) (hv : abi.IsLong v.utTime) (h : Merge abi u v) :
    Lossy abi u := by
  cases h with
  | empty hempty => exact .empty hempty
  | kept _ _ hsame hne =>
      rcases hne with hline | hpid | htime
      · obtain ⟨-, -, htty, -, htake⟩ := hsame.line.resolve_left hline
        exact .line htty (le_of_not_gt fun hlt => hline (line_eq_of_id hlt htake))
      · exact .host (hsame.pid.resolve_right hpid)
      · cases abi with
        | ilp32 => exact absurd (time_eq_of_ilp32 hu hv hsame.time) htime
        | lp64 => exact .time rfl

/-! ### Records that are mapped to the same one -/

/-- Of an empty record the time is lost. -/
theorem exists_merge_of_empty (hempty : isEmpty u = true) :
    ∃ v y, abi.IsLong v.utTime ∧ utmpToUtmpx abi v = some y ∧ Merge abi u v := by
  obtain ⟨t, ht, hne⟩ : ∃ t, abi.IsLong t ∧ u.utTime ≠ t := by
    by_cases hzero : u.utTime = 0
    · exact ⟨1, by cases abi <;> decide, by rw [hzero]; decide⟩
    · exact ⟨0, by cases abi <;> decide, hzero⟩
  have hempty' : isEmpty { u with utTime := t } = true := hempty
  exact ⟨_, _, ht, utmpToUtmpx_of_isEmpty hempty', .empty hempty hempty' (.inr hne)⟩

/-- The record with another byte behind a host of 14 bytes. -/
def withHiddenByte (u : Utmp) (b : UInt8) (h : u.utHost.str.strlen = UT_HOSTSIZE - 2) : Utmp where
  utLine := u.utLine
  utName := u.utName
  utHost := ⟨u.utHost.str.bytes ++ [b], by
    rw [List.length_append, CString.length_bytes, h]
    rfl⟩
  utTime := u.utTime

theorem str_withHiddenByte (h : u.utHost.str.strlen = UT_HOSTSIZE - 2) (b : UInt8) :
    (withHiddenByte u b h).utHost.str = u.utHost.str :=
  CString.upToNul_bytes_append _ _

theorem hiddenPid_withHiddenByte (h : u.utHost.str.strlen = UT_HOSTSIZE - 2) (b : UInt8) :
    hiddenPid abi (withHiddenByte u b h) = (parsePid abi (CString.upToNul [b])).getD 0 := by
  have hdrop : (u.utHost.str.bytes ++ [b]).drop (u.utHost.str.strlen + 1) = [b] :=
    List.drop_left' (CString.length_bytes _)
  rw [hiddenPid, str_withHiddenByte]
  show (parsePid abi (CString.upToNul ((u.utHost.str.bytes ++ [b]).drop _))).getD 0 = _
  rw [hdrop]

/-- Some byte behind the host stands for another process id: a NUL for none and `5` for 5. -/
theorem exists_hidden_byte_ne (h : u.utHost.str.strlen = UT_HOSTSIZE - 2) :
    ∃ b, hiddenPid abi (withHiddenByte u b h) ≠ hiddenPid abi u := by
  have hnone : hiddenPid abi (withHiddenByte u 0 h) = 0 := by
    rw [hiddenPid_withHiddenByte]
    cases abi <;> decide
  have hfive : hiddenPid abi (withHiddenByte u 53 h) = 5 := by
    rw [hiddenPid_withHiddenByte]
    cases abi <;> decide
  by_cases hu : hiddenPid abi u = 0
  · refine ⟨53, ?_⟩
    rw [hfive, hu]
    decide
  · refine ⟨0, ?_⟩
    rw [hnone]
    exact Ne.symm hu

theorem reads_of_not_empty (hu : utmpToUtmpx abi u = some x) (hne : ¬ isEmpty u = true) :
    Reads abi u x := by
  obtain ⟨hempty, -⟩ | ⟨-, hx⟩ := utmpToUtmpx_cases hu
  · exact absurd hempty hne
  · exact hx

/-- The record is not empty. -/
theorem not_isEmpty (h : u.utLine.str.strlen ≠ 0 ∨ u.utHost.str.strlen ≠ 0) :
    isEmpty u = false := by
  rw [← Bool.not_eq_true, isEmpty_iff]
  rintro ⟨hline, -, hhost⟩
  exact h.elim (absurd hline) (absurd hhost)

/-- Behind a host of 14 bytes the digit is lost. -/
theorem exists_merge_of_host (hu : utmpToUtmpx abi u = some x) (htime : abi.IsLong u.utTime)
    (hhost : u.utHost.str.strlen = UT_HOSTSIZE - 2) :
    ∃ v y, abi.IsLong v.utTime ∧ utmpToUtmpx abi v = some y ∧ Merge abi u v := by
  have hnot : ∀ w : Utmp, w.utHost.str.strlen = UT_HOSTSIZE - 2 → isEmpty w = false := by
    intro w hw
    refine not_isEmpty (.inr ?_)
    rw [hw]
    decide
  obtain ⟨b, hb⟩ := exists_hidden_byte_ne hhost
  have hv := str_withHiddenByte hhost b
  obtain ⟨y, hy⟩ : ∃ y, utmpToUtmpx abi (withHiddenByte u b hhost) = some y := by
    rw [← Option.isSome_iff_exists, utmpToUtmpx_isSome_iff]
    have hsome := utmpToUtmpx_isSome_iff.mp (Option.isSome_iff_exists.mpr ⟨x, hu⟩)
    exact .inr (hsome.resolve_left (by rw [hnot u hhost]; decide))
  have hempty : isEmpty (withHiddenByte u b hhost) = false := by
    apply hnot
    rw [hv, hhost]
  exact ⟨withHiddenByte u b hhost, y, htime, hy, .kept (hnot u hhost) hempty
    ⟨rfl, hv.symm, .inl rfl, .inl hhost, rfl⟩ (.inr (.inl hb.symm))⟩

/-- Another string with the same first four characters. -/
theorem exists_line_ne {s : CString} (hlen : UTX_IDSIZE ≤ s.strlen) :
    ∃ t : CString, t ≠ s ∧ t.strlen ≤ UT_LINESIZE ∧ UTX_IDSIZE ≤ t.strlen ∧
      t.chars.take UTX_IDSIZE = s.chars.take UTX_IDSIZE := by
  -- A line of four bytes is made longer, a longer one is cut to four.
  by_cases hfour : s.strlen = UTX_IDSIZE
  · have hlonger : (s ++ (⟨[1], by decide⟩ : CString)).strlen = UTX_IDSIZE + 1 := by
      rw [CString.strlen_append, hfour]
      rfl
    refine ⟨s ++ (⟨[1], by decide⟩ : CString), fun heq => ?_, ?_, ?_, ?_⟩
    · rw [heq, hfour] at hlonger
      exact absurd hlonger (by decide)
    · rw [hlonger]
      decide
    · rw [hlonger]
      decide
    · rw [CString.chars_append, List.take_append_of_le_length hlen]
  · have hnoNul : 0 ∉ s.chars.take UTX_IDSIZE := fun hmem => s.noNul (List.mem_of_mem_take hmem)
    have hshorter : (s.chars.take UTX_IDSIZE).length = UTX_IDSIZE := List.length_take_of_le hlen
    refine ⟨⟨s.chars.take UTX_IDSIZE, hnoNul⟩, fun heq => ?_, ?_, ?_, ?_⟩
    · exact hfour ((congrArg CString.strlen heq).symm.trans hshorter)
    · exact hshorter.le.trans (by decide)
    · exact hshorter.ge
    · exact List.take_of_length_le hshorter.le

/-- Of a line that does not start with `tty` only the id is kept. -/
theorem exists_merge_of_line (htime : abi.IsLong u.utTime) (htty : ¬ IsTty u.utLine.str)
    (hlen : UTX_IDSIZE ≤ u.utLine.str.strlen) :
    ∃ v y, abi.IsLong v.utTime ∧ utmpToUtmpx abi v = some y ∧ Merge abi u v := by
  obtain ⟨t, hne, htlen, htlen', htake⟩ := exists_line_ne hlen
  have hline : (ByteField.ofString UT_LINESIZE t).str = t := ByteField.str_ofString htlen
  have htty' : ¬ IsTty t := by
    have hthree : ∀ s : CString, s.chars.take 3 = (s.chars.take UTX_IDSIZE).take 3 := fun s => by
      rw [List.take_take]
      rfl
    rw [isTty_iff, hthree] at htty ⊢
    rwa [htake]
  have hspecial : ∀ s : CString, UTX_IDSIZE ≤ s.strlen → ¬ IsSpecialLine s := by
    rintro s hs (rfl | rfl | rfl)
    all_goals exact absurd hs (by decide)
  have hpos : ∀ s : CString, UTX_IDSIZE ≤ s.strlen → s.strlen ≠ 0 := fun s hs hzero =>
    absurd (hzero ▸ hs) (by decide)
  obtain ⟨y, hy⟩ : ∃ y, utmpToUtmpx abi { u with utLine := .ofString _ t } = some y := by
    rw [← Option.isSome_iff_exists, utmpToUtmpx_isSome_iff]
    exact .inr (.inl (by rw [hline]; exact hspecial t htlen'))
  -- Only the line differs, and not in what is kept of it.
  have hkept : SameKeptLine u { u with utLine := .ofString _ t } := by
    refine .inr ⟨hspecial _ hlen, ?_, htty, ?_, ?_⟩
    · rw [hline]
      exact hspecial t htlen'
    · rwa [hline]
    · rw [hline, htake]
  have hempty : isEmpty { u with utLine := .ofString _ t } = false := by
    refine not_isEmpty (.inl ?_)
    rw [hline]
    exact hpos t htlen'
  have hlines : u.utLine.str ≠ (ByteField.ofString UT_LINESIZE t).str := by
    rw [hline]
    exact hne.symm
  exact ⟨{ u with utLine := .ofString _ t }, y, htime, hy,
    .kept (not_isEmpty (.inl (hpos _ hlen))) hempty ⟨rfl, rfl, hkept, .inr rfl, rfl⟩ (.inl hlines)⟩

/-- The lower half of a time is the same after 2^32 seconds. -/
theorem ofInt_add_size (t : Int) : Int32.ofInt (t + 4294967296) = Int32.ofInt t := by
  rw [← Int32.toInt_inj, Int32.toInt_ofInt, Int32.toInt_ofInt]
  exact Int.add_bmod_right t Int32.size

/-- On a 64-bit machine the upper half of the time is lost. -/
theorem exists_merge_of_time {u : Utmp} {x : Utmpx} (hu : utmpToUtmpx .lp64 u = some x)
    (htime : Abi.lp64.IsLong u.utTime) :
    ∃ v y, Abi.lp64.IsLong v.utTime ∧ utmpToUtmpx .lp64 v = some y ∧ Merge .lp64 u v := by
  cases hempty : isEmpty u with
  | true => exact exists_merge_of_empty hempty
  | false =>
      have hlow : -9223372036854775808 ≤ u.utTime := htime.1
      have hhigh : u.utTime < 9223372036854775808 := htime.2
      -- One of the two times that are 2^32 seconds away is a `time_t`.
      obtain ⟨t, ht, hne, hsame⟩ : ∃ t, Abi.lp64.IsLong t ∧ u.utTime ≠ t ∧
          Int32.ofInt u.utTime = Int32.ofInt t := by
        by_cases hneg : u.utTime < 0
        · refine ⟨u.utTime + 4294967296, ⟨?_, ?_⟩, by omega, (ofInt_add_size _).symm⟩
          · show -9223372036854775808 ≤ _
            omega
          · show _ < (9223372036854775808 : Int)
            omega
        · refine ⟨u.utTime - 4294967296, ⟨?_, ?_⟩, by omega, ?_⟩
          · show -9223372036854775808 ≤ _
            omega
          · show _ < (9223372036854775808 : Int)
            omega
          · rw [← ofInt_add_size (u.utTime - _), Int.sub_add_cancel]
      obtain ⟨y, hy⟩ : ∃ y, utmpToUtmpx .lp64 { u with utTime := t } = some y := by
        have hsome := Option.isSome_iff_exists.mpr ⟨x, hu⟩
        rw [utmpToUtmpx_isSome_iff] at hsome
        rw [← Option.isSome_iff_exists, utmpToUtmpx_isSome_iff]
        exact hsome
      exact ⟨{ u with utTime := t }, y, ht, hy,
        .kept hempty hempty ⟨rfl, rfl, .inl rfl, .inr rfl, hsame⟩ (.inr (.inr hne))⟩

end

/-- Two records are mapped to equal ones and do not agree exactly if they merge. So the records at
which the mapping is injective are exactly those that are kept whole: some of them on a 32-bit
machine, and none on a 64-bit machine. -/
theorem utmpToUtmpx_injective_iff {abi : Abi} {u : Utmp} {x : Utmpx}
    (hu : utmpToUtmpx abi u = some x) (htime : abi.IsLong u.utTime) :
    (∀ v y, utmpToUtmpx abi v = some y →
      ((utmpxEqual x y = true → Agree abi u v) ↔ ¬ Merge abi u v)) ∧
    ((∀ v y, abi.IsLong v.utTime → utmpToUtmpx abi v = some y → utmpxEqual x y = true →
        Agree abi u v) ↔
      ¬ Lossy abi u) := by
  refine ⟨fun v y hv => merge_iff hu hv, ?_⟩
  constructor
  · intro hinj hlossy
    -- A record that loses something merges with one that has something else there.
    have hmerge : ∃ v y, abi.IsLong v.utTime ∧ utmpToUtmpx abi v = some y ∧ Merge abi u v := by
      cases hlossy with
      | empty hempty => exact exists_merge_of_empty hempty
      | host hhost => exact exists_merge_of_host hu htime hhost
      | line htty hlen => exact exists_merge_of_line htime htty hlen
      | time habi =>
          subst habi
          exact exists_merge_of_time hu htime
    obtain ⟨v, y, hlong, hv, hmerge⟩ := hmerge
    exact (merge_iff hu hv).mp (hinj v y hlong hv) hmerge
  · intro hlossy v y hlong hv
    exact (merge_iff hu hv).mpr fun hmerge => hlossy (hmerge.lossy htime hlong)

/-- A login of `user` on a line, with nothing behind its host. -/
def loginOn (line : String) : Utmp where
  utLine := .ofString _ (lit line)
  utName := .ofString _ (lit "user")
  utHost := .ofString _ (lit "host")
  utTime := 1000

/-- The record of a login on a terminal is kept whole on a 32-bit machine. -/
theorem utmpToUtmpx_injective_iff_tty :
    ∃ x, utmpToUtmpx .ilp32 (loginOn "tty1") = some x ∧
      (∀ v y, utmpToUtmpx .ilp32 v = some y →
        ((utmpxEqual x y = true → Agree .ilp32 (loginOn "tty1") v) ↔
          ¬ Merge .ilp32 (loginOn "tty1") v)) ∧
      ((∀ v y, Abi.ilp32.IsLong v.utTime → utmpToUtmpx .ilp32 v = some y →
          utmpxEqual x y = true → Agree .ilp32 (loginOn "tty1") v) ↔
        ¬ Lossy .ilp32 (loginOn "tty1")) :=
  ⟨_, rfl, utmpToUtmpx_injective_iff rfl (by decide)⟩

/-- The logins on two lines that start with the same four bytes are mapped to equal records. -/
theorem utmpToUtmpx_not_injective :
    ¬ ∀ (abi : Abi) (u v : Utmp) (x y : Utmpx), utmpToUtmpx abi u = some x →
      utmpToUtmpx abi v = some y → utmpxEqual x y = true → Agree abi u v := by
  intro hinj
  have hagree := hinj .lp64 (loginOn "pts/0") (loginOn "pts/1") _ _ rfl rfl (by decide)
  exact absurd hagree.line (by decide)

end GlibcPorts.UtmpCompat
