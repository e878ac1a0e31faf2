import GlibcPorts.UtmpCompat.Utmpconv

/-!
# `GlibcPorts.Proofs.UtmpCompat.Decoding`: what `__utmp_to_utmpx` reads

`utmpToUtmpx_cases` says what a `struct utmpx` that `__utmp_to_utmpx` makes holds: it is the
record of an empty one, or `Reads` relates the members of both. The strings of both are related
as strings: what lies behind a NUL counts only for the hidden process id (`hiddenPid`).

A type that is not a process has its own line and its own name (`specialStrings`). The name of a
process follows from its type and its user (`processName`), and its line is what decides between
two ways to keep it (`IsTty`).
-/

set_option autoImplicit false

namespace GlibcPorts.UtmpCompat

open Lib
open Lib.CString (strncmpEq strncmpEq_iff cut upToNul)

/-- The string of a string constant. -/
abbrev lit (s : String) : CString := upToNul (literal s)

/-- The line and the name of a type that is not a process. -/
def specialStrings : UtType → Option (CString × CString)
  | .RUN_LVL => some (lit "~", lit "runlevel")
  | .BOOT_TIME => some (lit "~", lit "reboot")
  | .ACCOUNTING => some (lit "~", lit "acct")
  | .NEW_TIME => some (lit "\x7b", lit "date")
  | .OLD_TIME => some (lit "|", lit "date")
  | _ => none

/-- The lines of the types that are not a process. -/
def IsSpecialLine (line : CString) : Prop :=
  line = lit "~" ∨ line = lit "\x7b" ∨ line = lit "|"

instance (line : CString) : Decidable (IsSpecialLine line) :=
  inferInstanceAs (Decidable (_ ∨ _ ∨ _))

/-- The name of a process with this type and user. -/
def processName (type : UtType) (user : CString) : CString :=
  match type with
  | .INIT_PROCESS => lit "INIT"
  | .LOGIN_PROCESS => lit "LOGIN"
  | .DEAD_PROCESS => lit ""
  | _ => user

/-- The line starts with the letters `tty`. -/
def IsTty (line : CString) : Prop := asciiChars "tty" <+: line.chars

instance (line : CString) : Decidable (IsTty line) :=
  inferInstanceAs (Decidable (asciiChars "tty" <+: line.chars))

/-- The process id that is hidden behind the host: 0 without one. -/
def hiddenPid (abi : Abi) (u : Utmp) : Int32 :=
  (parsePid abi (upToNul (u.utHost.bytes.drop (u.utHost.str.strlen + 1)))).getD 0

/-! ### The tests -/

/-- The line begins with `tty`. -/
theorem isTty_iff {line : CString} : IsTty line ↔ line.chars.take 3 = asciiChars "tty" :=
  List.prefix_iff_eq_take.trans eq_comm

/-- The comparison of a name that fits its array. -/
theorem nameIs_iff {u : Utmp} {name : String} (h : (lit name).strlen ≤ UT_NAMESIZE) :
    nameIs u name = true ↔ u.utName.str = lit name := by
  rw [nameIs, strncmpEq_iff, ByteField.cut_bytes, CString.cut_eq_upToNul h]

/-- The test for the line that is the string constant with the character `c`. -/
theorem lineIs_iff {u : Utmp} {c : UInt8} {s : String} (hs : c ≠ 0 ∧ (lit s).chars = [c]) :
    lineIs u c = true ↔ u.utLine.str = lit s := by
  rw [lineIs, Bool.and_eq_true, decide_eq_true_iff, decide_eq_true_iff, CString.ext_iff, hs.2]
  exact ByteField.get_zero_get_one_iff u.utLine hs.1

/-- The test of the code for a terminal. -/
theorem tty_test_iff {u : Utmp} :
    strncmpEq u.utLine.bytes (literal "tty") 3 = true ↔ IsTty u.utLine.str := by
  have hlit : (cut (literal "tty") 3).chars = asciiChars "tty" := by decide
  rw [strncmpEq_iff, CString.ext_iff, hlit, CString.chars_cut, isTty_iff, ByteField.str]

/-- The test of the code for an empty record. -/
theorem isEmpty_iff {u : Utmp} :
    isEmpty u = true ↔ u.utLine.str.strlen = 0 ∧ u.utName.str.strlen = 0 ∧
      u.utHost.str.strlen = 0 := by
  rw [isEmpty, Bool.and_eq_true, Bool.and_eq_true, decide_eq_true_iff, decide_eq_true_iff,
    decide_eq_true_iff]
  have hline := ByteField.get_zero_eq_iff (n := 7) u.utLine
  have hname := ByteField.get_zero_eq_iff (n := 15) u.utName
  have hhost := ByteField.get_zero_eq_iff (n := 15) u.utHost
  tauto

/-- Equal records hold equal strings. -/
theorem utmpxEqual_iff {x y : Utmpx} :
    utmpxEqual x y = true ↔ x.utType = y.utType ∧ x.utPid = y.utPid ∧
      x.utLine.str = y.utLine.str ∧ x.utId.str = y.utId.str ∧ x.utUser.str = y.utUser.str ∧
      x.utHost.str = y.utHost.str ∧ x.utExitTermination = y.utExitTermination ∧
      x.utExitExit = y.utExitExit ∧ x.utSession = y.utSession ∧ x.tvSec = y.tvSec ∧
      x.tvUsec = y.tvUsec ∧ x.utAddrV6 = y.utAddrV6 := by
  simp only [utmpxEqual, Bool.and_eq_true, decide_eq_true_iff, strncmpEq_iff,
    ByteField.cut_bytes, and_assoc]

/-! ### The parts of a record -/

/-- The line, the name and the type of a record that is not a process. -/
structure ReadsSpecial (u : Utmp) (x : Utmpx) : Prop where
  strings : specialStrings x.utType = some (u.utLine.str, u.utName.str)
  line : x.utLine = .zero _
  id : x.utId = .zero _
  user : x.utUser = .zero _

/-- The line, the name and the type of a process. -/
structure ReadsProcess (u : Utmp) (x : Utmpx) : Prop where
  notSpecial : ¬ IsSpecialLine u.utLine.str
  type : x.utType = processType u
  name : u.utName.str = processName x.utType x.utUser.str
  user : x.utUser.str =
    if x.utType = .LOGIN_PROCESS ∨ x.utType = .USER_PROCESS then u.utName.str else lit ""
  line : x.utLine.str = if IsTty u.utLine.str then u.utLine.str else lit ""
  id : x.utId.str.chars =
    ((if IsTty u.utLine.str then u.utLine.str.chars.drop 3 else u.utLine.str.chars).take 4)

/-- What `__utmp_to_utmpx` reads from a record that is not empty. -/
structure Reads (abi : Abi) (u : Utmp) (x : Utmpx) : Prop where
  kind : ReadsSpecial u x ∨ ReadsProcess u x
  pid : x.utPid = if u.utHost.str.strlen < UT_HOSTSIZE - 2 then hiddenPid abi u else 0
  host : x.utHost.str = u.utHost.str
  time : x.tvSec = Int32.ofInt u.utTime
  rest : x.utExitTermination = 0 ∧ x.utExitExit = 0 ∧ x.utSession = 0 ∧ x.tvUsec = 0 ∧
    x.utAddrV6 = .zero _

/-- A record of this kind is that of a process. -/
theorem processType_isProcess (u : Utmp) : (processType u).isProcess = true := by
  unfold processType
  split_ifs <;> rfl

/-- It has no line and name of its own. -/
theorem specialStrings_processType (u : Utmp) : specialStrings (processType u) = none := by
  unfold processType
  split_ifs <;> rfl

/-- The name of a record follows from the type that the name gives it. -/
theorem processName_processType (u : Utmp) :
    u.utName.str = processName (processType u) u.utName.str := by
  unfold processType
  split_ifs with hinit hlogin hdead
  · exact (nameIs_iff (by decide)).mp hinit
  · exact (nameIs_iff (by decide)).mp hlogin
  · exact (nameIs_iff (by decide)).mp hdead
  · rfl

/-- The members that a process sets. -/
theorem processToUtmpx_eq (u : Utmp) (ux : Utmpx) :
    processToUtmpx u ux =
      { ux with
        utType := processType u
        utUser :=
          if processType u = .LOGIN_PROCESS ∨ processType u = .USER_PROCESS then
            ux.utUser.strncpy u.utName.bytes UT_NAMESIZE (by decide)
          else ux.utUser
        utLine :=
          if strncmpEq u.utLine.bytes (literal "tty") 3 then
            ux.utLine.strncpy u.utLine.bytes UT_LINESIZE (by decide)
          else ux.utLine
        utId :=
          ux.utId.strncpy
            (if strncmpEq u.utLine.bytes (literal "tty") 3 then u.utLine.bytes.drop 3
              else u.utLine.bytes) UTX_IDSIZE (by decide) } := by
  unfold processToUtmpx
  dsimp only
  split_ifs <;> rfl

/-- The type that a name gives, if a user cannot be taken for another type. -/
theorem processType_eq {u : Utmp} {t : UtType} {user : CString} (ht : t.isProcess = true)
    (hname : u.utName.str = processName t user)
    (huser : t = .USER_PROCESS → user ≠ lit "" ∧ user ≠ lit "INIT" ∧ user ≠ lit "LOGIN") :
    processType u = t := by
  have hinit : nameIs u "INIT" = true ↔ u.utName.str = lit "INIT" := nameIs_iff (by decide)
  have hlogin : nameIs u "LOGIN" = true ↔ u.utName.str = lit "LOGIN" := nameIs_iff (by decide)
  have hdead : nameIs u "" = true ↔ u.utName.str = lit "" := nameIs_iff (by decide)
  simp only [processType, hinit, hlogin, hdead, hname]
  cases t with
  | INIT_PROCESS => rfl
  | LOGIN_PROCESS => rfl
  | DEAD_PROCESS => rfl
  | USER_PROCESS =>
      obtain ⟨hne, hnotInit, hnotLogin⟩ := huser rfl
      simp only [processName, hne, hnotInit, hnotLogin, if_false]
  | _ => cases ht

/-- What is read of the record of a process. -/
theorem processToUtmpx_reads {u : Utmp} (hline : ¬ IsSpecialLine u.utLine.str) :
    ReadsProcess u (processToUtmpx u .zero) := by
  rw [processToUtmpx_eq]
  have huser : ∀ p : Prop, [Decidable p] →
      (if p then Utmpx.zero.utUser.strncpy u.utName.bytes UT_NAMESIZE (by decide)
        else Utmpx.zero.utUser).str = if p then u.utName.str else lit "" := by
    intro p _
    split_ifs
    · exact (ByteField.str_strncpy_zero _ _).trans (ByteField.cut_bytes _)
    · rfl
  refine ⟨hline, rfl, ?_, huser _, ?_, ?_⟩
  · have hname := processName_processType u
    dsimp only
    rw [huser]
    cases hp : processType u
    all_goals rw [hp] at hname
    all_goals first
      | exact hname
      | cases hp ▸ processType_isProcess u
  · dsimp only
    simp only [tty_test_iff]
    split_ifs
    · exact (ByteField.str_strncpy_zero _ _).trans (ByteField.cut_bytes _)
    · rfl
  · dsimp only
    simp only [tty_test_iff]
    refine (congrArg CString.chars (ByteField.str_strncpy_zero _ _)).trans ?_
    rw [CString.chars_cut]
    split_ifs with htty
    · have hthree : 3 ≤ u.utLine.str.strlen := htty.length_le
      rw [CString.chars_upToNul_drop hthree]
      rfl
    · rfl

/-- The line of a system event. -/
theorem isTilde_iff {u : Utmp} : lineIs u 126 = true ↔ u.utLine.str = lit "~" :=
  lineIs_iff (by decide)

/-- The line of a new time. -/
theorem isBrace_iff {u : Utmp} : lineIs u 123 = true ↔ u.utLine.str = lit "\x7b" :=
  lineIs_iff (by decide)

/-- The line of an old time. -/
theorem isBar_iff {u : Utmp} : lineIs u 124 = true ↔ u.utLine.str = lit "|" :=
  lineIs_iff (by decide)

/-- The lines and names of the system events. -/
theorem specialStrings_cases {t : UtType} {line name : CString}
    (h : specialStrings t = some (line, name)) :
    (line = lit "~" ∧ (name = lit "runlevel" ∨ name = lit "reboot" ∨ name = lit "acct")) ∨
      ((line = lit "\x7b" ∨ line = lit "|") ∧ name = lit "date") := by
  cases t <;> cases h
  · exact .inl ⟨rfl, .inl rfl⟩
  · exact .inl ⟨rfl, .inr (.inl rfl)⟩
  · exact .inr ⟨.inl rfl, rfl⟩
  · exact .inr ⟨.inr rfl, rfl⟩
  · exact .inl ⟨rfl, .inr (.inr rfl)⟩

/-- Their lines are not those of terminals. -/
theorem isSpecialLine_of_specialStrings {t : UtType} {line name : CString}
    (h : specialStrings t = some (line, name)) : IsSpecialLine line := by
  rcases specialStrings_cases h with ⟨hline, -⟩ | ⟨hline, -⟩
  · exact .inl hline
  · exact .inr hline

/-- The line and the name of a record that is not a process are those of its type only. -/
theorem specialStrings_inj {s t : UtType} {strings : CString × CString}
    (hs : specialStrings s = some strings) (ht : specialStrings t = some strings) : s = t := by
  have hsome : specialStrings s ≠ none := by rw [hs]; exact Option.some_ne_none _
  have heq := hs.trans ht.symm
  cases s <;> cases t <;> first
    | rfl
    | exact absurd rfl hsome
    | exact absurd heq (by decide)
    | cases heq

/-- A record that is not empty has the line and the name of another type, or it is a process. -/
theorem kindToUtmpx_cases {u : Utmp} {x : Utmpx} (h : kindToUtmpx u .zero = some x) :
    (∃ t, x = { Utmpx.zero with utType := t } ∧
      specialStrings t = some (u.utLine.str, u.utName.str)) ∨
    (x = processToUtmpx u .zero ∧ ¬ IsSpecialLine u.utLine.str) := by
  have special : ∀ (t : UtType) (line name : String),
      specialStrings t = some (lit line, lit name) → u.utLine.str = lit line →
      nameIs u name = true → (lit name).strlen ≤ UT_NAMESIZE →
      specialStrings t = some (u.utLine.str, u.utName.str) := by
    intro t line name hstrings hline hname hlen
    rw [hstrings, hline, (nameIs_iff hlen).mp hname]
  unfold kindToUtmpx at h
  split_ifs at h with htilde hrun hboot hacct hnew hnewDate hold holdDate
  all_goals cases h
  · exact .inl ⟨_, rfl, special _ "~" "runlevel" rfl
      (isTilde_iff.mp htilde) hrun (by decide)⟩
  · exact .inl ⟨_, rfl, special _ "~" "reboot" rfl
      (isTilde_iff.mp htilde) hboot (by decide)⟩
  · exact .inl ⟨_, rfl, special _ "~" "acct" rfl
      (isTilde_iff.mp htilde) hacct (by decide)⟩
  · exact .inl ⟨_, rfl, special _ "\x7b" "date" rfl
      (isBrace_iff.mp hnew) hnewDate (by decide)⟩
  · exact .inl ⟨_, rfl, special _ "|" "date" rfl
      (isBar_iff.mp hold) holdDate (by decide)⟩
  · refine .inr ⟨rfl, ?_⟩
    rintro (hline | hline | hline)
    · exact htilde (isTilde_iff.mpr hline)
    · exact hnew (isBrace_iff.mpr hline)
    · exact hold (isBar_iff.mpr hline)

/-- The function fails only at a line of its own with another name. -/
theorem kindToUtmpx_isSome_iff {u : Utmp} :
    (kindToUtmpx u .zero).isSome ↔
      ¬ IsSpecialLine u.utLine.str ∨
        ∃ t, specialStrings t = some (u.utLine.str, u.utName.str) := by
  constructor
  · intro h
    obtain ⟨x, hx⟩ := Option.isSome_iff_exists.mp h
    rcases kindToUtmpx_cases hx with ⟨t, -, ht⟩ | ⟨-, hline⟩
    · exact .inr ⟨t, ht⟩
    · exact .inl hline
  · intro h
    rw [Option.isSome_iff_ne_none]
    intro hnone
    -- At a line of its own the name is one that the function knows.
    have hknown : IsSpecialLine u.utLine.str → ∃ t, specialStrings t = some (u.utLine.str,
        u.utName.str) := fun hline => h.resolve_left (not_not_intro hline)
    unfold kindToUtmpx at hnone
    split_ifs at hnone with htilde hrun hboot hacct hnew hdate hold hdate
    · have hline := isTilde_iff.mp htilde
      obtain ⟨t, ht⟩ := hknown (.inl hline)
      rcases specialStrings_cases ht with ⟨-, hname | hname | hname⟩ | ⟨hother, -⟩
      · exact hrun ((nameIs_iff (by decide)).mpr hname)
      · exact hboot ((nameIs_iff (by decide)).mpr hname)
      · exact hacct ((nameIs_iff (by decide)).mpr hname)
      · rw [hline] at hother
        exact absurd hother (by decide)
    · have hline := isBrace_iff.mp hnew
      obtain ⟨t, ht⟩ := hknown (.inr (.inl hline))
      rcases specialStrings_cases ht with ⟨hother, -⟩ | ⟨-, hname⟩
      · rw [hline] at hother
        exact absurd hother (by decide)
      · exact hdate ((nameIs_iff (by decide)).mpr hname)
    · have hline := isBar_iff.mp hold
      obtain ⟨t, ht⟩ := hknown (.inr (.inr hline))
      rcases specialStrings_cases ht with ⟨hother, -⟩ | ⟨-, hname⟩
      · rw [hline] at hother
        exact absurd hother (by decide)
      · exact hdate ((nameIs_iff (by decide)).mpr hname)

/-- What is read of a record, by its kind. -/
theorem kindToUtmpx_reads {u : Utmp} {x : Utmpx} (h : kindToUtmpx u .zero = some x) :
    ReadsSpecial u x ∨ ReadsProcess u x := by
  rcases kindToUtmpx_cases h with ⟨t, rfl, hstrings⟩ | ⟨rfl, hline⟩
  · exact .inl ⟨hstrings, rfl, rfl, rfl⟩
  · exact .inr (processToUtmpx_reads hline)

/-- The members that the parts before the host leave as they were. -/
theorem kindToUtmpx_rest {u : Utmp} {x : Utmpx} (h : kindToUtmpx u .zero = some x) :
    x.utPid = 0 ∧ x.utHost = .zero _ ∧ x.utExitTermination = 0 ∧ x.utExitExit = 0 ∧
      x.utSession = 0 ∧ x.utAddrV6 = .zero _ := by
  rcases kindToUtmpx_cases h with ⟨t, rfl, -⟩ | ⟨rfl, -⟩
  · exact ⟨rfl, rfl, rfl, rfl, rfl, rfl⟩
  · rw [processToUtmpx_eq]
    exact ⟨rfl, rfl, rfl, rfl, rfl, rfl⟩

/-- The process id that the function recovers: it looks for one while the host leaves room for two
bytes behind its NUL. -/
theorem recoverPid_eq (abi : Abi) (u : Utmp) (ux : Utmpx) (hpid : ux.utPid = 0) :
    recoverPid abi u ux =
      { ux with
        utPid := if u.utHost.str.strlen < UT_HOSTSIZE - 2 then hiddenPid abi u else 0 } := by
  have hsame : { ux with utPid := 0 } = ux := by rw [← hpid]
  unfold recoverPid
  dsimp only
  by_cases hroom : u.utHost.str.strlen < UT_HOSTSIZE - 2
  · rw [if_pos hroom, if_pos hroom, hiddenPid]
    -- The bytes behind the NUL fit the bound of the copy.
    have hcut : cut (u.utHost.bytes.drop (u.utHost.str.strlen + 1))
          (UT_HOSTSIZE - u.utHost.str.strlen - 1) =
        upToNul (u.utHost.bytes.drop (u.utHost.str.strlen + 1)) := by
      apply CString.cut_of_length_le
      rw [List.length_drop, u.utHost.length_bytes]
      omega
    rw [hcut]
    split_ifs with hhead
    · cases parsePid abi _ with
      | none => exact hsame.symm
      | some pid => rfl
    · have hempty : (upToNul (u.utHost.bytes.drop (u.utHost.str.strlen + 1))).chars = [] := by
        rw [not_not] at hhead
        cases hdrop : u.utHost.bytes.drop (u.utHost.str.strlen + 1) with
        | nil => rw [hdrop] at hhead; cases hhead
        | cons b bs =>
            rw [hdrop, List.head?_cons, Option.some.injEq] at hhead
            simp [upToNul, hhead]
      rw [parsePid, strtoul_of_nil _ hempty]
      exact hsame.symm
  · rw [if_neg hroom, if_neg hroom, hsame]

/-- What `__utmp_to_utmpx` makes of a record. -/
theorem utmpToUtmpx_cases {abi : Abi} {u : Utmp} {x : Utmpx} (h : utmpToUtmpx abi u = some x) :
    (isEmpty u = true ∧ x = .zero) ∨ (isEmpty u = false ∧ Reads abi u x) := by
  unfold utmpToUtmpx at h
  dsimp only at h
  split_ifs at h with hempty
  · cases h
    exact .inl ⟨hempty, rfl⟩
  · obtain ⟨k, hk, rfl⟩ := Option.map_eq_some_iff.mp h
    obtain ⟨hpid, hhost, hterm, hexit, hsession, haddr⟩ := kindToUtmpx_rest hk
    refine .inr ⟨by simpa using hempty, ?_⟩
    rw [recoverPid_eq abi u
      { k with utHost := k.utHost.strncpy u.utHost.bytes UT_HOSTSIZE (by decide) } hpid]
    refine ⟨?_, rfl, ?_, rfl, hterm, hexit, hsession, rfl, haddr⟩
    · rcases kindToUtmpx_reads hk with hspecial | hprocess
      · exact .inl ⟨hspecial.strings, hspecial.line, hspecial.id, hspecial.user⟩
      · exact .inr ⟨hprocess.notSpecial, hprocess.type, hprocess.name, hprocess.user,
          hprocess.line, hprocess.id⟩
    · dsimp only
      rw [hhost]
      exact (ByteField.str_strncpy_zero _ _).trans (ByteField.cut_bytes _)

/-- When `__utmp_to_utmpx` succeeds. -/
theorem utmpToUtmpx_isSome_iff {abi : Abi} {u : Utmp} :
    (utmpToUtmpx abi u).isSome ↔
      isEmpty u = true ∨ ¬ IsSpecialLine u.utLine.str ∨
        ∃ t, specialStrings t = some (u.utLine.str, u.utName.str) := by
  rw [← kindToUtmpx_isSome_iff]
  unfold utmpToUtmpx
  dsimp only
  split_ifs with hempty
  · simp [hempty]
  · simp [hempty]

/-- The type of a record that is not empty is not that of an empty one. -/
theorem Reads.utType_ne {abi : Abi} {u : Utmp} {x : Utmpx} (h : Reads abi u x) :
    x.utType ≠ .EMPTY := by
  intro htype
  rcases h.kind with hspecial | hprocess
  · have hstrings := hspecial.strings
    rw [htype] at hstrings
    cases hstrings
  · have hisProcess := processType_isProcess u
    rw [← hprocess.type, htype] at hisProcess
    cases hisProcess

end GlibcPorts.UtmpCompat
