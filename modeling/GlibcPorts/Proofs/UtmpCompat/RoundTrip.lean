import GlibcPorts.Proofs.UtmpCompat.Encoding
import GlibcPorts.Proofs.UtmpCompat.Injectivity

/-!
# `GlibcPorts.Proofs.UtmpCompat.RoundTrip`: from `struct utmpx` and back

The comment at the head of `utmpconv.c` says that the mapping to `struct utmp` succeeds when common
conventions are respected. `Conventional` states them, and `roundTrip_iff` says which conventional
records come back equal.

The two conversions do not agree about the room for the process id. `__utmpx_to_utmp` stores the
digits when they fit behind the host, and behind a host of 14 bytes one digit fits.
`__utmp_to_utmpx` looks for digits only while the host is shorter than 14 bytes.
-/

set_option autoImplicit false

namespace GlibcPorts.UtmpCompat

open Lib
open Lib.CString (cut upToNul strncpyBytes)

/-- An event has a type of its own and no line, id and user. -/
structure ConventionalEvent (ux : Utmpx) : Prop where
  type : ux.utType ∈ [.RUN_LVL, .BOOT_TIME, .ACCOUNTING, .NEW_TIME, .OLD_TIME]
  line : ux.utLine.str = lit ""
  id : ux.utId.str = lit ""
  user : ux.utUser.str = lit ""

/-- A process has the user of its type, and a terminal or an id. -/
structure ConventionalProcess (ux : Utmpx) : Prop where
  isProcess : ux.utType.isProcess = true
  noUser : ux.utType = .INIT_PROCESS ∨ ux.utType = .DEAD_PROCESS → ux.utUser.str = lit ""
  loginUser : ux.utType = .LOGIN_PROCESS → ux.utUser.str = lit "LOGIN"
  user : ux.utType = .USER_PROCESS → ux.utUser.str ≠ lit "" ∧ ux.utUser.str.strlen ≤ UT_NAMESIZE ∧
    ux.utUser.str ≠ lit "INIT" ∧ ux.utUser.str ≠ lit "LOGIN"
  line : (∃ suffix, ux.utLine.str.chars = asciiChars "tty" ++ suffix ∧
      ux.utLine.str.strlen ≤ UT_LINESIZE ∧ ux.utId.str.chars = suffix.take UTX_IDSIZE) ∨
    (ux.utLine.str = lit "" ∧ ux.utId.str ≠ lit "" ∧ ¬ IsTty ux.utId.str ∧
      ¬ IsSpecialLine ux.utId.str)

/-- The conventions that a `struct utmpx` has to respect. -/
structure Conventional (ux : Utmpx) : Prop where
  kind : ConventionalEvent ux ∨ ConventionalProcess ux
  host : ux.utHost.str.strlen < UT_HOSTSIZE
  pid : ux.utPid = 0 ∨ (0 < ux.utPid.toInt ∧
    (decimal ux.utPid.toInt.toNat).strlen ≤ UT_HOSTSIZE - ux.utHost.str.strlen - 1)
  rest : ux.utExitTermination = 0 ∧ ux.utExitExit = 0 ∧ ux.utSession = 0 ∧ ux.tvUsec = 0 ∧
    ux.utAddrV6 = .zero _

section

variable {abi : Abi} {ux x : Utmpx} {u v : Utmp}

/-! ### The hidden process id -/

/-- Bytes of NULs behind a host hide no process id. -/
theorem hiddenPid_of_zeros {m : Nat}
    (h : u.utHost.bytes.drop (u.utHost.str.strlen + 1) = List.replicate m 0) :
    hiddenPid abi u = 0 := by
  have hnil : (upToNul (List.replicate m 0)).chars = [] := by
    cases m <;> simp [upToNul, List.replicate_succ]
  rw [hiddenPid, h, parsePid, strtoul_of_nil _ hnil]
  rfl

/-- Behind the copy of a host there are NULs. -/
theorem hiddenPid_of_strncpy {src : List UInt8}
    (hcopy : v.utHost = u.utHost.strncpy src UT_HOSTSIZE le_rfl)
    (hlen : v.utHost.str.strlen < UT_HOSTSIZE) : hiddenPid abi v = 0 := by
  have hsrc : (upToNul src).strlen < UT_HOSTSIZE := by
    rw [hcopy, ByteField.str_strncpy_full, CString.strlen_cut] at hlen
    omega
  have hbytes : v.utHost.bytes = (upToNul src).bytes ++
      List.replicate (UT_HOSTSIZE - (upToNul src).strlen - 1) 0 := by
    have hdrop : u.utHost.bytes.drop UT_HOSTSIZE = [] :=
      List.drop_eq_nil_of_le u.utHost.length_bytes.le
    rw [hcopy]
    show strncpyBytes src UT_HOSTSIZE ++ u.utHost.bytes.drop UT_HOSTSIZE = _
    rw [hdrop, List.append_nil, CString.strncpyBytes_of_lt hsrc, CString.bytes,
      List.append_assoc, List.singleton_append]
  apply hiddenPid_of_zeros (m := UT_HOSTSIZE - (upToNul src).strlen - 1)
  rw [ByteField.str, hbytes, CString.upToNul_bytes_append]
  exact List.drop_left' (CString.length_bytes _)

/-- Digits that fit are stored where they are looked for. -/
theorem hiddenPid_of_digits {pid : Int32} {host : ByteField UT_HOSTSIZE}
    (hlen : host.str.strlen < UT_HOSTSIZE) (hpos : 0 < pid.toInt)
    (hfit : (decimal pid.toInt.toNat).strlen ≤ room host)
    (h : hidePid abi pid host = .ok v.utHost) : hiddenPid abi v = pid := by
  have hzero : pid ≠ 0 := by
    rintro rfl
    exact absurd hpos (by decide)
  have hulong := ulongOfInt_of_nonneg abi hpos.le
  obtain ⟨host', hok, hstored, -⟩ := @hidePid_eq abi _ _ hzero hlen
    ((digits_fit_iff abi pid).mpr (.inl hpos.le))
  rw [hok, Except.ok.injEq] at h
  subst h
  rw [hulong] at hstored
  have hdrop : v.utHost.bytes.drop (v.utHost.str.strlen + 1) =
      strncpyBytes (decimal pid.toInt.toNat).bytes (room host) := by
    rw [hidePid_str hok, hstored hfit]
    apply List.drop_left'
    rw [List.length_take, host.length_bytes]
    omega
  have hdigits : upToNul (decimal pid.toInt.toNat).bytes = decimal pid.toInt.toNat :=
    CString.upToNul_chars_append _ [0] (by simp)
  have hread : upToNul (strncpyBytes (decimal pid.toInt.toNat).bytes (room host)) =
      decimal pid.toInt.toNat := by
    rw [CString.upToNul_strncpyBytes, CString.cut_eq_upToNul (by rw [hdigits]; exact hfit),
      hdigits]
  have hne := (strlen_decimal_pos pid.toInt.toNat).ne'
  rw [hiddenPid, hdrop, hread, parsePid, strtoul_decimal (hulong ▸ ulongOfInt_le abi pid)]
  dsimp only
  rw [if_pos ⟨hne, rfl⟩, Option.getD_some, ← hulong, intOfUlong_ulongOfInt abi hpos.le]

/-- A process id whose digits fit is found where it was hidden. -/
theorem hiddenPid_of_hidePid {w : Utmp} {src : List UInt8}
    (hw : w.utHost = u.utHost.strncpy src UT_HOSTSIZE le_rfl)
    (hlen : w.utHost.str.strlen < UT_HOSTSIZE)
    (hpid : ux.utPid = 0 ∨ (0 < ux.utPid.toInt ∧
      (decimal ux.utPid.toInt.toNat).strlen ≤ UT_HOSTSIZE - w.utHost.str.strlen - 1))
    (h : hidePid abi ux.utPid w.utHost = .ok v.utHost) : hiddenPid abi v = ux.utPid := by
  rcases hpid with hzero | ⟨hpos, hfit⟩
  · rw [hidePid, if_pos hzero, Except.ok.injEq] at h
    rw [hzero]
    exact hiddenPid_of_strncpy (h ▸ hw) (h ▸ hlen)
  · exact hiddenPid_of_digits hlen hpos hfit h

/-! ### The members -/

/-- An event has strings of its own. -/
theorem ConventionalEvent.isSpecial (h : ConventionalEvent ux) :
    ∃ line name, specialStrings ux.utType = some (line, name) := by
  have htype := h.type
  simp only [List.mem_cons, List.not_mem_nil, or_false] at htype
  rcases htype with htype | htype | htype | htype | htype <;>
    exact ⟨_, _, by rw [htype]; rfl⟩

/-- Its type is one of those with a name. -/
theorem Conventional.named (h : Conventional ux) : ∀ n, ux.utType ≠ .unnamed n := by
  intro n hn
  rcases h.kind with hevent | hprocess
  · obtain ⟨line, name, hstrings⟩ := hevent.isSpecial
    rw [hn] at hstrings
    cases hstrings
  · have hisProcess := hprocess.isProcess
    rw [hn] at hisProcess
    cases hisProcess

/-- Its pid is not negative. -/
theorem Conventional.pid_nonneg (h : Conventional ux) : 0 ≤ ux.utPid.toInt := by
  rcases h.pid with hzero | ⟨hpos, -⟩
  · rw [hzero]
    decide
  · exact hpos.le

/-- The line, the id and the user of a record that comes back. -/
structure SameKind (ux x : Utmpx) : Prop where
  type : x.utType = ux.utType
  line : x.utLine.str = ux.utLine.str
  id : x.utId.str = ux.utId.str
  user : x.utUser.str = ux.utUser.str

/-- An event is stored as its line and its name. -/
theorem ConventionalEvent.stored (hevent : ConventionalEvent ux)
    (h : utmpxToUtmp abi ux u = .ok (some v)) :
    specialStrings ux.utType = some (v.utLine.str, v.utName.str) := by
  obtain ⟨w, hkind, hline, hname, -, -⟩ := utmpxToUtmp_eq_some h
  obtain ⟨line, name, hstrings⟩ := hevent.isSpecial
  obtain ⟨w', hkind', rfl, rfl⟩ := storeKind_special (u := u) hstrings
  rw [hkind, Option.some.injEq] at hkind'
  rw [hstrings, hline, hname, hkind']

/-- The kind of an event comes back. -/
theorem ConventionalEvent.sameKind (hevent : ConventionalEvent ux)
    (h : utmpxToUtmp abi ux u = .ok (some v)) (hreads : Reads abi v x) : SameKind ux x := by
  have hstored := hevent.stored h
  obtain hspecial | hprocess := hreads.kind
  · refine ⟨specialStrings_inj hspecial.strings hstored, ?_, ?_, ?_⟩
    · rw [hspecial.line, hevent.line]
      rfl
    · rw [hspecial.id, hevent.id]
      rfl
    · rw [hspecial.user, hevent.user]
      rfl
  · exact absurd (isSpecialLine_of_specialStrings hstored) hprocess.notSpecial

/-- The name of a process is stored, and it gives its type and its user back. -/
theorem ConventionalProcess.stored_name (hprocess : ConventionalProcess ux)
    (h : utmpxToUtmp abi ux u = .ok (some v)) :
    v.utName.str = processName ux.utType ux.utUser.str ∧ processType v = ux.utType := by
  obtain ⟨w, hkind, -, hname, -, -⟩ := utmpxToUtmp_eq_some h
  obtain ⟨name, hstore, hcut⟩ := storeKind_process (u := u) hprocess.isProcess
  rw [hkind, Option.some.injEq] at hstore
  subst hstore
  have hstored : v.utName.str = processName ux.utType (cut ux.utUser.bytes UT_NAMESIZE) := by
    rw [hname, ← hcut]
    exact ByteField.str_strncpy_full _ _
  have huser : ux.utType = .USER_PROCESS → cut ux.utUser.bytes UT_NAMESIZE = ux.utUser.str :=
    fun htype => CString.cut_eq_upToNul (hprocess.user htype).2.1
  have hsame : v.utName.str = processName ux.utType ux.utUser.str := by
    rw [hstored]
    cases htype : ux.utType with
    | USER_PROCESS => exact huser htype
    | INIT_PROCESS => rfl
    | LOGIN_PROCESS => rfl
    | DEAD_PROCESS => rfl
    | _ =>
        have hisProcess := hprocess.isProcess
        rw [htype] at hisProcess
        cases hisProcess
  refine ⟨hsame, processType_eq hprocess.isProcess hsame fun htype => ?_⟩
  obtain ⟨hne, -, hinit, hlogin⟩ := hprocess.user htype
  exact ⟨hne, hinit, hlogin⟩

/-- The first bytes of the line that is stored for a process without one are its id. -/
theorem take_line_of_id (hprocess : ConventionalProcess ux) (hline : ux.utLine.str = lit "")
    (h : utmpxToUtmp abi ux u = .ok (some v)) :
    v.utLine.str.chars.take UTX_IDSIZE = ux.utId.str.chars := by
  obtain ⟨w, hkind, hwline, -, -, -⟩ := utmpxToUtmp_eq_some h
  obtain ⟨name, hstore, -⟩ := storeKind_process (u := u) hprocess.isProcess
  rw [hkind, Option.some.injEq] at hstore
  have hbytes : v.utLine.bytes.take UTX_IDSIZE = strncpyBytes ux.utId.bytes UTX_IDSIZE := by
    rw [hwline, hstore, storeProcess_id (by rw [hline]; rfl)]
    exact List.take_left' (CString.length_strncpyBytes _ _)
  have hcut : cut v.utLine.bytes UTX_IDSIZE = ux.utId.str := by
    rw [cut, hbytes, CString.upToNul_strncpyBytes, ByteField.cut_bytes]
  rw [← hcut, CString.chars_cut, ByteField.str]

/-- The line of a process with one is stored as it is. -/
theorem line_of_line (hprocess : ConventionalProcess ux) (hne : ux.utLine.str.strlen ≠ 0)
    (hlen : ux.utLine.str.strlen ≤ UT_LINESIZE) (h : utmpxToUtmp abi ux u = .ok (some v)) :
    v.utLine.str = ux.utLine.str := by
  obtain ⟨w, hkind, hwline, -, -, -⟩ := utmpxToUtmp_eq_some h
  obtain ⟨name, hstore, -⟩ := storeKind_process (u := u) hprocess.isProcess
  rw [hkind, Option.some.injEq] at hstore
  rw [hwline, hstore, storeProcess_line hne]
  exact CString.cut_eq_upToNul hlen

/-- The line of a process is stored so that it gives the line and the id back. -/
theorem ConventionalProcess.stored_line (hprocess : ConventionalProcess ux)
    (h : utmpxToUtmp abi ux u = .ok (some v)) :
    v.utLine.str.strlen ≠ 0 ∧ ¬ IsSpecialLine v.utLine.str ∧
      (if IsTty v.utLine.str then v.utLine.str else lit "") = ux.utLine.str ∧
      (if IsTty v.utLine.str then v.utLine.str.chars.drop 3 else v.utLine.str.chars).take
        UTX_IDSIZE = ux.utId.str.chars := by
  rcases hprocess.line with ⟨suffix, hchars, hlen, hid⟩ | ⟨hline, hne, htty, hspecial⟩
  · have hthree : 3 ≤ ux.utLine.str.strlen := by
      rw [CString.strlen, hchars, List.length_append]
      exact Nat.le_add_right _ _
    have htty : IsTty ux.utLine.str := ⟨suffix, hchars.symm⟩
    have hdrop : ux.utLine.str.chars.drop 3 = suffix := by
      rw [hchars]
      rfl
    rw [line_of_line hprocess (by omega) hlen h, if_pos htty, if_pos htty, hdrop]
    refine ⟨by omega, ?_, rfl, hid.symm⟩
    rintro (hlit | hlit | hlit)
    all_goals
      rw [hlit] at hthree
      exact absurd hthree (by decide)
  · have htake := take_line_of_id hprocess hline h
    have hnot : ¬ IsTty v.utLine.str := by
      have hprefix : v.utLine.str.chars.take 3 = ux.utId.str.chars.take 3 := by
        rw [← htake, List.take_take]
        rfl
      rwa [isTty_iff, hprefix, ← isTty_iff]
    -- A line of fewer bytes than the id has room for is the id.
    have hshort : ∀ s : CString, s.strlen < UTX_IDSIZE → v.utLine.str = s → ux.utId.str = s := by
      intro s hs heq
      ext1
      rw [← htake, heq, List.take_of_length_le hs.le]
    rw [if_neg hnot, if_neg hnot]
    refine ⟨fun hzero => hne ?_, ?_, hline.symm, htake⟩
    · have hnil : v.utLine.str = lit "" := CString.ext (List.length_eq_zero_iff.mp hzero)
      exact hshort _ (by decide) hnil
    · rintro (hlit | hlit | hlit)
      · exact hspecial (.inl (hshort _ (by decide) hlit))
      · exact hspecial (.inr (.inl (hshort _ (by decide) hlit)))
      · exact hspecial (.inr (.inr (hshort _ (by decide) hlit)))

/-- The kind of a process comes back. -/
theorem ConventionalProcess.sameKind (hconv : ConventionalProcess ux)
    (h : utmpxToUtmp abi ux u = .ok (some v)) (hreads : Reads abi v x) : SameKind ux x := by
  obtain ⟨hname, htype⟩ := hconv.stored_name h
  obtain ⟨-, hnotSpecial, hline, hid⟩ := hconv.stored_line h
  have hprocess : ReadsProcess v x :=
    hreads.kind.resolve_left fun hspecial => hnotSpecial hspecial.isSpecialLine
  have hxtype : x.utType = ux.utType := hprocess.type.trans htype
  refine ⟨hxtype, hprocess.line.trans hline, CString.ext (hprocess.id.trans hid), ?_⟩
  rw [hprocess.user, hxtype, hname]
  cases hux : ux.utType with
  | INIT_PROCESS => exact (hconv.noUser (.inl hux)).symm
  | DEAD_PROCESS => exact (hconv.noUser (.inr hux)).symm
  | LOGIN_PROCESS => exact (hconv.loginUser hux).symm
  | USER_PROCESS => rfl
  | _ =>
      have hisProcess := hconv.isProcess
      rw [hux] at hisProcess
      cases hisProcess

/-- It is not an empty record. -/
theorem Conventional.type_ne_empty (hconv : Conventional ux) : ux.utType ≠ .EMPTY := by
  intro htype
  rcases hconv.kind with hevent | hprocess
  · obtain ⟨line, name, hstrings⟩ := hevent.isSpecial
    rw [htype] at hstrings
    cases hstrings
  · have hisProcess := hprocess.isProcess
    rw [htype] at hisProcess
    cases hisProcess

/-- A conventional record is stored with a line, and as one that can be read. -/
theorem Conventional.stored_line (hconv : Conventional ux)
    (hv : utmpxToUtmp abi ux u = .ok (some v)) :
    v.utLine.str.strlen ≠ 0 ∧ (¬ IsSpecialLine v.utLine.str ∨
      ∃ t, specialStrings t = some (v.utLine.str, v.utName.str)) := by
  rcases hconv.kind with hevent | hprocess
  · have hstored := hevent.stored hv
    refine ⟨?_, .inr ⟨_, hstored⟩⟩
    rcases isSpecialLine_of_specialStrings hstored with hlit | hlit | hlit <;> rw [hlit] <;>
      decide
  · obtain ⟨hne, hspecial, -, -⟩ := hprocess.stored_line hv
    exact ⟨hne, .inl hspecial⟩

/-- A conventional record is stored and read back, with another process id at most. -/
theorem Conventional.exists_read (hconv : Conventional ux) (abi : Abi) (u : Utmp) :
    ∃ v x, utmpxToUtmp abi ux u = .ok (some v) ∧ utmpToUtmpx abi v = some x ∧ SameKind ux x ∧
      Reads abi v x ∧ v.utHost.str = ux.utHost.str ∧ v.utTime = ux.tvSec.toInt ∧
      hiddenPid abi v = ux.utPid := by
  obtain ⟨v, hv⟩ := @exists_utmpxToUtmp_eq abi ux u hconv.named hconv.host
    hconv.pid_nonneg
  obtain ⟨w, hkind, hline, hname, htime, hpid⟩ := utmpxToUtmp_eq_some hv
  have hhost : w.utHost.str = ux.utHost.str := by
    rw [storeKind_host_str hkind, hostSource, if_neg hconv.type_ne_empty]
    exact CString.cut_eq_upToNul hconv.host.le
  obtain ⟨hne, hreadable⟩ := hconv.stored_line hv
  obtain ⟨x, hx⟩ := Option.isSome_iff_exists.mp
    ((@utmpToUtmpx_isSome_iff abi _).mpr (.inr hreadable))
  have hreads := reads_of_not_empty hx fun hempty => hne (isEmpty_iff.mp hempty).1
  have hsame : SameKind ux x := by
    rcases hconv.kind with hevent | hprocess
    · exact hevent.sameKind hv hreads
    · exact hprocess.sameKind hv hreads
  refine ⟨v, x, hv, hx, hsame, hreads, (hidePid_str hpid).trans hhost, htime, ?_⟩
  exact hiddenPid_of_hidePid (storeKind_host hkind).1 (hhost ▸ hconv.host) (hhost ▸ hconv.pid) hpid

/-- What is read back is equal when the process id is. -/
theorem Conventional.equal_iff (hconv : Conventional ux) (hsame : SameKind ux x)
    (hreads : Reads abi v x) (hhost : v.utHost.str = ux.utHost.str)
    (htime : v.utTime = ux.tvSec.toInt) : utmpxEqual x ux = true ↔ x.utPid = ux.utPid := by
  obtain ⟨hterm, hexit, hsession, husec, haddr⟩ := hconv.rest
  obtain ⟨hxterm, hxexit, hxsession, hxusec, hxaddr⟩ := hreads.rest
  rw [utmpxEqual_iff]
  refine ⟨fun h => h.2.1, fun hpid => ⟨hsame.type, hpid, hsame.line, hsame.id, hsame.user, ?_,
    ?_, ?_, ?_, ?_, ?_, ?_⟩⟩
  · rw [hreads.host, hhost]
  · rw [hxterm, hterm]
  · rw [hxexit, hexit]
  · rw [hxsession, hsession]
  · rw [hreads.time, htime, Int32.ofInt_toInt]
  · rw [hxusec, husec]
  · rw [hxaddr, haddr]

/-- The process id is read back unless it stands behind a host of 14 bytes. -/
theorem Conventional.pid_back_iff (hconv : Conventional ux) (hreads : Reads abi v x)
    (hhost : v.utHost.str = ux.utHost.str) (hhidden : hiddenPid abi v = ux.utPid) :
    x.utPid = ux.utPid ↔ ¬ (ux.utHost.str.strlen = UT_HOSTSIZE - 2 ∧ ux.utPid ≠ 0) := by
  rw [hreads.pid, hhost, hhidden]
  -- Behind a host of 15 bytes no digit fits.
  have hroom : UT_HOSTSIZE - 2 < ux.utHost.str.strlen → ux.utPid = 0 := by
    intro hlong
    rcases hconv.pid with hzero | ⟨-, hfit⟩
    · exact hzero
    · have hdigit := strlen_decimal_pos ux.utPid.toInt.toNat
      omega
  split_ifs with hshort
  · exact iff_of_true rfl fun h => hshort.ne h.1
  · rw [not_and_not_right, eq_comm]
    refine ⟨fun hzero _ => hzero, fun h => ?_⟩
    rcases Nat.lt_or_eq_of_le (Nat.not_lt.mp hshort) with hlong | heq
    · exact hroom hlong
    · exact h heq.symm

end

/-- A conventional record comes back equal exactly when no digit is hidden behind a host of 14
bytes. -/
theorem roundTrip_iff (abi : Abi) {ux : Utmpx} (hconv : Conventional ux) (u : Utmp) :
    (∃ v x, utmpxToUtmp abi ux u = .ok (some v) ∧ utmpToUtmpx abi v = some x ∧
        utmpxEqual x ux = true) ↔
      ¬ (ux.utHost.str.strlen = UT_HOSTSIZE - 2 ∧ ux.utPid ≠ 0) := by
  obtain ⟨v, x, hv, hx, hsame, hreads, hhost, htime, hhidden⟩ := hconv.exists_read abi u
  have hequal := hconv.equal_iff hsame hreads hhost htime
  have hpid := hconv.pid_back_iff hreads hhost hhidden
  rw [← hpid, ← hequal]
  constructor
  · rintro ⟨v', x', hv', hx', heq⟩
    rw [hv, Except.ok.injEq, Option.some.injEq] at hv'
    subst hv'
    rw [hx, Option.some.injEq] at hx'
    rwa [hx']
  · exact fun heq => ⟨v, x, hv, hx, heq⟩

/-- A login on a terminal from a host with this name. -/
def loginFrom (host : String) : Utmpx :=
  { processOn .USER_PROCESS 5 host with
    utLine := .ofString _ (lit "tty1")
    utId := .ofString _ (lit "1")
    utUser := .ofString _ (lit "user")
    tvSec := 1000 }

/-- Such a login is conventional, from any host of up to 14 bytes. -/
theorem loginFrom_conventional {host : String} (hlen : (loginFrom host).utHost.str.strlen ≤ 14) :
    Conventional (loginFrom host) := by
  have huser : (loginFrom host).utUser = .ofString _ (lit "user") := rfl
  have hline : (loginFrom host).utLine = .ofString _ (lit "tty1") := rfl
  have hid : (loginFrom host).utId = .ofString _ (lit "1") := rfl
  have hpid : (loginFrom host).utPid = 5 := rfl
  refine ⟨.inr ⟨rfl, fun h => ?_, fun h => ?_, fun _ => ?_, .inl ⟨[49], ?_⟩⟩, ?_, .inr ⟨?_, ?_⟩,
    ⟨rfl, rfl, rfl, rfl, rfl⟩⟩
  · rcases h with h | h <;> cases h
  · cases h
  · rw [huser]
    decide
  · rw [hline, hid]
    decide
  · exact hlen.trans_lt (by decide)
  · rw [hpid]
    decide
  · -- One digit fits behind a host of 14 bytes.
    have hone : (decimal (5 : Int32).toInt.toNat).strlen = 1 := by decide
    have hsize : UT_HOSTSIZE = 16 := rfl
    rw [hpid, hone]
    omega

/-- The login from a host with a short name comes back. -/
theorem roundTrip_iff_short_host :
    (∃ v x, utmpxToUtmp .lp64 (loginFrom "example.org") (loginOn "") = .ok (some v) ∧
        utmpToUtmpx .lp64 v = some x ∧ utmpxEqual x (loginFrom "example.org") = true) ↔
      ¬ ((loginFrom "example.org").utHost.str.strlen = UT_HOSTSIZE - 2 ∧
        (loginFrom "example.org").utPid ≠ 0) :=
  roundTrip_iff .lp64 (loginFrom_conventional (by decide)) (loginOn "")

/-- The login from a host of 14 bytes loses its process id. -/
theorem roundTrip_loses_pid :
    ¬ ∀ (abi : Abi) (ux : Utmpx) (u : Utmp), Conventional ux →
      ∃ v x, utmpxToUtmp abi ux u = .ok (some v) ∧ utmpToUtmpx abi v = some x ∧
        utmpxEqual x ux = true := by
  intro hround
  obtain ⟨v, x, hv, hx, heq⟩ := hround .lp64 (loginFrom "ab.example.org") (loginOn "")
    (loginFrom_conventional (by decide))
  cases hv
  cases hx
  exact absurd heq (by decide)

end GlibcPorts.UtmpCompat
