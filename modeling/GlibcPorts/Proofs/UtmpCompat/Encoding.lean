import GlibcPorts.Proofs.UtmpCompat.Decoding

/-!
# `GlibcPorts.Proofs.UtmpCompat.Encoding`: what `__utmpx_to_utmp` stores

The conversion to `struct utmp` has two parts. The switch over the type copies strings
(`storeKind`). Then the process id is printed behind the host, if there is room (`hidePid`).

`hidePid_ok_iff` says when the second part stays inside its memory, and `utmpxToUtmp_ok_iff` is
this for the whole function: the switch leaves a host without a NUL when the caller's host fills
the member, and a negative process id has 20 digits when an `unsigned long` has 64 bits.

`Writes` relates the members of both records, for a host that is shorter than its member and a
process id that is not negative.
-/

set_option autoImplicit false

namespace GlibcPorts.UtmpCompat

open Lib
open Lib.CString (cut upToNul strncpyBytes)

/-! ### Numbers -/

/-- A process id that is not negative is itself as an `unsigned long`. -/
theorem ulongOfInt_of_nonneg (abi : Abi) {pid : Int32} (h : 0 ≤ pid.toInt) :
    abi.ulongOfInt pid = pid.toInt.toNat := by
  have hlt : pid.toInt < 2 ^ 31 := pid.toInt_lt
  have hbits : (2 : Int) ^ 31 ≤ 2 ^ abi.longBits := by cases abi <;> decide
  rw [Abi.ulongOfInt, Int.emod_eq_of_lt h (by omega)]

theorem ulongOfInt_le (abi : Abi) (pid : Int32) : abi.ulongOfInt pid ≤ abi.ulongMax := by
  have hpos : (0 : Int) < 2 ^ abi.longBits := by positivity
  have hlt := Int.emod_lt_of_pos pid.toInt hpos
  have hnonneg := Int.emod_nonneg pid.toInt hpos.ne'
  have hcast : ((2 ^ abi.longBits : Nat) : Int) = 2 ^ abi.longBits := by norm_cast
  unfold Abi.ulongOfInt Abi.ulongMax
  omega

/-- Back to an `int`. -/
theorem intOfUlong_ulongOfInt (abi : Abi) {pid : Int32} (h : 0 ≤ pid.toInt) :
    Abi.intOfUlong (abi.ulongOfInt pid) = pid := by
  rw [ulongOfInt_of_nonneg abi h, Abi.intOfUlong, ← Int32.toInt_inj]
  have hlt : pid.toInt < 2 ^ 31 := pid.toInt_lt
  rw [Int32.toInt_ofNat_of_lt (by omega)]
  exact Int.toNat_of_nonneg h

/-- The digits fit their buffer, but for those of a negative number as 64 bits. -/
theorem digits_fit_iff (abi : Abi) (pid : Int32) :
    (decimal (abi.ulongOfInt pid)).bytes.length ≤ DIGITS ↔ 0 ≤ pid.toInt ∨ abi = .ilp32 := by
  have hdigits : (decimal (abi.ulongOfInt pid)).bytes.length ≤ DIGITS ↔
      abi.ulongOfInt pid < 10 ^ 10 := by
    rw [CString.length_bytes, ← strlen_decimal_le_iff (by decide)]
    exact Nat.succ_le_succ_iff
  rw [hdigits]
  have hlt : pid.toInt < 2 ^ 31 := pid.toInt_lt
  have hge : -2 ^ 31 ≤ pid.toInt := pid.le_toInt
  cases abi with
  | ilp32 =>
      have hbits : Abi.ulongOfInt .ilp32 pid = (pid.toInt % 2 ^ 32).toNat := rfl
      simp only [hbits, or_true, iff_true]
      omega
  | lp64 =>
      have hbits : Abi.ulongOfInt .lp64 pid = (pid.toInt % 2 ^ 64).toNat := rfl
      simp only [hbits, reduceCtorEq, or_false]
      omega

/-! ### The hidden process id -/

section HidePid

variable {abi : Abi} {pid : Int32} {host host' : ByteField UT_HOSTSIZE}

/-- The room behind the NUL of a host. -/
def room (host : ByteField UT_HOSTSIZE) : Nat := UT_HOSTSIZE - host.str.strlen - 1

/-- The digits are stored behind the host when there is room. -/
theorem hidePid_eq (hne : pid ≠ 0) (hhost : host.str.strlen < UT_HOSTSIZE)
    (hdigits : (decimal (abi.ulongOfInt pid)).bytes.length ≤ DIGITS) :
    ∃ host', hidePid abi pid host = .ok host' ∧
      ((decimal (abi.ulongOfInt pid)).strlen ≤ room host →
        host'.bytes = host.bytes.take (host.str.strlen + 1) ++
          strncpyBytes (decimal (abi.ulongOfInt pid)).bytes (room host)) ∧
      (¬ (decimal (abi.ulongOfInt pid)).strlen ≤ room host → host' = host) := by
  have hroom : host.str.strlen + 1 + room host = UT_HOSTSIZE := by
    unfold room
    omega
  unfold hidePid
  rw [if_neg hne, ByteField.strlen_eq_ite, if_pos hhost]
  dsimp only
  rw [if_neg (by omega), if_neg (by omega)]
  by_cases hfit : (decimal (abi.ulongOfInt pid)).strlen ≤ room host
  · have hlen : (strncpyBytes (decimal (abi.ulongOfInt pid)).bytes (room host)).length =
        room host := CString.length_strncpyBytes _ _
    obtain ⟨g, hg, hbytes⟩ := @ByteField.store_of_le UT_HOSTSIZE host (host.str.strlen + 1)
      (strncpyBytes (decimal (abi.ulongOfInt pid)).bytes (room host)) (by rw [hlen, hroom])
    unfold room at hfit hg
    rw [if_pos hfit, hg]
    refine ⟨g, rfl, fun _ => ?_, fun hnot => absurd hfit hnot⟩
    -- The copy reaches the end of the member.
    rw [hbytes, hlen, hroom, List.drop_eq_nil_of_le host.length_bytes.le, List.append_nil]
  · exact ⟨host, if_neg hfit, fun h => absurd h hfit, fun _ => rfl⟩

/-- When the second part stays inside its memory. -/
theorem hidePid_ok_iff :
    (∃ host', hidePid abi pid host = .ok host') ↔
      pid = 0 ∨ (host.str.strlen < UT_HOSTSIZE ∧ (0 ≤ pid.toInt ∨ abi = .ilp32)) := by
  by_cases hzero : pid = 0
  · simp only [hidePid, hzero, if_true, true_or, iff_true]
    exact ⟨host, rfl⟩
  rw [or_iff_right hzero, ← digits_fit_iff]
  constructor
  · rintro ⟨host', h⟩
    unfold hidePid at h
    rw [if_neg hzero, ByteField.strlen_eq_ite] at h
    by_cases hhost : host.str.strlen < UT_HOSTSIZE
    · refine ⟨hhost, ?_⟩
      by_contra hdigits
      rw [if_pos hhost] at h
      dsimp only at h
      rw [if_neg (by omega), if_pos (by omega)] at h
      cases h
    · rw [if_neg hhost] at h
      cases h
  · rintro ⟨hhost, hdigits⟩
    obtain ⟨host', h, -⟩ := hidePid_eq hzero hhost hdigits
    exact ⟨host', h⟩

end HidePid

/-! ### The switch -/

section Switch

variable {abi : Abi} {ux : Utmpx} {u v : Utmp}

/-- The bytes that the switch copies into the host. -/
def hostSource (ux : Utmpx) : List UInt8 :=
  if ux.utType = .EMPTY then literal "" else ux.utHost.bytes

theorem storeKind_eq_none_iff : storeKind ux u = none ↔ ∃ n, ux.utType = .unnamed n := by
  unfold storeKind
  split <;> simp_all

/-- What the switch leaves in the host and in the time. -/
theorem storeKind_host (h : storeKind ux u = some v) :
    v.utHost = u.utHost.strncpy (hostSource ux) UT_HOSTSIZE le_rfl ∧ v.utTime = u.utTime := by
  unfold storeKind at h
  unfold hostSource
  cases htype : ux.utType <;> rw [htype] at h <;> cases h <;> exact ⟨rfl, rfl⟩

theorem storeKind_host_str (h : storeKind ux u = some v) :
    v.utHost.str = cut (hostSource ux) UT_HOSTSIZE := by
  rw [(storeKind_host h).1, ByteField.str_strncpy_full]

/-- The host that the switch leaves has a NUL if the record is empty or the caller's host is
shorter than the member. -/
theorem strlen_hostSource_lt_iff :
    (cut (hostSource ux) UT_HOSTSIZE).strlen < UT_HOSTSIZE ↔
      ux.utType = .EMPTY ∨ ux.utHost.str.strlen < UT_HOSTSIZE := by
  unfold hostSource
  by_cases hempty : ux.utType = .EMPTY
  · rw [if_pos hempty]
    exact iff_of_true (by decide) (.inl hempty)
  · rw [if_neg hempty, or_iff_right hempty, CString.strlen_cut, ByteField.str]
    omega

/-- `__utmpx_to_utmp` stays inside what it was given exactly when the type has no name, there is
no process id, or the host has a NUL and the digits fit their buffer. -/
theorem utmpxToUtmp_ok_iff (abi : Abi) (ux : Utmpx) (u : Utmp) :
    (∃ r, utmpxToUtmp abi ux u = .ok r) ↔
      (∃ n, ux.utType = .unnamed n) ∨ ux.utPid = 0 ∨
        ((ux.utType = .EMPTY ∨ ux.utHost.str.strlen < UT_HOSTSIZE) ∧
          (0 ≤ ux.utPid.toInt ∨ abi = .ilp32)) := by
  unfold utmpxToUtmp
  cases hkind : storeKind ux u with
  | none => exact iff_of_true ⟨none, rfl⟩ (.inl (storeKind_eq_none_iff.mp hkind))
  | some v =>
      have hnamed : ¬ ∃ n, ux.utType = .unnamed n := fun h => by
        rw [storeKind_eq_none_iff.mpr h] at hkind
        cases hkind
      rw [or_iff_right hnamed, ← strlen_hostSource_lt_iff, ← storeKind_host_str hkind,
        ← hidePid_ok_iff]
      dsimp only
      constructor
      · rintro ⟨r, hr⟩
        cases hpid : hidePid abi ux.utPid v.utHost with
        | error fault => rw [hpid] at hr; cases hr
        | ok host => exact ⟨host, rfl⟩
      · rintro ⟨host, hhost⟩
        rw [hhost]
        exact ⟨_, rfl⟩

/-- A `struct utmpx` with nothing but a type, a process id and a host. -/
def processOn (type : UtType) (pid : Int32) (host : String) : Utmpx :=
  { Utmpx.zero with utType := type, utPid := pid, utHost := .ofString _ (lit host) }

/-- A host of 16 letters leaves no NUL for `strlen`. -/
theorem utmpxToUtmp_leaves_bounds :
    ¬ ∀ (abi : Abi) (ux : Utmpx) (u : Utmp), ∃ r, utmpxToUtmp abi ux u = .ok r := by
  intro hok
  have hfault : utmpxToUtmp .lp64 (processOn .DEAD_PROCESS 1 "host.example.org")
      ⟨.zero _, .zero _, .zero _, 0⟩ = .error .readBehindHost := rfl
  obtain ⟨r, hr⟩ := hok .lp64 (processOn .DEAD_PROCESS 1 "host.example.org")
    ⟨.zero _, .zero _, .zero _, 0⟩
  rw [hfault] at hr
  cases hr

-- The 64-bit number of the process id -1 has 20 digits.
example : utmpxToUtmp .lp64 (processOn .DEAD_PROCESS (-1) "host") ⟨.zero _, .zero _, .zero _, 0⟩ =
    .error .writeBehindDigits := rfl

/-- The strings that the switch stores for a type that is not a process. -/
theorem storeKind_special {line name : CString}
    (h : specialStrings ux.utType = some (line, name)) :
    ∃ v, storeKind ux u = some v ∧ v.utLine.str = line ∧ v.utName.str = name := by
  unfold storeKind
  cases htype : ux.utType <;> rw [htype] at h <;> cases h <;>
    exact ⟨_, rfl, ByteField.str_strncpy_full _ _, ByteField.str_strncpy_full _ _⟩

/-- The name that the switch stores for a process. -/
theorem storeKind_process (h : ux.utType.isProcess = true) :
    ∃ name, storeKind ux u = some (storeProcess ux u name) ∧
      cut name UT_NAMESIZE = processName ux.utType (cut ux.utUser.bytes UT_NAMESIZE) := by
  unfold storeKind
  cases htype : ux.utType <;> rw [htype] at h <;> first | exact ⟨_, rfl, rfl⟩ | cases h

/-- The line that the switch stores for a process with a line. -/
theorem storeProcess_line {name : List UInt8} (h : ux.utLine.str.strlen ≠ 0) :
    (storeProcess ux u name).utLine.str = cut ux.utLine.bytes UT_LINESIZE := by
  have hget : ux.utLine.get (0 : Fin 32) ≠ 0 := fun hzero =>
    h ((ByteField.get_zero_eq_iff (n := 31) ux.utLine).mp hzero)
  simp only [storeProcess, ne_eq, hget, not_false_eq_true, if_true]
  exact ByteField.str_strncpy_full _ _

/-- For a process without a line the id stands at the start of the line that was there. -/
theorem storeProcess_id {name : List UInt8} (h : ux.utLine.str.strlen = 0) :
    (storeProcess ux u name).utLine =
      u.utLine.strncpy ux.utId.bytes UTX_IDSIZE (by decide) := by
  have hget : ux.utLine.get (0 : Fin 32) = 0 :=
    (ByteField.get_zero_eq_iff (n := 31) ux.utLine).mpr h
  simp only [storeProcess, hget, ne_eq, not_true_eq_false, if_false]

/-- A process without a line leaves the end of the line that was there. -/
def KeepsOldLine (ux : Utmpx) : Prop := ux.utType.isProcess = true ∧ ux.utLine.str.strlen = 0

/-- Otherwise nothing but the time stays of what was there. -/
theorem storeKind_prior (h : ¬ KeepsOldLine ux) (t : Int) :
    (storeKind ux u).map (fun w => { w with utTime := t }) =
      (storeKind ux v).map fun w => { w with utTime := t } := by
  have hstrings : ∀ line name host, { storeStrings u line name host with utTime := t } =
      { storeStrings v line name host with utTime := t } := by
    intro line name host
    simp only [storeStrings, ByteField.strncpy_full u.utLine v.utLine,
      ByteField.strncpy_full u.utName v.utName, ByteField.strncpy_full u.utHost v.utHost]
  have hprocess : ux.utType.isProcess = true → ∀ name,
      { storeProcess ux u name with utTime := t } =
        { storeProcess ux v name with utTime := t } := by
    intro htype name
    have hget : ux.utLine.get (0 : Fin 32) ≠ 0 := fun hzero =>
      h ⟨htype, (ByteField.get_zero_eq_iff (n := 31) ux.utLine).mp hzero⟩
    simp only [storeProcess, ne_eq, hget, not_false_eq_true, if_true,
      ByteField.strncpy_full u.utLine v.utLine, ByteField.strncpy_full u.utName v.utName,
      ByteField.strncpy_full u.utHost v.utHost]
  unfold storeKind
  cases htype : ux.utType <;> first
    | rfl
    | exact congrArg some (hstrings _ _ _)
    | exact congrArg some (hprocess (by rw [htype]; rfl) _)

/-! ### The whole record -/

/-- The conversion starts from the record before the call through the switch only. -/
theorem utmpxToUtmp_congr
    (h : (storeKind ux u).map (fun w => { w with utTime := ux.tvSec.toInt }) =
      (storeKind ux v).map fun w => { w with utTime := ux.tvSec.toInt }) :
    utmpxToUtmp abi ux u = utmpxToUtmp abi ux v := by
  unfold utmpxToUtmp
  cases hu : storeKind ux u <;> cases hv : storeKind ux v <;> rw [hu, hv] at h
  · cases h
  · cases h
  · rename_i w w'
    have hw : { w with utTime := ux.tvSec.toInt } = { w' with utTime := ux.tvSec.toInt } :=
      Option.some.inj h
    exact congrArg (fun s : Utmp => (hidePid abi ux.utPid s.utHost).map fun host =>
      some { s with utHost := host }) hw

/-- The conversion succeeds for a host that is shorter than its member and a process id that is not
negative. -/
theorem exists_utmpxToUtmp_eq (hnamed : ∀ n, ux.utType ≠ .unnamed n)
    (hhost : ux.utHost.str.strlen < UT_HOSTSIZE) (hpid : 0 ≤ ux.utPid.toInt) :
    ∃ v, utmpxToUtmp abi ux u = .ok (some v) := by
  unfold utmpxToUtmp
  cases hkind : storeKind ux u with
  | none =>
      obtain ⟨n, hn⟩ := storeKind_eq_none_iff.mp hkind
      exact absurd hn (hnamed n)
  | some w =>
      have hlen : w.utHost.str.strlen < UT_HOSTSIZE := by
        rw [storeKind_host_str hkind, strlen_hostSource_lt_iff]
        exact .inr hhost
      obtain ⟨host, hok⟩ := (@hidePid_ok_iff abi _ _).mpr (.inr ⟨hlen, .inl hpid⟩)
      refine ⟨{ w with utTime := ux.tvSec.toInt, utHost := host }, ?_⟩
      dsimp only
      rw [hok]
      rfl

/-- The parts of a successful conversion. -/
theorem utmpxToUtmp_eq_some (h : utmpxToUtmp abi ux u = .ok (some v)) :
    ∃ w, storeKind ux u = some w ∧ v.utLine = w.utLine ∧ v.utName = w.utName ∧
      v.utTime = ux.tvSec.toInt ∧ hidePid abi ux.utPid w.utHost = .ok v.utHost := by
  unfold utmpxToUtmp at h
  cases hkind : storeKind ux u with
  | none => rw [hkind] at h; cases h
  | some w =>
      rw [hkind] at h
      dsimp only at h
      cases hpid : hidePid abi ux.utPid w.utHost with
      | error fault => rw [hpid] at h; cases h
      | ok host =>
          rw [hpid] at h
          cases h
          exact ⟨w, rfl, rfl, rfl, rfl, hpid⟩

/-- Hiding the process id keeps the host. -/
theorem hidePid_str {pid : Int32} {host host' : ByteField UT_HOSTSIZE}
    (h : hidePid abi pid host = .ok host') : host'.str = host.str := by
  by_cases hzero : pid = 0
  · rw [hidePid, if_pos hzero] at h
    cases h
    rfl
  obtain ⟨hlen, hdigits⟩ := (hidePid_ok_iff.mp ⟨host', h⟩).resolve_left hzero
  obtain ⟨g, hg, hfit, hnot⟩ := hidePid_eq hzero hlen ((digits_fit_iff abi pid).mpr hdigits)
  rw [hg] at h
  cases h
  by_cases hroom : (decimal (abi.ulongOfInt pid)).strlen ≤ room host
  · obtain ⟨tail, htail⟩ := CString.exists_eq_bytes_append
      ((ByteField.strlen_str_lt_iff host).mp hlen)
    have htake : host.bytes.take (host.str.strlen + 1) = host.str.bytes := by
      conv_lhs => rw [htail]
      exact List.take_left' (CString.length_bytes _)
    rw [ByteField.str, hfit hroom, htake, CString.upToNul_bytes_append]
  · rw [hnot hroom]

end Switch

end GlibcPorts.UtmpCompat
