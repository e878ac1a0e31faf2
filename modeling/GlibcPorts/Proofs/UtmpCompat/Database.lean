import GlibcPorts.UtmpCompat.Database
import GlibcPorts.Proofs.UtmpCompat.Encoding
import GlibcPorts.Proofs.UtmpCompat.Injectivity

/-!
# `GlibcPorts.Proofs.UtmpCompat.Database`: what is stored and what is found

`searchUtx_eq_find` is what the loops of `getutxid` and `getutxline` do: they find the first
record that is selected among those that can be converted.

`getutxline_after_pututxline_iff` follows a login from `pututxline` into the database and back out
through `getutxline`. It is found by its line exactly when the line starts with `tty`: for another
line `__utmp_to_utmpx` gives no line at all.

`stored_only_from_utmpx_iff` is about the variables without a value that `pututxline` and
`updwtmpx` convert into. For a process without a line the conversion copies the four bytes of the
id into the eight bytes of the line, and the other four are what was there.
-/

set_option autoImplicit false

namespace GlibcPorts.UtmpCompat

open Lib
open Lib.CString (cut upToNul strncmpEq_iff)

/-! ### Searching -/

section Search

variable {abi : Abi} {selects : Utmpx → Bool}

/-- One turn of the loops. -/
theorem searchUtx_eq (abi : Abi) (selects : Utmpx → Bool) (db : List Utmp) :
    searchUtx abi selects db =
      (getutxent abi db).bind fun found =>
        if selects found.1 then some found else searchUtx abi selects found.2 := by
  rw [searchUtx]
  split
  · rename_i hnone
    rw [hnone, Option.bind_none]
  · rename_i next rest hsome
    have hbind : ∀ f : Utmpx × List Utmp → Option (Utmpx × List Utmp),
        (getutxent abi db).bind f = f (next, rest) := fun f => by rw [hsome, Option.bind_some]
    rw [hbind]

/-- One record of the database: the loops pass over what cannot be converted. -/
theorem searchUtx_cons (abi : Abi) (selects : Utmpx → Bool) (tmp : Utmp) (rest : List Utmp) :
    searchUtx abi selects (tmp :: rest) =
      match utmpToUtmpx abi tmp with
      | none => searchUtx abi selects rest
      | some x => if selects x then some (x, rest) else searchUtx abi selects rest := by
  rw [searchUtx_eq, getutxent]
  cases htmp : utmpToUtmpx abi tmp with
  | none => exact (searchUtx_eq abi selects rest).symm
  | some x => rfl

/-- The loops find the first record that is selected. -/
theorem searchUtx_eq_find (abi : Abi) (selects : Utmpx → Bool) (db : List Utmp) :
    (searchUtx abi selects db).map Prod.fst = (db.filterMap (utmpToUtmpx abi)).find? selects := by
  induction db with
  | nil =>
      rw [searchUtx]
      rfl
  | cons tmp rest ih =>
      rw [searchUtx_cons]
      cases htmp : utmpToUtmpx abi tmp with
      | none =>
          rw [List.filterMap_cons_none htmp]
          exact ih
      | some x =>
          rw [List.filterMap_cons_some htmp]
          dsimp only
          split_ifs with hsel
          · rw [List.find?_cons_of_pos hsel]
            rfl
          · rw [List.find?_cons_of_neg hsel]
            exact ih

end Search

/-! ### Finding a login by its line -/

/-- A login on a line: what the conversion to `struct utmp` can keep of it. -/
structure IsLogin (ux : Utmpx) : Prop where
  type : ux.utType = .LOGIN_PROCESS ∨ ux.utType = .USER_PROCESS
  line_ne : ux.utLine.str.strlen ≠ 0
  line_le : ux.utLine.str.strlen ≤ UT_LINESIZE - 1
  line_plain : ¬ IsSpecialLine ux.utLine.str
  user_ne : ux.utUser.str ≠ lit ""
  user_plain : ux.utType = .USER_PROCESS → ux.utUser.str ≠ lit "INIT" ∧ ux.utUser.str ≠ lit "LOGIN"
  host : ux.utHost.str.strlen < UT_HOSTSIZE

/-- `__pututline` stores the record it is given, and returns it, when it returns a record. -/
def StoresRecord (pututline : Pututline) : Prop :=
  ∀ db u r db', pututline db u = (some r, db') → r = u ∧ u ∈ db'

section Line

variable {abi : Abi} {ux res : Utmpx} {u v : Utmp} {db db' : List Utmp} {pututline : Pututline}

theorem selectsLine_iff {line next : Utmpx} :
    selectsLine line next = true ↔
      (next.utType = .LOGIN_PROCESS ∨ next.utType = .USER_PROCESS) ∧
        next.utLine.str = line.utLine.str := by
  rw [selectsLine, Bool.and_eq_true, Bool.or_eq_true, decide_eq_true_iff, decide_eq_true_iff,
    strncmpEq_iff, ByteField.cut_bytes, ByteField.cut_bytes]

theorem IsLogin.isProcess (h : IsLogin ux) : ux.utType.isProcess = true := by
  rcases h.type with htype | htype <;> rw [htype] <;> rfl

/-- A string that a bound cuts is longer than the bound. -/
theorem cut_ne {bs : List UInt8} {k : Nat} {s : CString} (h : upToNul bs ≠ s)
    (hs : s.strlen < k) : cut bs k ≠ s := by
  intro hcut
  have hlen := congrArg CString.strlen hcut
  rw [CString.strlen_cut] at hlen
  exact h ((CString.cut_eq_upToNul (by omega)).symm.trans hcut)

/-- The line, the name and the type of the record that is stored for a login. -/
theorem stored_of_login (hlogin : IsLogin ux) (h : utmpxToUtmp abi ux u = .ok (some v)) :
    v.utLine.str = ux.utLine.str ∧ processType v = ux.utType := by
  obtain ⟨w, hkind, hline, hname, -, -⟩ := utmpxToUtmp_eq_some h
  obtain ⟨name, hprocess, hcut⟩ := storeKind_process (u := u) hlogin.isProcess
  rw [hkind, Option.some.injEq] at hprocess
  subst hprocess
  have hle := hlogin.line_le
  refine ⟨?_, @processType_eq v ux.utType (cut ux.utUser.bytes UT_NAMESIZE) hlogin.isProcess ?_ ?_⟩
  · rw [hline, storeProcess_line hlogin.line_ne]
    exact CString.cut_eq_upToNul (hle.trans (by decide))
  · rw [hname, ← hcut]
    exact ByteField.str_strncpy_full _ _
  · intro huser
    obtain ⟨hinit, hlogin'⟩ := hlogin.user_plain huser
    exact ⟨cut_ne hlogin.user_ne (by decide), cut_ne hinit (by decide), cut_ne hlogin' (by decide)⟩

/-- What `pututxline` returns is the conversion of a record in the database. -/
theorem pututxline_stores (hput : StoresRecord pututline)
    (h : pututxline abi pututline db u ux = .ok (some res, db')) :
    ∃ v ∈ db', utmpxToUtmp abi ux u = .ok (some v) ∧ utmpToUtmpx abi v = some res := by
  unfold pututxline at h
  cases hconv : utmpxToUtmp abi ux u with
  | error fault => rw [hconv] at h; cases h
  | ok stored =>
      cases stored with
      | none => rw [hconv] at h; cases h
      | some v =>
          rw [hconv] at h
          dsimp only at h
          cases hres : pututline db v with
          | mk r after =>
              rw [hres] at h
              cases r with
              | none => cases h
              | some r =>
                  obtain ⟨rfl, hmem⟩ := hput db v r after hres
                  rw [Except.ok.injEq, Prod.mk.injEq] at h
                  obtain ⟨hback, rfl⟩ := h
                  exact ⟨r, hmem, rfl, hback⟩

/-- A line in the new format starts with `tty`. -/
theorem isTty_of_line (h : utmpToUtmpx abi v = some res) (hne : res.utLine.str.strlen ≠ 0) :
    IsTty res.utLine.str := by
  obtain ⟨-, rfl⟩ | ⟨-, hreads⟩ := utmpToUtmpx_cases h
  · exact absurd rfl hne
  obtain hspecial | hprocess := hreads.kind
  · rw [hspecial.line] at hne
    exact absurd rfl hne
  · rw [hprocess.line] at hne ⊢
    split_ifs at hne ⊢ with htty
    · exact htty
    · exact absurd rfl hne

end Line

/-- After `pututxline` has stored a login, `getutxline` finds its line from the start of the
database exactly when the line starts with `tty`. -/
theorem getutxline_after_pututxline_iff {abi : Abi} {pututline : Pututline}
    (hput : StoresRecord pututline) {db db' : List Utmp} {tmp : Utmp} {ux res : Utmpx}
    (hlogin : IsLogin ux) (hres : pututxline abi pututline db tmp ux = .ok (some res, db')) :
    (∃ next rest, getutxline abi db' ux = some (next, rest) ∧
        next.utLine.str = ux.utLine.str) ↔
      IsTty ux.utLine.str := by
  have hfind : (getutxline abi db' ux).map Prod.fst =
      (db'.filterMap (utmpToUtmpx abi)).find? (selectsLine ux) := searchUtx_eq_find abi _ db'
  constructor
  · rintro ⟨next, rest, hget, hline⟩
    rw [hget, Option.map_some] at hfind
    have hmem := List.mem_of_find?_eq_some hfind.symm
    obtain ⟨v, -, hv⟩ := List.mem_filterMap.mp hmem
    rw [← hline]
    exact isTty_of_line hv (hline ▸ hlogin.line_ne)
  · intro htty
    obtain ⟨v, hmem, hconv, hback⟩ := pututxline_stores hput hres
    obtain ⟨hline, htype⟩ := stored_of_login hlogin hconv
    have hreads : Reads abi v res := by
      refine reads_of_not_empty hback fun hempty => hlogin.line_ne ?_
      rw [← hline]
      exact (isEmpty_iff.mp hempty).1
    have hprocess : ReadsProcess v res := hreads.kind.resolve_left fun hspecial =>
      hlogin.line_plain (hline ▸ hspecial.isSpecialLine)
    have hresLine : res.utLine.str = ux.utLine.str := by
      rw [hprocess.line, if_pos (hline ▸ htty), hline]
    -- The stored record is selected, so the search ends at it or before it.
    have hsel : selectsLine ux res = true :=
      selectsLine_iff.mpr ⟨by rw [hprocess.type, htype]; exact hlogin.type, hresLine⟩
    cases hget : getutxline abi db' ux with
    | none =>
        rw [hget, Option.map_none, eq_comm, List.find?_eq_none] at hfind
        exact absurd hsel (hfind res (List.mem_filterMap.mpr ⟨v, hmem, hback⟩))
    | some found =>
        obtain ⟨next, rest⟩ := found
        rw [hget, Option.map_some] at hfind
        exact ⟨next, rest, rfl, (selectsLine_iff.mp (List.find?_some hfind.symm)).2⟩

/-- A database to which every record is added at its end. -/
def appendPututline : Pututline := fun db u => (some u, db ++ [u])

/-- A login of `user` on a line. -/
def userOn (line : String) : Utmpx :=
  { processOn .USER_PROCESS 100 "host" with
    utLine := .ofString _ (lit line)
    utUser := .ofString _ (lit "user") }

theorem appendPututline_stores : StoresRecord appendPututline := by
  intro db u r db' h
  cases h
  exact ⟨rfl, List.mem_append_right _ (List.mem_singleton_self u)⟩

/-- A login on a terminal is found by its line. -/
theorem getutxline_after_pututxline_tty :
    ∃ res db', pututxline .lp64 appendPututline [] (loginOn "") (userOn "tty1") =
        .ok (some res, db') ∧
      ((∃ next rest, getutxline .lp64 db' (userOn "tty1") = some (next, rest) ∧
          next.utLine.str = (userOn "tty1").utLine.str) ↔
        IsTty (userOn "tty1").utLine.str) := by
  have hlogin : IsLogin (userOn "tty1") :=
    ⟨.inr rfl, by decide, by decide, by decide, by decide, fun _ => by decide, by decide⟩
  exact ⟨_, _, rfl, getutxline_after_pututxline_iff appendPututline_stores hlogin rfl⟩

/-- The login on the console that was just stored is not found by its line. -/
theorem getutxline_misses_console :
    ¬ ∀ (abi : Abi) (pututline : Pututline), StoresRecord pututline →
      ∀ (db db' : List Utmp) (tmp : Utmp) (ux res : Utmpx), IsLogin ux →
        pututxline abi pututline db tmp ux = .ok (some res, db') →
        ∃ next rest, getutxline abi db' ux = some (next, rest) ∧
          next.utLine.str = ux.utLine.str := by
  intro hfound
  have hlogin : IsLogin (userOn "console") :=
    ⟨.inr rfl, by decide, by decide, by decide, by decide, fun _ => by decide, by decide⟩
  obtain ⟨next, rest, hget, -⟩ := hfound .lp64 appendPututline appendPututline_stores [] _
    (loginOn "") (userOn "console") _ hlogin rfl
  have hfind := congrArg (Option.map Prod.fst) hget
  rw [getutxline, searchUtx_eq_find] at hfind
  exact Option.some_ne_none next (hfind.symm.trans rfl)

/-! ### What is written -/

/-- A record whose line is full of one byte. -/
def lineOf (b : UInt8) : Utmp where
  utLine := ⟨List.replicate UT_LINESIZE b, List.length_replicate⟩
  utName := .zero _
  utHost := .zero _
  utTime := 0

/-- What is stored comes from the `struct utmpx` alone exactly when the record is not a process
without a line. -/
theorem stored_only_from_utmpx_iff (abi : Abi) {ux : Utmpx}
    (hnamed : ∀ n, ux.utType ≠ .unnamed n) (hhost : ux.utHost.str.strlen < UT_HOSTSIZE)
    (hpid : 0 ≤ ux.utPid.toInt) :
    ((∀ u v, utmpxToUtmp abi ux u = utmpxToUtmp abi ux v) ∧
      (∀ pututline db u v, pututxline abi pututline db u ux = pututxline abi pututline db v ux) ∧
      (∀ (File : Type) (updwtmp : File → Utmp → File) wtmpxFile u v,
        updwtmpx abi updwtmp wtmpxFile u ux = updwtmpx abi updwtmp wtmpxFile v ux)) ↔
      ¬ KeepsOldLine ux := by
  constructor
  · rintro ⟨hsame, -, -⟩ ⟨hprocess, hline⟩
    obtain ⟨w, hw⟩ := @exists_utmpxToUtmp_eq abi ux (lineOf 0) hnamed hhost hpid
    have hkept : ∀ b, utmpxToUtmp abi ux (lineOf b) = .ok (some w) →
        w.utLine.bytes.drop UTX_IDSIZE = List.replicate (UT_LINESIZE - UTX_IDSIZE) b := by
      intro b hb
      obtain ⟨s, hkind, hstored, -⟩ := utmpxToUtmp_eq_some hb
      obtain ⟨name, hs, -⟩ := storeKind_process (u := lineOf b) hprocess
      rw [hkind, Option.some.injEq] at hs
      rw [hstored, hs, storeProcess_id hline]
      have hdrop : (lineOf b).utLine.bytes.drop UTX_IDSIZE =
          List.replicate (UT_LINESIZE - UTX_IDSIZE) b := List.drop_replicate
      rw [← hdrop]
      exact List.drop_left' (CString.length_strncpyBytes _ _)
    have hzero := hkept 0 hw
    rw [hkept 1 ((hsame _ _).trans hw)] at hzero
    exact absurd hzero (by decide)
  · intro hnot
    have hsame : ∀ u v, utmpxToUtmp abi ux u = utmpxToUtmp abi ux v := fun u v =>
      utmpxToUtmp_congr (storeKind_prior hnot _)
    refine ⟨hsame, fun pututline db u v => ?_, fun File updwtmp wtmpxFile u v => ?_⟩
    · rw [pututxline, pututxline, hsame u v]
    · rw [updwtmpx, updwtmpx, hsame u v]

/-- What is stored for a login on a terminal comes from its record. -/
theorem stored_only_from_utmpx_tty :
    ((∀ u v, utmpxToUtmp .lp64 (userOn "tty1") u = utmpxToUtmp .lp64 (userOn "tty1") v) ∧
      (∀ pututline db u v, pututxline .lp64 pututline db u (userOn "tty1") =
        pututxline .lp64 pututline db v (userOn "tty1")) ∧
      (∀ (File : Type) (updwtmp : File → Utmp → File) wtmpxFile u v,
        updwtmpx .lp64 updwtmp wtmpxFile u (userOn "tty1") =
          updwtmpx .lp64 updwtmp wtmpxFile v (userOn "tty1"))) ↔
      ¬ KeepsOldLine (userOn "tty1") :=
  stored_only_from_utmpx_iff .lp64 (fun n h => by cases h) (by decide) (by decide)

/-- The end of a process that has an id and no line is stored with four bytes of the variable. -/
theorem stored_line_keeps_old_bytes :
    ¬ ∀ (abi : Abi) (ux : Utmpx), (∀ n, ux.utType ≠ .unnamed n) →
      ux.utHost.str.strlen < UT_HOSTSIZE → 0 ≤ ux.utPid.toInt →
      ∀ u v, utmpxToUtmp abi ux u = utmpxToUtmp abi ux v := by
  intro hsame
  have heq := hsame .lp64 (processOn .DEAD_PROCESS 1 "host") (fun n h => by cases h) (by decide)
    (by decide) (lineOf 0) (lineOf 1)
  have hline := congrArg (fun r => r.toOption.bind fun s => s.map fun w => w.utLine.bytes) heq
  exact absurd hline (by decide)

end GlibcPorts.UtmpCompat
