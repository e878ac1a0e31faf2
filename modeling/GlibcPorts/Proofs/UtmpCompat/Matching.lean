import GlibcPorts.Proofs.UtmpCompat.Database

/-!
# `GlibcPorts.Proofs.UtmpCompat.Matching`: which stored record is the same login

glibc's `__pututline` overwrites the first record that `__utmp_equal` matches, and `getutxid` finds
the first one with the same id. The comment in `utmp-equal.h` says that `__utmp_equal` is consistent
with `__utmp_to_utmpx`. `__pututline` is a parameter, of which `OverwritesFirst` is assumed.

`utmpEqual_iff` is what `__utmp_equal` tests of the strings: both records are processes and their
lines are equal. `sameId_iff` is what the test of `getutxid` comes to: both are processes and
their lines have the same four bytes behind a `tty` that they may start with. `utmpEqual_agrees_iff`
puts the two together. Two processes on different lines with the same id (`Collide`) are the one
login for `getutxid` and two for `__pututline`.
-/

set_option autoImplicit false

namespace GlibcPorts.UtmpCompat

open Lib
open Lib.CString (strncmpEq strncmpEq_iff cut upToNul)

/-- The record is one of a process. -/
def IsProcessRecord (u : Utmp) : Prop := isEmpty u = false ∧ ¬ IsSpecialLine u.utLine.str

/-- The characters of a line that become the id. -/
def idOfLine (line : CString) : List UInt8 :=
  (if IsTty line then line.chars.drop 3 else line.chars).take 4

/-- Two processes on different lines with the same id. -/
structure Collide (u v : Utmp) : Prop where
  left : IsProcessRecord u
  right : IsProcessRecord v
  line_ne : u.utLine.str ≠ v.utLine.str
  id : idOfLine u.utLine.str = idOfLine v.utLine.str

section

variable {abi : Abi} {u v entry match' : Utmp} {x y ex mx : Utmpx}

theorem matchesNone_iff : matchesNone u = true ↔ isEmpty u = true ∨ IsSpecialLine u.utLine.str := by
  have hlines : matchesNone u = (isEmpty u || (lineIs u 126 || lineIs u 123 || lineIs u 124)) := by
    simp only [matchesNone, lineIs, Bool.and_or_distrib_right]
  rw [hlines, Bool.or_eq_true, Bool.or_eq_true, Bool.or_eq_true, isTilde_iff, isBrace_iff,
    isBar_iff, or_assoc, IsSpecialLine]

theorem not_matchesNone_iff : (!matchesNone u) = true ↔ IsProcessRecord u := by
  rw [Bool.not_eq_true', ← Bool.not_eq_true, matchesNone_iff, not_or, Bool.not_eq_true,
    IsProcessRecord]

/-- `__utmp_equal` matches two processes on the same line. -/
theorem utmpEqual_iff :
    utmpEqual entry match' = true ↔
      IsProcessRecord entry ∧ IsProcessRecord match' ∧ entry.utLine.str = match'.utLine.str := by
  rw [utmpEqual, Bool.and_eq_true, Bool.and_eq_true, not_matchesNone_iff, not_matchesNone_iff,
    strncmpEq_iff, ByteField.cut_bytes, ByteField.cut_bytes, and_assoc]

/-- The types with a line of their own are not those of processes. -/
theorem not_isProcess_of_specialStrings {t : UtType} {strings : CString × CString}
    (h : specialStrings t = some strings) : t.isProcess = false := by
  cases t with
  | INIT_PROCESS | LOGIN_PROCESS | USER_PROCESS | DEAD_PROCESS => cases h
  | _ => rfl

/-- The new format has the type of a process for the records of processes. -/
theorem isProcess_iff (hu : utmpToUtmpx abi u = some x) :
    x.utType.isProcess = true ↔ IsProcessRecord u := by
  obtain ⟨hempty, rfl⟩ | ⟨hnot, hreads⟩ := utmpToUtmpx_cases hu
  · exact iff_of_false Bool.false_ne_true fun h => absurd (hempty.symm.trans h.1) (by decide)
  obtain hspecial | hprocess := hreads.kind
  · rw [not_isProcess_of_specialStrings hspecial.strings]
    exact iff_of_false Bool.false_ne_true fun h => h.2 hspecial.isSpecialLine
  · rw [hprocess.type]
    exact iff_of_true (processType_isProcess u) ⟨hnot, hprocess.notSpecial⟩

/-- The id of a process is made of its line. -/
theorem id_eq (hu : utmpToUtmpx abi u = some x) (hprocess : IsProcessRecord u) :
    x.utId.str.chars = idOfLine u.utLine.str := by
  have hne : ¬ isEmpty u = true := by
    rw [hprocess.1]
    exact Bool.false_ne_true
  obtain hspecial | hreads := (reads_of_not_empty hu hne).kind
  · exact absurd hspecial.isSpecialLine hprocess.2
  · exact hreads.id

/-- The test of `getutxid` for two records that were converted. -/
theorem sameId_iff (hentry : utmpToUtmpx abi entry = some ex)
    (hmatch : utmpToUtmpx abi match' = some mx) :
    (ex.utType.isProcess = true ∧ mx.utType.isProcess = true ∧
        strncmpEq ex.utId.bytes mx.utId.bytes UTX_IDSIZE = true) ↔
      IsProcessRecord entry ∧ IsProcessRecord match' ∧
        idOfLine entry.utLine.str = idOfLine match'.utLine.str := by
  rw [isProcess_iff hentry, isProcess_iff hmatch, strncmpEq_iff, ByteField.cut_bytes,
    ByteField.cut_bytes, CString.ext_iff]
  refine and_congr_right fun hleft => and_congr_right fun hright => ?_
  rw [id_eq hentry hleft, id_eq hmatch hright]

/-- The two tests differ exactly at records that collide. -/
theorem equal_iff_sameId_iff (hentry : utmpToUtmpx abi entry = some ex)
    (hmatch : utmpToUtmpx abi match' = some mx) :
    (utmpEqual entry match' = true ↔
        (ex.utType.isProcess = true ∧ mx.utType.isProcess = true ∧
          strncmpEq ex.utId.bytes mx.utId.bytes UTX_IDSIZE = true)) ↔
      ¬ Collide entry match' := by
  rw [sameId_iff hentry hmatch, utmpEqual_iff]
  constructor
  · intro hiff hcollide
    obtain ⟨-, -, hline⟩ := hiff.mpr ⟨hcollide.left, hcollide.right, hcollide.id⟩
    exact hcollide.line_ne hline
  · intro hnot
    refine and_congr_right fun hleft => and_congr_right fun hright => ⟨congrArg idOfLine, ?_⟩
    intro hid
    by_contra hne
    exact hnot ⟨hleft, hright, hne, hid⟩

end

/-! ### The record that is overwritten and the record that is found -/

/-- The database `db'` is `db` with `u` in the place of the first record that `__utmp_equal`
matches, or at the end if it matches none. -/
inductive Overwritten (u : Utmp) : List Utmp → List Utmp → Prop
  | append : Overwritten u [] [u]
  | overwrite {entry : Utmp} {rest : List Utmp} (h : utmpEqual entry u = true) :
      Overwritten u (entry :: rest) (u :: rest)
  | skip {entry : Utmp} {rest rest' : List Utmp} (h : utmpEqual entry u = false)
      (hrest : Overwritten u rest rest') : Overwritten u (entry :: rest) (entry :: rest')

/-- What `__pututline` does from the start of the database, when it returns a record. -/
def OverwritesFirst (pututline : Pututline) : Prop :=
  ∀ db u r db', pututline db u = (some r, db') → Overwritten u db db'

/-- The database `db'` is `db` with `u` in the place of the record that `getutxid` finds, or at the
end if it finds none. -/
def OverwrittenFound (abi : Abi) (id : Utmpx) (u : Utmp) (db db' : List Utmp) : Prop :=
  match getutxid abi db id with
  | some (next, rest) =>
      ∃ pre found, db = pre ++ found :: rest ∧ utmpToUtmpx abi found = some next ∧
        db' = pre ++ u :: rest
  | none => db' = db ++ [u]

/-- No record that collides with the given one stands before the first on the same line. -/
def CollidesLate (match' : Utmp) (db : List Utmp) : Prop :=
  ∀ pre entry post, db = pre ++ entry :: post → Collide entry match' →
    ∃ other ∈ pre, IsProcessRecord other ∧ other.utLine.str = match'.utLine.str

section

variable {abi : Abi} {entry match' : Utmp} {db db' rest rest' : List Utmp} {mx ex : Utmpx}

/-- A record on the same line stands before everything behind it. -/
theorem collidesLate_cons_of_line (hentry : IsProcessRecord entry)
    (hline : entry.utLine.str = match'.utLine.str) : CollidesLate match' (entry :: rest) := by
  intro pre other post hsplit hcollide
  cases pre with
  | nil =>
      cases hsplit
      exact absurd hline hcollide.line_ne
  | cons first pre =>
      cases hsplit
      exact ⟨entry, List.mem_cons_self, hentry, hline⟩

/-- A record that neither collides nor is on the same line does not count. -/
theorem collidesLate_cons_iff (hcollide : ¬ Collide entry match')
    (hline : ¬ (IsProcessRecord entry ∧ entry.utLine.str = match'.utLine.str)) :
    CollidesLate match' (entry :: rest) ↔ CollidesLate match' rest := by
  constructor
  · intro hlate pre other post hsplit hother
    obtain ⟨found, hmem, hfound⟩ := hlate (entry :: pre) other post (by rw [hsplit]; rfl) hother
    rcases List.mem_cons.mp hmem with rfl | hmem
    · exact absurd hfound hline
    · exact ⟨found, hmem, hfound⟩
  · intro hlate pre other post hsplit hother
    cases pre with
    | nil =>
        cases hsplit
        exact absurd hother hcollide
    | cons first pre =>
        cases hsplit
        obtain ⟨found, hmem, hfound⟩ := hlate pre other post rfl hother
        exact ⟨found, List.mem_cons_of_mem _ hmem, hfound⟩

/-- The test of `getutxid` for a process. -/
theorem selectsId_iff {id next : Utmpx} (hid : id.utType.isProcess = true) :
    selectsId id next = true ↔
      next.utType.isProcess = true ∧ id.utType.isProcess = true ∧
        strncmpEq next.utId.bytes id.utId.bytes UTX_IDSIZE = true := by
  rw [selectsId, if_pos hid, Bool.and_eq_true]
  simp only [hid, true_and]

theorem length_of_getutxid {id next : Utmpx} (h : getutxid abi db id = some (next, rest)) :
    rest.length < db.length := by
  induction db with
  | nil =>
      rw [getutxid, searchUtx_eq] at h
      cases h
  | cons entry db ih =>
      rw [getutxid, searchUtx_cons] at h
      cases hentry : utmpToUtmpx abi entry with
      | none =>
          rw [hentry] at h
          exact Nat.lt_succ_of_lt (ih h)
      | some ex =>
          rw [hentry] at h
          dsimp only at h
          split_ifs at h with hsel
          · cases h
            exact Nat.lt_succ_self _
          · exact Nat.lt_succ_of_lt (ih h)

/-- `getutxid` takes the first record. -/
theorem overwrittenFound_stop (hentry : utmpToUtmpx abi entry = some ex)
    (hsel : selectsId mx ex = true) :
    OverwrittenFound abi mx match' (entry :: rest) db' ↔ db' = match' :: rest := by
  rw [OverwrittenFound, getutxid, searchUtx_cons, hentry]
  dsimp only
  rw [if_pos hsel]
  constructor
  · rintro ⟨pre, found, hsplit, -, rfl⟩
    cases pre with
    | nil => rfl
    | cons first pre =>
        have hlength := congrArg List.length hsplit
        simp only [List.length_cons, List.length_append] at hlength
        omega
  · intro h
    exact ⟨[], entry, rfl, hentry, h⟩

/-- `getutxid` passes over the first record. -/
theorem overwrittenFound_next (hnext : getutxid abi (entry :: rest) mx = getutxid abi rest mx) :
    OverwrittenFound abi mx match' (entry :: rest) (entry :: rest') ↔
      OverwrittenFound abi mx match' rest rest' := by
  rw [OverwrittenFound, OverwrittenFound, hnext]
  cases hget : getutxid abi rest mx with
  | none => exact List.cons_inj_right entry
  | some found =>
      constructor
      · rintro ⟨pre, found', hsplit, hfound, hput⟩
        cases pre with
        | nil =>
            -- What `getutxid` finds lies behind the first record.
            cases hsplit
            exact absurd (length_of_getutxid hget) (Nat.lt_irrefl _)
        | cons first pre =>
            cases hsplit
            exact ⟨pre, found', rfl, hfound, List.cons_inj_right entry |>.mp hput⟩
      · rintro ⟨pre, found', hsplit, hfound, hput⟩
        exact ⟨entry :: pre, found', by rw [hsplit]; rfl, hfound, by rw [hput]; rfl⟩

/-- For a process, a put takes the place of the record that `getutxid` finds exactly when no record
that collides with it comes too early. -/
theorem Overwritten.found_iff (hput : Overwritten match' db db')
    (hmatch : utmpToUtmpx abi match' = some mx) (hprocess : mx.utType.isProcess = true) :
    OverwrittenFound abi mx match' db db' ↔ CollidesLate match' db := by
  have hright := (isProcess_iff hmatch).mp hprocess
  induction hput with
  | append =>
      refine iff_of_true ?_ fun pre entry post hsplit => ?_
      · rw [OverwrittenFound, getutxid, searchUtx_eq]
        rfl
      · cases pre <;> cases hsplit
  | @overwrite entry rest h =>
      obtain ⟨hleft, -, hline⟩ := utmpEqual_iff.mp h
      obtain ⟨ex, hentry⟩ : ∃ ex, utmpToUtmpx abi entry = some ex :=
        Option.isSome_iff_exists.mp (utmpToUtmpx_isSome_iff.mpr (.inr (.inl hleft.2)))
      have hsel : selectsId mx ex = true := (selectsId_iff hprocess).mpr
        ((sameId_iff hentry hmatch).mpr ⟨hleft, hright, congrArg idOfLine hline⟩)
      exact iff_of_true ((overwrittenFound_stop hentry hsel).mpr rfl)
        (collidesLate_cons_of_line hleft hline)
  | @skip entry rest rest' h _ ih =>
      have hline : ¬ (IsProcessRecord entry ∧ entry.utLine.str = match'.utLine.str) := by
        rintro ⟨hleft, hline⟩
        rw [utmpEqual_iff.mpr ⟨hleft, hright, hline⟩] at h
        cases h
      cases hentry : utmpToUtmpx abi entry with
      | none =>
          -- A record that does not convert is one that neither of the two stops at.
          have hnot : ¬ IsProcessRecord entry := by
            intro hleft
            have hsome := (@utmpToUtmpx_isSome_iff abi entry).mpr (.inr (.inl hleft.2))
            rw [hentry] at hsome
            cases hsome
          rw [overwrittenFound_next, collidesLate_cons_iff (fun hc => hnot hc.left) hline]
          · exact ih
          · rw [getutxid, searchUtx_cons, hentry]
            rfl
      | some ex =>
          by_cases hcollide : Collide entry match'
          · -- `getutxid` stops here, and the put goes on.
            have hsel : selectsId mx ex = true := (selectsId_iff hprocess).mpr
              ((sameId_iff hentry hmatch).mpr ⟨hcollide.left, hright, hcollide.id⟩)
            rw [overwrittenFound_stop hentry hsel]
            refine iff_of_false (fun heq => ?_) fun hlate => ?_
            · exact hcollide.line_ne (congrArg (·.utLine.str) (List.cons.inj heq).1)
            · obtain ⟨found, hmem, -⟩ := hlate [] entry rest rfl hcollide
              cases hmem
          · have hsel : ¬ selectsId mx ex = true := by
              rw [selectsId_iff hprocess, ← (equal_iff_sameId_iff hentry hmatch).mpr hcollide, h]
              exact Bool.false_ne_true
            rw [overwrittenFound_next, collidesLate_cons_iff hcollide hline]
            · exact ih
            · rw [getutxid, searchUtx_cons, hentry]
              dsimp only
              rw [if_neg hsel]
              rfl

end

/-- `__utmp_equal` agrees with the rule of `getutxid` exactly on records that do not collide. For a
process, the record that a put overwrites is the record that `getutxid` finds exactly when no record
that collides with it stands in front of the first one on its line. -/
theorem utmpEqual_agrees_iff {abi : Abi} {match' : Utmp} {mx : Utmpx} {pututline : Pututline}
    (hmatch : utmpToUtmpx abi match' = some mx) (hput : OverwritesFirst pututline) :
    (∀ entry ex, utmpToUtmpx abi entry = some ex →
      ((utmpEqual entry match' = true ↔
          (ex.utType.isProcess = true ∧ mx.utType.isProcess = true ∧
            strncmpEq ex.utId.bytes mx.utId.bytes UTX_IDSIZE = true)) ↔
        ¬ Collide entry match')) ∧
    (mx.utType.isProcess = true → ∀ db r db', pututline db match' = (some r, db') →
      (OverwrittenFound abi mx match' db db' ↔ CollidesLate match' db)) := by
  constructor
  · intro entry ex hentry
    exact equal_iff_sameId_iff hentry hmatch
  · intro hprocess db r db' h
    exact (hput db match' r db' h).found_iff hmatch hprocess

/-- A `__pututline` that can always write. -/
def overwritePututline : Pututline
  | [], u => (some u, [u])
  | entry :: rest, u =>
      if utmpEqual entry u then (some u, u :: rest)
      else (some u, entry :: (overwritePututline rest u).2)

theorem overwritePututline_overwritesFirst : OverwritesFirst overwritePututline := by
  have hall : ∀ db u, Overwritten u db (overwritePututline db u).2 := by
    intro db u
    induction db with
    | nil => exact .append
    | cons entry rest ih =>
        rw [overwritePututline]
        cases hequal : utmpEqual entry u with
        | true => exact .overwrite hequal
        | false => exact .skip hequal ih
  intro db u r db' h
  have hput := hall db u
  rwa [h] at hput

/-- The login on a terminal is matched by its line and by its id. -/
theorem utmpEqual_agrees_tty :
    ∃ mx, utmpToUtmpx .lp64 (loginOn "tty1") = some mx ∧
      (∀ entry ex, utmpToUtmpx .lp64 entry = some ex →
        ((utmpEqual entry (loginOn "tty1") = true ↔
            (ex.utType.isProcess = true ∧ mx.utType.isProcess = true ∧
              strncmpEq ex.utId.bytes mx.utId.bytes UTX_IDSIZE = true)) ↔
          ¬ Collide entry (loginOn "tty1"))) ∧
      (mx.utType.isProcess = true → ∀ db r db',
        overwritePututline db (loginOn "tty1") = (some r, db') →
        (OverwrittenFound .lp64 mx (loginOn "tty1") db db' ↔ CollidesLate (loginOn "tty1") db)) :=
  ⟨_, rfl, utmpEqual_agrees_iff rfl overwritePututline_overwritesFirst⟩

/-- The logins on `pts/0` and `pts/1` have the same id and are not matched. -/
theorem utmpEqual_misses_same_id :
    ¬ ∀ (abi : Abi) (entry match' : Utmp) (ex mx : Utmpx), utmpToUtmpx abi entry = some ex →
      utmpToUtmpx abi match' = some mx →
      (utmpEqual entry match' = true ↔
        (ex.utType.isProcess = true ∧ mx.utType.isProcess = true ∧
          strncmpEq ex.utId.bytes mx.utId.bytes UTX_IDSIZE = true)) := by
  intro hagree
  have hiff := hagree .lp64 (loginOn "pts/0") (loginOn "pts/1") _ _ rfl rfl
  exact absurd (hiff.mpr ⟨by decide, by decide, by decide⟩) (by decide)

end GlibcPorts.UtmpCompat
