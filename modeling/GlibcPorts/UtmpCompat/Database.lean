import GlibcPorts.UtmpCompat.Utmpconv

/-!
# `GlibcPorts.UtmpCompat.Database`: the functions on the login database

The functions of `kfreebsd/utmp-compat/` that read and write the database in the new format:
`getutxent`, `getutxid`, `getutxline`, `pututxline` and `updwtmpx`. They convert what glibc's
functions on the old format, `__getutent`, `__pututline` and `__updwtmp`, get and give. The header
`utmp-equal.h` tells `__pututline` which record of the old format is the one to overwrite.

The database is the list of its records, and `__getutent` takes the next record off what is left
of it. `__pututline` and `__updwtmp` are parameters.
-/

set_option autoImplicit false

namespace GlibcPorts.UtmpCompat

open Lib
open Lib.CString (strncmpEq)

/-- `__pututline`: the record it returns, or `NULL`, and the database after it. -/
abbrev Pututline := List Utmp → Utmp → Option Utmp × List Utmp

/-- `__getutxent`: the next record that can be converted, and the records after it. -/
def getutxent (abi : Abi) : List Utmp → Option (Utmpx × List Utmp)
  | [] => none
  | tmp :: rest =>
      match utmpToUtmpx abi tmp with
      | some buffer => some (buffer, rest)
      | none => getutxent abi rest

theorem length_of_getutxent {abi : Abi} {db rest : List Utmp} {next : Utmpx}
    (h : getutxent abi db = some (next, rest)) : rest.length < db.length := by
  induction db with
  | nil => cases h
  | cons tmp db ih =>
      rw [getutxent] at h
      split at h
      · cases h
        exact Nat.lt_succ_self _
      · exact Nat.lt_succ_of_lt (ih h)

/-- The loops of `getutxid` and `getutxline`. -/
def searchUtx (abi : Abi) (selects : Utmpx → Bool) (db : List Utmp) :
    Option (Utmpx × List Utmp) :=
  match h : getutxent abi db with
  | none => none
  | some (next, rest) =>
      if selects next then some (next, rest)
      else
        have := length_of_getutxent h
        searchUtx abi selects rest
termination_by db.length

/-- The test of `getutxline`. -/
def selectsLine (line next : Utmpx) : Bool :=
  (next.utType = .LOGIN_PROCESS || next.utType = .USER_PROCESS)
    && strncmpEq next.utLine.bytes line.utLine.bytes UTX_LINESIZE

/-- The tests of `getutxid`, which has a loop for processes and one for the other types. -/
def selectsId (id next : Utmpx) : Bool :=
  if id.utType.isProcess then
    next.utType.isProcess && strncmpEq next.utId.bytes id.utId.bytes UTX_IDSIZE
  else next.utType = id.utType

/-- `getutxline`. -/
def getutxline (abi : Abi) (db : List Utmp) (line : Utmpx) : Option (Utmpx × List Utmp) :=
  searchUtx abi (selectsLine line) db

/-- `getutxid`. -/
def getutxid (abi : Abi) (db : List Utmp) (id : Utmpx) : Option (Utmpx × List Utmp) :=
  searchUtx abi (selectsId id) db

/-- The tests of `__utmp_equal` for a record that matches no other: an empty one, or one with a line
of its own. The characters are those of `~`, `{` and `|`. -/
def matchesNone (u : Utmp) : Bool :=
  isEmpty u
    || ((u.utLine.get (0 : Fin 8) = 126 || u.utLine.get (0 : Fin 8) = 123
        || u.utLine.get (0 : Fin 8) = 124)
      && u.utLine.get (1 : Fin 8) = 0)

/-- `__utmp_equal`. The `struct utmp` of this system has no id, so the lines decide. -/
def utmpEqual (entry match' : Utmp) : Bool :=
  !matchesNone entry && !matchesNone match'
    && strncmpEq entry.utLine.bytes match'.utLine.bytes UT_LINESIZE

/-- `pututxline`, with what its local variable `tmp` holds before it is set. -/
def pututxline (abi : Abi) (pututline : Pututline) (db : List Utmp) (tmp : Utmp)
    (utmpx : Utmpx) : Except Fault (Option Utmpx × List Utmp) :=
  match utmpxToUtmp abi utmpx tmp with
  | .error fault => .error fault
  | .ok none => .ok (none, db)
  | .ok (some tmp) =>
      match pututline db tmp with
      | (none, db) => .ok (none, db)
      | (some tmpres, db) => .ok (utmpToUtmpx abi tmpres, db)

/-- `updwtmpx` on a file, with what its local variable `tmp` holds before it is set. -/
def updwtmpx {File : Type} (abi : Abi) (updwtmp : File → Utmp → File) (wtmpxFile : File)
    (tmp : Utmp) (utmpx : Utmpx) : Except Fault File :=
  match utmpxToUtmp abi utmpx tmp with
  | .error fault => .error fault
  | .ok none => .ok wtmpxFile
  | .ok (some tmp) => .ok (updwtmp wtmpxFile tmp)

end GlibcPorts.UtmpCompat
