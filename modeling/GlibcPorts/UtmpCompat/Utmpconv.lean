import GlibcPorts.Abi
import GlibcPorts.Lib.ByteField
import GlibcPorts.Lib.Decimal

/-!
# `GlibcPorts.UtmpCompat.Utmpconv`: `struct utmp` and `struct utmpx`

The conversions of `kfreebsd/utmp-compat/utmpconv.c`. This system stores logins in the BSD format,
`struct utmp`, and programs see them as `struct utmpx`. The shorter format has no room for the
type, the id and the process. The type follows from the line and the name, the id from the line,
and the process id is hidden as digits behind the host.

`utmpToUtmpx` is `none` where the function returns -1. `utmpxToUtmp` starts from what `*u` holds
before the call: some callers pass a variable without a value. It is an error where the C code
reads or writes outside what it was given.

A `time_t` is a `long`: an `Int`, of which a program sees those with `Abi.IsLong`. `tv_sec` has 32
bits also where a `long` has 64. The members of `struct utmpx` that are only compared are `Int`s.
-/

set_option autoImplicit false

namespace GlibcPorts.UtmpCompat

open Lib
open Lib.CString (strncmpEq cut upToNul)

/-- The line of a `struct utmp`. -/
def UT_LINESIZE : Nat := 8

/-- Its name. -/
def UT_NAMESIZE : Nat := 16

/-- Its host. -/
def UT_HOSTSIZE : Nat := 16

/-- The sizes of `<utmpx.h>`. -/
def UTX_LINESIZE : Nat := 32

/-- The user of a `struct utmpx`. -/
def UTX_NAMESIZE : Nat := 32

/-- Its host. -/
def UTX_HOSTSIZE : Nat := 256

/-- Its id. -/
def UTX_IDSIZE : Nat := 4

/-- `struct utmp`. -/
@[ext] structure Utmp where
  utLine : ByteField UT_LINESIZE
  utName : ByteField UT_NAMESIZE
  utHost : ByteField UT_HOSTSIZE
  utTime : Int
deriving DecidableEq, Repr

/-- A value of `ut_type` without a name. -/
abbrev UnnamedType := { n : Int16 // ¬ (0 ≤ n ∧ n ≤ 9) }

/-- The values of `ut_type`, from 0 on. -/
inductive UtType where
  | EMPTY
  | RUN_LVL
  | BOOT_TIME
  | NEW_TIME
  | OLD_TIME
  | INIT_PROCESS
  | LOGIN_PROCESS
  | USER_PROCESS
  | DEAD_PROCESS
  | ACCOUNTING
  | unnamed (n : UnnamedType)
deriving DecidableEq, Repr

/-- The four types of a process. -/
def UtType.isProcess : UtType → Bool
  | .INIT_PROCESS | .LOGIN_PROCESS | .USER_PROCESS | .DEAD_PROCESS => true
  | _ => false

/-- `struct utmpx`. -/
structure Utmpx where
  utType : UtType
  utPid : Int32
  utLine : ByteField UTX_LINESIZE
  utId : ByteField UTX_IDSIZE
  utUser : ByteField UTX_NAMESIZE
  utHost : ByteField UTX_HOSTSIZE
  utExitTermination : Int
  utExitExit : Int
  utSession : Int
  tvSec : Int32
  tvUsec : Int
  utAddrV6 : ByteField 16
deriving DecidableEq, Repr

/-- `memset (ux, '\0', sizeof (struct utmpx))`. -/
def Utmpx.zero : Utmpx where
  utType := .EMPTY
  utPid := 0
  utLine := .zero _
  utId := .zero _
  utUser := .zero _
  utHost := .zero _
  utExitTermination := 0
  utExitExit := 0
  utSession := 0
  tvSec := 0
  tvUsec := 0
  utAddrV6 := .zero _

/-- `__utmpx_equal`. -/
def utmpxEqual (u1 u2 : Utmpx) : Bool :=
  u1.utType = u2.utType
    && u1.utPid = u2.utPid
    && strncmpEq u1.utLine.bytes u2.utLine.bytes UTX_LINESIZE
    && strncmpEq u1.utId.bytes u2.utId.bytes UTX_IDSIZE
    && strncmpEq u1.utUser.bytes u2.utUser.bytes UTX_NAMESIZE
    && strncmpEq u1.utHost.bytes u2.utHost.bytes UTX_HOSTSIZE
    && u1.utExitTermination = u2.utExitTermination
    && u1.utExitExit = u2.utExitExit
    && u1.utSession = u2.utSession
    && u1.tvSec = u2.tvSec
    && u1.tvUsec = u2.tvUsec
    && u1.utAddrV6 = u2.utAddrV6

/-! ### From `struct utmp` -/

/-- `strncmp (u->ut_name, name, UT_NAMESIZE) == 0`. -/
def nameIs (u : Utmp) (name : String) : Bool :=
  strncmpEq u.utName.bytes (literal name) UT_NAMESIZE

/-- The number 0 is an index of a line. -/
instance neZeroLine : NeZero 8 := ⟨by decide⟩

/-- `u->ut_line[0] == c && u->ut_line[1] == '\0'`. -/
def lineIs (u : Utmp) (c : UInt8) : Bool :=
  u.utLine.get (0 : Fin 8) = c && u.utLine.get (1 : Fin 8) = 0

/-- The types of a process that follow from its name. -/
def processType (u : Utmp) : UtType :=
  if nameIs u "INIT" then .INIT_PROCESS
  else if nameIs u "LOGIN" then .LOGIN_PROCESS
  else if nameIs u "" then .DEAD_PROCESS
  else .USER_PROCESS

/-- The type, user, line and id of a process. -/
def processToUtmpx (u : Utmp) (ux : Utmpx) : Utmpx :=
  let ux := { ux with utType := processType u }
  let ux :=
    if ux.utType = .LOGIN_PROCESS ∨ ux.utType = .USER_PROCESS then
      { ux with utUser := ux.utUser.strncpy u.utName.bytes UT_NAMESIZE (by decide) }
    else ux
  if strncmpEq u.utLine.bytes (literal "tty") 3 then
    { ux with
      utLine := ux.utLine.strncpy u.utLine.bytes UT_LINESIZE (by decide)
      utId := ux.utId.strncpy (u.utLine.bytes.drop 3) UTX_IDSIZE (by decide) }
  else { ux with utId := ux.utId.strncpy u.utLine.bytes UTX_IDSIZE (by decide) }

/-- The type, user, line and id of a record that is not empty. -/
def kindToUtmpx (u : Utmp) (ux : Utmpx) : Option Utmpx :=
  if lineIs u 126 then -- The character is `~`.
    if nameIs u "runlevel" then some { ux with utType := .RUN_LVL }
    else if nameIs u "reboot" then some { ux with utType := .BOOT_TIME }
    else if nameIs u "acct" then some { ux with utType := .ACCOUNTING }
    else none
  else if lineIs u 123 then -- The character is `{`.
    if nameIs u "date" then some { ux with utType := .NEW_TIME } else none
  else if lineIs u 124 then -- The character is `|`.
    if nameIs u "date" then some { ux with utType := .OLD_TIME } else none
  else some (processToUtmpx u ux)

/-- The `pid` that `strtoul` finds in `buf`, if it reads all of it. -/
def parsePid (abi : Abi) (buf : CString) : Option Int32 :=
  let (pid, endp) := strtoul abi.ulongMax buf
  if endp ≠ 0 ∧ endp = buf.strlen then some (Abi.intOfUlong pid) else none

/-- Recovers `ut_pid` from the hidden place after the host. -/
def recoverPid (abi : Abi) (u : Utmp) (ux : Utmpx) : Utmpx :=
  let len := u.utHost.str.strlen
  if len < UT_HOSTSIZE - 2 then
    let hidden := u.utHost.bytes.drop (len + 1)
    if hidden.head? ≠ some 0 then
      -- The copy and the NUL behind it make the string of these bytes in `buf`.
      match parsePid abi (cut hidden (UT_HOSTSIZE - len - 1)) with
      | some pid => { ux with utPid := pid }
      | none => ux
    else ux
  else ux

/-- The test of `__utmp_to_utmpx` for an empty record. -/
def isEmpty (u : Utmp) : Bool :=
  u.utLine.get (0 : Fin 8) = 0 && u.utName.get (0 : Fin 16) = 0 && u.utHost.get (0 : Fin 16) = 0

/-- `__utmp_to_utmpx`. -/
def utmpToUtmpx (abi : Abi) (u : Utmp) : Option Utmpx :=
  let ux := Utmpx.zero
  if isEmpty u then some { ux with utType := .EMPTY }
  else
    (kindToUtmpx u ux).map fun ux =>
      let ux := { ux with utHost := ux.utHost.strncpy u.utHost.bytes UT_HOSTSIZE (by decide) }
      let ux := recoverPid abi u ux
      { ux with tvSec := Int32.ofInt u.utTime, tvUsec := 0 }

/-! ### To `struct utmp` -/

/-- What `__utmpx_to_utmp` can do wrong. -/
inductive Fault where
  /-- `strlen` reads behind `ut_host`. -/
  | readBehindHost
  /-- The computation of `room` goes below zero. -/
  | roomBelowZero
  /-- `sprintf` writes behind the digit buffer. -/
  | writeBehindDigits
  /-- `strncpy` writes outside `ut_host`. -/
  | writeOutsideHost
deriving DecidableEq, Repr

/-- The size of the digit buffer. -/
def DIGITS : Nat := 10 + 1

/-- The three copies of a case of the switch with the whole size of each member. -/
def storeStrings (u : Utmp) (line name host : List UInt8) : Utmp :=
  { u with
    utLine := u.utLine.strncpy line UT_LINESIZE le_rfl
    utName := u.utName.strncpy name UT_NAMESIZE le_rfl
    utHost := u.utHost.strncpy host UT_HOSTSIZE le_rfl }

/-- The case of the processes, with the name of the type. -/
def storeProcess (ux : Utmpx) (u : Utmp) (name : List UInt8) : Utmp :=
  { u with
    utLine :=
      if ux.utLine.get (0 : Fin 32) ≠ 0 then u.utLine.strncpy ux.utLine.bytes UT_LINESIZE le_rfl
      else u.utLine.strncpy ux.utId.bytes UTX_IDSIZE (by decide)
    utName := u.utName.strncpy name UT_NAMESIZE le_rfl
    utHost := u.utHost.strncpy ux.utHost.bytes UT_HOSTSIZE le_rfl }

/-- The switch over `ut_type`. -/
def storeKind (ux : Utmpx) (u : Utmp) : Option Utmp :=
  match ux.utType with
  | .EMPTY => some (storeStrings u (literal "") (literal "") (literal ""))
  | .RUN_LVL => some (storeStrings u (literal "~") (literal "runlevel") ux.utHost.bytes)
  | .BOOT_TIME => some (storeStrings u (literal "~") (literal "reboot") ux.utHost.bytes)
  | .NEW_TIME => some (storeStrings u (literal "\x7b") (literal "date") ux.utHost.bytes)
  | .OLD_TIME => some (storeStrings u (literal "|") (literal "date") ux.utHost.bytes)
  | .INIT_PROCESS => some (storeProcess ux u (literal "INIT"))
  | .LOGIN_PROCESS => some (storeProcess ux u (literal "LOGIN"))
  | .USER_PROCESS => some (storeProcess ux u ux.utUser.bytes)
  | .DEAD_PROCESS => some (storeProcess ux u (literal ""))
  | .ACCOUNTING => some (storeStrings u (literal "~") (literal "acct") ux.utHost.bytes)
  | .unnamed _ => none

/-- Puts `ut_pid` at the hidden place after the host. -/
def hidePid (abi : Abi) (pid : Int32) (host : ByteField UT_HOSTSIZE) :
    Except Fault (ByteField UT_HOSTSIZE) :=
  if pid = 0 then .ok host
  else
    match host.strlen with
    | none => .error .readBehindHost
    | some len =>
        if UT_HOSTSIZE < len + 1 then .error .roomBelowZero
        else
          let room := UT_HOSTSIZE - len - 1
          let buf := decimal (abi.ulongOfInt pid)
          if DIGITS < buf.bytes.length then .error .writeBehindDigits
          else if buf.strlen ≤ room then
            match host.store (len + 1) (CString.strncpyBytes buf.bytes room) with
            | none => .error .writeOutsideHost
            | some host => .ok host
          else .ok host

/-- `__utmpx_to_utmp`, with `*u` before the call. It is `none` where the function returns -1. -/
def utmpxToUtmp (abi : Abi) (ux : Utmpx) (u : Utmp) : Except Fault (Option Utmp) :=
  match storeKind ux u with
  | none => .ok none
  | some u =>
      let u := { u with utTime := ux.tvSec.toInt }
      (hidePid abi ux.utPid u.utHost).map fun host => some { u with utHost := host }

end GlibcPorts.UtmpCompat
