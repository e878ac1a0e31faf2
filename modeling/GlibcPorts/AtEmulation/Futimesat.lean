import GlibcPorts.AtEmulation.Calls

/-!
# `GlibcPorts.AtEmulation.Futimesat`: `futimesat`

`futimesat` differs from the other functions with one path: its `file` may be `NULL`, and then
the call is about the descriptor. While the system call may exist, this case goes to
`__futimes`. The emulation has a branch for it too, but calls `strlen (file)` first.
-/

set_option autoImplicit false

namespace GlibcPorts.AtEmulation

open Lib

/-- The calls of `futimesat`. `tvp` is the address of the two times, or 0. -/
inductive TimesCall where
  | futimes (fd : Int) (tvp : Addr)
  | futimesat (fd : Int) (file : CString) (tvp : Addr)
  | utimes (file : CString) (tvp : Addr)
deriving DecidableEq, Repr

/-- What a call of `futimesat` does: the calls it makes, what it returns, and the value of
`__have_atfcts` after it. -/
structure TimesResult where
  calls : List TimesCall
  result : Exec CallResult
  haveAtfcts : Int
deriving DecidableEq, Repr

section Futimesat

variable (H : Headers) (k : Kernel) (times : TimesCall → CallResult)

/-- The block of `futimesat` that finds the path. -/
def futimesatFile (fd : Int) : Option CString → Exec CString
  | none =>
      -- `strlen (NULL)`. The branches for `NULL` behind it are not reached.
      if fd < 0 then .fail EBADF else .fault
  | some file => emulatedFile H k fd file

/-- The part of `futimesat` behind the system call. -/
def emulatedFutimesat (haveAtfcts : Int) (fd : Int) (file : Option CString) (tvp : Addr) :
    TimesResult :=
  match futimesatFile H k fd file with
  | .ok path => ⟨[.utimes path tvp], .ok (times (.utimes path tvp)), haveAtfcts⟩
  | .fail errno => ⟨[], .fail errno, haveAtfcts⟩
  | .fault => ⟨[], .fault, haveAtfcts⟩
  | .running => ⟨[], .running, haveAtfcts⟩

/-- `futimesat`. `times` gives the results of its calls. -/
def futimesat (haveAtfcts : Int) (fd : Int) (file : Option CString) (tvp : Addr) : TimesResult :=
  if 0 ≤ haveAtfcts then
    match file with
    | none => ⟨[.futimes fd tvp], .ok (times (.futimes fd tvp)), haveAtfcts⟩
    | some path =>
        let result := times (.futimesat fd path tvp)
        if result.ret = -1 ∧ result.errno = ENOSYS then
          let emulation := emulatedFutimesat H k times (-1) fd file tvp
          { emulation with calls := .futimesat fd path tvp :: emulation.calls }
        else ⟨[.futimesat fd path tvp], .ok result, haveAtfcts⟩
  else emulatedFutimesat H k times haveAtfcts fd file tvp

end Futimesat

end GlibcPorts.AtEmulation
