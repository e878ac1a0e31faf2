import GlibcPorts.AtEmulation.Calls

/-!
# `GlibcPorts.AtEmulation.Fexecve`: `fexecve`

`fexecve` runs the program that is open under a descriptor. It shares `__have_atfcts` with the
functions for paths. Its emulation looks for the descriptor in the table of the open files as they
do, but wants a regular file there, and gives its path to `execve`.
-/

set_option autoImplicit false

namespace GlibcPorts.AtEmulation

open Lib

/-- The calls of `fexecve`. `argv` and `envp` are addresses, 0 for `NULL`. -/
inductive ExecCall where
  | fexecve (fd : Int) (argv envp : Addr)
  | execve (path : CString) (argv envp : Addr)
deriving DecidableEq, Repr

/-- What a call of `fexecve` does: the calls it makes, what it returns, and the value of
`__have_atfcts` after it. -/
structure ExecResult where
  calls : List ExecCall
  result : Exec CallResult
  haveAtfcts : Int
deriving DecidableEq, Repr

section Fexecve

variable (H : Headers) (KF_VTYPE_VREG : Int) (k : Kernel) (exec : ExecCall → CallResult)

/-- `kf_type` and `kf_vnode_type` of the record at the offset `p` are those of a regular file. -/
def regularAt (mem : List UInt8) (p : Nat) : Option Bool := do
  let kfType ← readInt mem (p + H.kfTypeOff)
  if kfType = H.KF_TYPE_VNODE then
    let kfVnodeType ← readInt mem (p + H.kfVnodeTypeOff)
    return kfVnodeType == KF_VTYPE_VREG
  else return false

/-- The body of the loop over the records. It leaves the loop at the record of `fd`, with the path
if it is one of a regular file. -/
def execBody (mem : List UInt8) (fd : Int) (_ : Unit) (p : Nat) :
    Option (Option CString ⊕ Unit) := do
  let kfFd ← readInt mem (p + H.kfFdOff)
  if kfFd = fd then
    if ← regularAt H KF_VTYPE_VREG mem p then
      let path ← CString.readAt mem (p + H.kfPathOff)
      return .inl (some path)
    else return .inl none
  else return .inr ()

/-- The part of `fexecve` behind the system call: the path for `execve`. -/
def execPath (fd : Int) (argv envp : Addr) : Exec CString :=
  if fd < 0 ∨ argv = 0 ∨ envp = 0 then .fail EINVAL
  else
    (readTable k 0).bind fun (mem, kfLen) =>
      match walk (fun p => readInt mem (p + H.kfStructsizeOff)) (execBody H KF_VTYPE_VREG mem fd)
          kfLen (kfLen + 1) () 0 with
      | .stopped _ (some path) => .ok path
      | .stopped _ none => .fail EINVAL
      | .ended _ () => .fail EINVAL
      | .fault => .fault
      | .running => .running

/-- The emulation. -/
def emulatedFexecve (haveAtfcts : Int) (fd : Int) (argv envp : Addr) : ExecResult :=
  match execPath H KF_VTYPE_VREG k fd argv envp with
  | .ok path => ⟨[.execve path argv envp], .ok (exec (.execve path argv envp)), haveAtfcts⟩
  | .fail errno => ⟨[], .fail errno, haveAtfcts⟩
  | .fault => ⟨[], .fault, haveAtfcts⟩
  | .running => ⟨[], .running, haveAtfcts⟩

/-- `fexecve`. `exec` gives the results of its calls. -/
def fexecve (haveAtfcts : Int) (fd : Int) (argv envp : Addr) : ExecResult :=
  if 0 ≤ haveAtfcts then
    let result := exec (.fexecve fd argv envp)
    if result.ret = -1 ∧ result.errno = ENOSYS then
      let emulation := emulatedFexecve H KF_VTYPE_VREG k exec (-1) fd argv envp
      { emulation with calls := .fexecve fd argv envp :: emulation.calls }
    else ⟨[.fexecve fd argv envp], .ok result, haveAtfcts⟩
  else emulatedFexecve H KF_VTYPE_VREG k exec haveAtfcts fd argv envp

end Fexecve

end GlibcPorts.AtEmulation
