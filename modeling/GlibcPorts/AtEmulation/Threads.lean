import GlibcPorts.AtEmulation.Fexecve
import GlibcPorts.AtEmulation.Futimesat

/-!
# `GlibcPorts.AtEmulation.Threads`: the `*at` functions of a process

All `*at` functions share `__have_atfcts`, and so do the threads of a process, without a lock. It
is 0 when the process starts. A function reads it once, and writes -1 if the kernel answers its
system call with `ENOSYS`.

`AtCall` is a call of one of them, together with everything it meets, and `AtCall.ask` is the
function it calls. `faccessat` is not among them: it makes calls of `fxstatat64` of its own, which
read the variable again.
-/

set_option autoImplicit false

namespace GlibcPorts.AtEmulation

open Lib

/-- A call that one of the functions makes. -/
inductive MadeCall where
  | path (c : PathCall)
  | times (c : TimesCall)
  | exec (c : ExecCall)
deriving DecidableEq, Repr

/-- The system calls that a kernel may not have. -/
def PathCall.isAt : PathCall → Bool
  | .openat .. | .mkdirat .. | .unlinkat .. | .fchmodat .. | .fchownat .. | .readlinkat ..
  | .symlinkat .. | .mkfifoat .. | .mknodat .. | .fstatat .. | .linkat .. | .renameat .. => true
  | _ => false

/-- The calls that set `__have_atfcts` if the kernel does not have them. -/
def MadeCall.isAt : MadeCall → Bool
  | .path c => c.isAt
  | .times (.futimesat ..) => true
  | .times _ => false
  | .exec (.fexecve ..) => true
  | .exec _ => false

/-- A call, with what it meets. -/
inductive AtCall where
  | single (k : Kernel) (f : SinglePath) (fd : Int) (file : CString)
  | linkat (k : Kernel) (fromfd : Int) (fromPath : CString) (tofd : Int) (toPath : CString)
      (flags : BitVec 32)
  | renameat (k : Kernel) (oldfd : Int) (old : CString) (newfd : Int) (new : CString)
  | futimesat (k : Kernel) (times : TimesCall → CallResult) (fd : Int) (file : Option CString)
      (tvp : Addr)
  | fexecve (k : Kernel) (exec : ExecCall → CallResult) (fd : Int) (argv envp : Addr)

/-- What the kernel answers to a call about a path. -/
def Kernel.answerTo (k : Kernel) : MadeCall → Option CallResult
  | .path c => some (k.call c)
  | _ => none

/-- What the kernel answers to a call that it meets. -/
def AtCall.answerTo : AtCall → MadeCall → Option CallResult
  | single k _ _ _, made => k.answerTo made
  | linkat k _ _ _ _ _, made => k.answerTo made
  | renameat k _ _ _ _, made => k.answerTo made
  | futimesat _ times _ _ _, .times c => some (times c)
  | fexecve _ exec _ _ _, .exec c => some (exec c)
  | _, _ => none

/-- What a call does: the calls it makes, in order, and what it returns. -/
structure AtAnswer where
  calls : List MadeCall
  result : Exec CallResult
deriving DecidableEq, Repr

/-- The answer of a function for paths. -/
def AtResult.answer (r : AtResult) : AtAnswer × Int :=
  (⟨r.calls.map .path, r.result⟩, r.haveAtfcts)

/-- What the call does when it reads `haveAtfcts`, and what it leaves there. -/
def AtCall.ask (H : Headers) (KF_VTYPE_VREG haveAtfcts : Int) : AtCall → AtAnswer × Int
  | single k f fd file => (f.run H k haveAtfcts fd file).answer
  | linkat k fromfd fromPath tofd toPath flags =>
      (AtEmulation.linkat H k haveAtfcts fromfd fromPath tofd toPath flags).answer
  | renameat k oldfd old newfd new =>
      (AtEmulation.renameat H k haveAtfcts oldfd old newfd new).answer
  | futimesat k times fd file tvp =>
      let r := AtEmulation.futimesat H k times haveAtfcts fd file tvp
      (⟨r.calls.map .times, r.result⟩, r.haveAtfcts)
  | fexecve k exec fd argv envp =>
      let r := AtEmulation.fexecve H KF_VTYPE_VREG k exec haveAtfcts fd argv envp
      (⟨r.calls.map .exec, r.result⟩, r.haveAtfcts)

/-- Among the calls there is a `*at` system call that the kernel does not have. -/
def GotENOSYS (answerTo : MadeCall → Option CallResult) (calls : List MadeCall) : Prop :=
  ∃ sys ∈ calls, sys.isAt = true ∧ ∃ result ∈ answerTo sys, result.LacksCall

/-- A call that ended has got `ENOSYS`. -/
def AtCall.Failed (ended : AtCall × AtAnswer) : Prop :=
  GotENOSYS ended.1.answerTo ended.2.calls

end GlibcPorts.AtEmulation
