import GlibcPorts.Errno
import GlibcPorts.Lib.CString

/-!
# `GlibcPorts.Process.Affinity`: the CPUs of a process

`sched_getaffinity` and `sched_setaffinity` of `kfreebsd/sched_getaffinity.c` and
`kfreebsd/sched_setaffinity.c`. A set of CPUs is a block of bytes, of a size that the caller
chooses. The system calls are parameters, over the states of a kernel.

A store outside of the block is `none`.
-/

set_option autoImplicit false

namespace GlibcPorts.Process

open Lib
open Lib.CString (writeAt)

/-- `sizeof (cpu_set_t)`. -/
def sizeofCpuSetT : Nat := 128 / 8

/-- The set of the process itself. -/
def CPU_LEVEL_WHICH : Nat := 3

/-- The id is that of a process. -/
def CPU_WHICH_PID : Nat := 2

/-- The system calls, by the level, the kind of the id, the id and the size of the block. -/
structure CpuCalls (S : Type) where
  /-- `__syscall_cpuset_getaffinity`: its error, or what it stores. -/
  getaffinity : S → Nat → Nat → Int → Nat → Except Errno (List UInt8)
  /-- `__syscall_cpuset_setaffinity`: its error, or the state of the kernel behind it. -/
  setaffinity : S → Nat → Nat → Int → Nat → List UInt8 → Except Errno S

/-- What a function returns, and `errno` after it. -/
structure AffinityResult where
  res : Int
  errno : Errno
deriving DecidableEq, Repr

/-- The result of a system call, where `errno` was as given. -/
def AffinityResult.ofCall {α : Type} (errno : Errno) : Except Errno α → AffinityResult
  | .ok _ => ⟨0, errno⟩
  | .error e => ⟨-1, e⟩

/-- `__set_errno (EINVAL)` if `errno` is one of these. The test is also made behind a success. -/
def AffinityResult.hide (hidden : List Errno) (r : AffinityResult) : AffinityResult :=
  if r.errno ∈ hidden then { r with errno := EINVAL } else r

section Functions

variable {S : Type} (k : CpuCalls S) (s : S) (getpid : Int)

/-- The zeros that `sched_getaffinity` stores behind a `cpu_set_t`. -/
def clearRest (cpusetsize : Nat) (cpuset : List UInt8) : Option (List UInt8) :=
  if sizeofCpuSetT < cpusetsize then
    writeAt cpuset sizeofCpuSetT (List.replicate (cpusetsize - sizeofCpuSetT) 0)
  else some cpuset

/-- The block behind the system call. -/
def storeSet (cpuset : List UInt8) : Except Errno (List UInt8) → Option (List UInt8)
  | .ok stored => writeAt cpuset 0 stored
  | .error _ => some cpuset

/-- `__libc_sched_getaffinity`: the result, and the block. -/
def schedGetaffinity (pid : Int) (cpusetsize : Nat) (cpuset : List UInt8) (errno : Errno) :
    Option (AffinityResult × List UInt8) := do
  let pid := if pid = 0 then getpid else pid
  let cpuset ← clearRest cpusetsize cpuset
  let call := k.getaffinity s CPU_LEVEL_WHICH CPU_WHICH_PID pid (min cpusetsize sizeofCpuSetT)
  let cpuset ← storeSet cpuset call
  return ((AffinityResult.ofCall errno call).hide [ERANGE], cpuset)

/-- `__libc_sched_setaffinity`: the result, and the state of the kernel. -/
def schedSetaffinity (pid : Int) (cpusetsize : Nat) (cpuset : List UInt8) (errno : Errno) :
    AffinityResult × S :=
  let pid := if pid = 0 then getpid else pid
  let call := k.setaffinity s CPU_LEVEL_WHICH CPU_WHICH_PID pid cpusetsize cpuset
  ((AffinityResult.ofCall errno call).hide [ERANGE, EDEADLK], call.toOption.getD s)

end Functions

end GlibcPorts.Process
