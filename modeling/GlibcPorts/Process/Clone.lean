import GlibcPorts.Errno
import Mathlib.Algebra.Group.Nat.Defs

/-!
# `GlibcPorts.Process.Clone`: `clone` by way of `rfork`

The kernel has no `clone`. `__clone` of `clone.c` translates the flags to those of `rfork`, which
depends on the kernel: from the release date 802510 on, the signal at the end of the child has
flags of its own. `getosreldate.c` keeps that date in two variables, one of them for programs,
which may set `OSVERSION` in the environment.

`asked` is the child that the flags of `clone` describe, and `forked` the one that flags of `rfork`
stand for, by the macros of `sys/rfork.h`.
-/

set_option autoImplicit false

namespace GlibcPorts.Process

/-! ### The release date of the kernel -/

/-- The two variables `osreldate`, zero where there is no date yet. -/
structure DateCaches where
  kernel : BitVec 32
  program : BitVec 32
deriving DecidableEq

/-- `__kernel_getosreldate`, for what `sysctl` stores, if it succeeds. -/
def kernelGetosreldate (sysctl : Option (BitVec 32)) (s : DateCaches) : BitVec 32 × DateCaches :=
  if s.kernel = 0 then
    match sysctl with
    | none => (-1, s)
    | some date => (date, { s with kernel := date })
  else (s.kernel, s)

/-- `__getosreldate`. `osversion` is the number that `atoi` makes of `OSVERSION`, if it is set. -/
def getosreldate (osversion sysctl : Option (BitVec 32)) (s : DateCaches) :
    BitVec 32 × DateCaches :=
  if s.program = 0 then
    match osversion with
    | some date => (date, { s with program := date })
    | none =>
        let (date, s) := kernelGetosreldate sysctl s
        (date, { s with program := date })
  else (s.program, s)

/-! ### The flags -/

/-- The signal at the end of the child. -/
def CSIGNAL : BitVec 32 := 0xff
/-- Share the memory. -/
def CLONE_VM : BitVec 32 := 0x100
/-- Share the working directory and the like. -/
def CLONE_FS : BitVec 32 := 0x200
/-- Share the table of open files. -/
def CLONE_FILES : BitVec 32 := 0x400
/-- Share the signal handlers. -/
def CLONE_SIGHAND : BitVec 32 := 0x800
/-- The parent waits. -/
def CLONE_VFORK : BitVec 32 := 0x4000
/-- Share the values to undo semaphore operations. -/
def CLONE_SYSVSEM : BitVec 32 := 0x40000

/-- A new name space. Not implemented. -/
def RFNAMEG : BitVec 32 := (1 : BitVec 32) <<< (0 : Nat)
/-- Copy the environment space. Not implemented. -/
def RFENVG : BitVec 32 := (1 : BitVec 32) <<< (1 : Nat)
/-- Copy the table of open files. -/
def RFFDG : BitVec 32 := (1 : BitVec 32) <<< (2 : Nat)
/-- A new note group. Not implemented. -/
def RFNOTEG : BitVec 32 := (1 : BitVec 32) <<< (3 : Nat)
/-- A new process. -/
def RFPROC : BitVec 32 := (1 : BitVec 32) <<< (4 : Nat)
/-- Share the address space. -/
def RFMEM : BitVec 32 := (1 : BitVec 32) <<< (5 : Nat)
/-- The parent need not `wait` for the child. -/
def RFNOWAIT : BitVec 32 := (1 : BitVec 32) <<< (6 : Nat)
/-- An empty name space. Not implemented. -/
def RFCNAMEG : BitVec 32 := (1 : BitVec 32) <<< (10 : Nat)
/-- An empty environment space. Not implemented. -/
def RFCENVG : BitVec 32 := (1 : BitVec 32) <<< (11 : Nat)
/-- An empty table of open files. -/
def RFCFDG : BitVec 32 := (1 : BitVec 32) <<< (12 : Nat)
/-- A thread of the parent. -/
def RFTHREAD : BitVec 32 := (1 : BitVec 32) <<< (13 : Nat)
/-- Share the signal handlers. -/
def RFSIGSHARE : BitVec 32 := (1 : BitVec 32) <<< (14 : Nat)
/-- The signal at the end is in the bits from `RFTHPNSHIFT` on. -/
def RFLINUXTHPN : BitVec 32 := (1 : BitVec 32) <<< (16 : Nat)
/-- Leave the child stopped. -/
def RFSTOPPED : BitVec 32 := (1 : BitVec 32) <<< (17 : Nat)
/-- Use a high process id. -/
def RFHIGHPID : BitVec 32 := (1 : BitVec 32) <<< (18 : Nat)
/-- The signal at the end is in the bits from `RFTSIGSHIFT` on. -/
def RFTSIGZMB : BitVec 32 := (1 : BitVec 32) <<< (19 : Nat)
/-- The parent sleeps until the child exits. -/
def RFPPWAIT : BitVec 32 := (1 : BitVec 32) <<< (31 : Nat)

/-- Where the eight bits of a signal are. -/
def RFTSIGSHIFT : Nat := 20
def RFTSIGMASK : BitVec 32 := 0xff
/-- Where the seven bits of a signal are on an old kernel. -/
def RFTHPNSHIFT : Nat := 24
def RFTHPNMASK : BitVec 32 := 0x7f

/-- `RFTSIGNUM (flags)`. -/
def RFTSIGNUM (flags : BitVec 32) : BitVec 32 := flags.sshiftRight RFTSIGSHIFT &&& RFTSIGMASK

/-- `RFTSIGFLAGS (signum)`. -/
def RFTSIGFLAGS (signum : BitVec 32) : BitVec 32 := signum <<< RFTSIGSHIFT

/-- `RFTHPNSIGNUM (flags)`. -/
def RFTHPNSIGNUM (flags : BitVec 32) : BitVec 32 := flags.sshiftRight RFTHPNSHIFT &&& RFTHPNMASK

/-- The number of `SIGCHLD`. -/
def SIGCHLD : BitVec 32 := 20

/-- The flags that `__clone` takes. -/
def supportedFlags : BitVec 32 :=
  CSIGNAL ||| CLONE_VM ||| CLONE_FS ||| CLONE_FILES ||| CLONE_SIGHAND ||| CLONE_VFORK
    ||| CLONE_SYSVSEM

/-- `if (flags & mask)`. -/
abbrev isSet (flags mask : BitVec 32) : Prop := flags &&& mask ≠ 0

/-- The part of `rfork_flags` for the signal at the end, for the result of
`__kernel_getosreldate`. -/
def signalFlags (flags osreldate : BitVec 32) : Except Errno (BitVec 32) :=
  let signal := flags &&& CSIGNAL
  if signal = SIGCHLD then .ok 0
  else if 802510 ≤ osreldate.toInt then
    if isSet signal (~~~RFTSIGMASK) then .error EINVAL
    else .ok (RFTSIGZMB ||| RFTSIGFLAGS signal)
  else if isSet signal (~~~RFTHPNMASK) then .error EINVAL
  else if signal = 0 then .ok (RFLINUXTHPN ||| (SIGCHLD <<< RFTHPNSHIFT))
  else .ok (RFLINUXTHPN ||| (signal <<< RFTHPNSHIFT))

/-- `__clone`, up to the call of `__start_thread`: the flags for it. `fn` and `child_stack` are
whether the pointers are not `NULL`. -/
def clone (fn child_stack : Bool) (flags osreldate : BitVec 32) : Except Errno (BitVec 32) := do
  if ¬ fn ∨ ¬ child_stack then
    throw EINVAL
  if isSet flags (~~~supportedFlags) then
    throw EINVAL
  let signal ← signalFlags flags osreldate
  return RFPROC ||| signal
    ||| (if isSet flags CLONE_VM then RFMEM else 0)
    ||| (if isSet flags CLONE_FILES then 0 else RFFDG)
    ||| (if isSet flags CLONE_SIGHAND then RFSIGSHARE ||| RFTHREAD else 0)
    ||| (if isSet flags CLONE_VFORK then RFPPWAIT else 0)

/-! ### What the flags stand for -/

/-- Where a child has its table of open files from. -/
inductive FileTable where
  | shared
  | copied
  | empty
deriving DecidableEq

/-- A child: what it shares with its parent, whether the parent waits for it or need not, whether
it starts stopped or with a high id, and the signal that the parent gets at its end, zero for none.
`unimplemented` is whether it needs what the kernel does not have. -/
structure Child where
  memory : Bool
  files : FileTable
  handlers : Bool
  threadGroup : Bool
  parentWaits : Bool
  detached : Bool
  stopped : Bool
  highPid : Bool
  unimplemented : Bool
  exitSignal : BitVec 32
deriving DecidableEq

/-- The child that flags of `clone` ask for. -/
def asked (flags : BitVec 32) : Child where
  memory := isSet flags CLONE_VM
  files := if isSet flags CLONE_FILES then .shared else .copied
  handlers := isSet flags CLONE_SIGHAND
  threadGroup := isSet flags CLONE_SIGHAND
  parentWaits := isSet flags CLONE_VFORK
  detached := false
  stopped := false
  highPid := false
  unimplemented := false
  exitSignal := flags &&& CSIGNAL

/-- The child that flags of `rfork` stand for. -/
def forked (rfork_flags : BitVec 32) : Child where
  memory := isSet rfork_flags RFMEM
  files :=
    if isSet rfork_flags RFCFDG then .empty
    else if isSet rfork_flags RFFDG then .copied else .shared
  handlers := isSet rfork_flags RFSIGSHARE
  threadGroup := isSet rfork_flags RFTHREAD
  parentWaits := isSet rfork_flags RFPPWAIT
  detached := isSet rfork_flags RFNOWAIT
  stopped := isSet rfork_flags RFSTOPPED
  highPid := isSet rfork_flags RFHIGHPID
  unimplemented :=
    isSet rfork_flags RFNAMEG ∨ isSet rfork_flags RFENVG ∨ isSet rfork_flags RFNOTEG
      ∨ isSet rfork_flags RFCNAMEG ∨ isSet rfork_flags RFCENVG
  exitSignal :=
    if isSet rfork_flags RFTSIGZMB then RFTSIGNUM rfork_flags
    else if isSet rfork_flags RFLINUXTHPN then RFTHPNSIGNUM rfork_flags
    else SIGCHLD

end GlibcPorts.Process
