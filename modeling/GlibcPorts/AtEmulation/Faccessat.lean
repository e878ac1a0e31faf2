import GlibcPorts.AtEmulation.Calls

/-!
# `GlibcPorts.AtEmulation.Faccessat`: `access` and `faccessat`

`access` and `faccessat` wrap their system calls: the kernel lets the super-user execute any
file, and the wrappers allow it only if somebody may execute the file. Without the system call,
`faccessat` has two ways: it finds the path for `access` as the other functions do
(`emulatedFile`), or, for the flags that `access` does not know, it compares the mode bits of the
file itself (`faccessatBits`).

Where `faccessat` looks at the file, it calls `fstatat64`, which is `fxstatat64` and shares
`__have_atfcts` with it. So a kernel without the calls leads to the block of that function.

The ids are those of the process at the time of the call. `libcEnableSecure` was set when the
program started.
-/

set_option autoImplicit false

namespace GlibcPorts.AtEmulation

open Lib

/-- Whether the file exists. -/
def F_OK : BitVec 32 := 0

/-- Whether it can be executed. -/
def X_OK : BitVec 32 := 1

/-- Whether it can be written. -/
def W_OK : BitVec 32 := 2

/-- Whether it can be read. -/
def R_OK : BitVec 32 := 4

/-- With the effective ids. -/
def AT_EACCESS : BitVec 32 := 0x100

/-- The owner can execute the file. -/
def S_IXUSR : BitVec 16 := 0o100

/-- The group can execute it. -/
def S_IXGRP : BitVec 16 := 0o010

/-- Others can execute it. -/
def S_IXOTH : BitVec 16 := 0o001

/-- The fields of `struct stat64` that decide about an access. -/
structure Stat64 where
  stMode : ModeT
  stUid : IdT
  stGid : IdT
deriving DecidableEq, Repr

/-- What `faccessat` meets beside the calls of `Kernel`: its own calls, what is stored about a file,
and the ids of the process. -/
structure AccessEnv where
  /-- The system call `faccessat`. -/
  sysFaccessat : (fd : Int) → (file : CString) → (mode flag : BitVec 32) → CallResult
  /-- The system call `access`. -/
  sysAccess : (path : CString) → (mode : BitVec 32) → CallResult
  /-- The address of the local variable `stats`. -/
  stats : Addr
  /-- The address of the local variable of `__fxstatat64`. -/
  buf16 : Addr
  /-- What `stats` holds behind a call that succeeds. -/
  stored : PathCall → Stat64
  uid : IdT
  euid : IdT
  gid : IdT
  egid : IdT
  /-- `__group_member`. -/
  groupMember : IdT → Bool
  /-- `__libc_enable_secure`. -/
  libcEnableSecure : Bool

/-- Anybody may execute the file. -/
def Stat64.anyExec (stats : Stat64) : Bool :=
  stats.stMode &&& (S_IXUSR ||| S_IXGRP ||| S_IXOTH) != 0

/-- The function returns 0. -/
def CallResult.success : CallResult := ⟨0, 0⟩

/-- What a call of the kernel says about a file. -/
def statCall (k : Kernel) (env : AccessEnv) (c : PathCall) : Exec Stat64 :=
  if (k.call c).ret ≠ 0 then .fail (k.call c).errno else .ok (env.stored c)

/-- `__access`. -/
def access (k : Kernel) (env : AccessEnv) (path : CString) (mode : BitVec 32) : Exec CallResult :=
  if env.uid ≠ 0 ∨ mode &&& X_OK = 0 then .ok (env.sysAccess path mode)
  else if (env.sysAccess path mode).ret ≠ 0 then .fail (env.sysAccess path mode).errno
  else
    (statCall k env (.xstat64 STAT_VER path env.stats)).bind fun stats =>
      if stats.anyExec then .ok .success else .fail EACCES

/-- What a call of `faccessat` returns, with the value of `__have_atfcts` after it. -/
structure AccessResult where
  result : Exec CallResult
  haveAtfcts : Int
deriving DecidableEq, Repr

section Faccessat

variable (H : Headers) (k : Kernel) (env : AccessEnv)

/-- The id that the flags ask about: `uid` of `faccessat`. -/
def accessUid (flag : BitVec 32) : IdT := if flag &&& AT_EACCESS ≠ 0 then env.euid else env.uid

/-- The group that the flags ask about. -/
def accessGid (flag : BitVec 32) : IdT := if flag &&& AT_EACCESS ≠ 0 then env.egid else env.gid

/-- `fstatat64 (fd, file, &stats, flag)`, which is a call of `__fxstatat64`, with the value of
`__have_atfcts` after it. -/
def fstatat64 (haveAtfcts : Int) (fd : Int) (file : CString) (flag : BitVec 32) :
    Exec Stat64 × Int :=
  let called := fxstatat64 H k haveAtfcts env.buf16 STAT_VER fd file env.stats flag
  let stats := called.result.bind fun result =>
    if result.ret ≠ 0 then .fail result.errno
    -- The last call that was made is the one that filled `stats`.
    else .ofOption (called.calls.getLast?.map env.stored)
  (stats, called.haveAtfcts)

/-- What `faccessat` does with the result of the system call. -/
def faccessatChecked (haveAtfcts : Int) (fd : Int) (file : CString) (mode flag : BitVec 32) :
    AccessResult :=
  let result := env.sysFaccessat fd file mode flag
  if result.ret = 0 ∧ mode &&& X_OK ≠ 0 ∧ accessUid env flag = 0 then
    let (found, haveAtfcts) :=
      fstatat64 H k env haveAtfcts fd file (flag &&& AT_SYMLINK_NOFOLLOW)
    ⟨found.bind fun stats => if stats.anyExec then .ok result else .fail EACCES, haveAtfcts⟩
  else ⟨.ok result, haveAtfcts⟩

/-- `granted` of `faccessat`: the bits of `mode` that the class of the process has. -/
def granted (stats : Stat64) (mode flag : BitVec 32) : BitVec 32 :=
  let stMode := stats.stMode.setWidth 32
  if accessUid env flag = stats.stUid then (stMode &&& (mode <<< 6)) >>> 6
  else if stats.stGid = accessGid env flag ∨ env.groupMember stats.stGid then
    (stMode &&& (mode <<< 3)) >>> 3
  else stMode &&& mode

/-- The answer of the mode bits. -/
def judgeBits (stats : Stat64) (mode flag : BitVec 32) : Exec CallResult :=
  let mode := mode &&& (X_OK ||| W_OK ||| R_OK)
  if mode = F_OK then .ok .success
  else if accessUid env flag = 0 ∧ (mode &&& X_OK = 0 ∨ stats.anyExec) then .ok .success
  else if granted env stats mode flag = mode then .ok .success
  else .fail EACCES

/-- The end of `faccessat`, which looks at the mode bits. -/
def faccessatBits (haveAtfcts : Int) (fd : Int) (file : CString) (mode flag : BitVec 32) :
    AccessResult :=
  let (found, haveAtfcts) :=
    fstatat64 H k env haveAtfcts fd file (flag &&& AT_SYMLINK_NOFOLLOW)
  ⟨found.bind fun stats => judgeBits env stats mode flag, haveAtfcts⟩

/-- The part of `faccessat` behind the system call. -/
def emulatedFaccessat (haveAtfcts : Int) (fd : Int) (file : CString) (mode flag : BitVec 32) :
    AccessResult :=
  if flag &&& ~~~(AT_SYMLINK_NOFOLLOW ||| AT_EACCESS) ≠ 0 then ⟨.fail EINVAL, haveAtfcts⟩
  else if (flag &&& AT_EACCESS = 0 ∨ env.libcEnableSecure = false) ∧
      flag &&& AT_SYMLINK_NOFOLLOW = 0 then
    ⟨(emulatedFile H k fd file).bind fun path => access k env path mode, haveAtfcts⟩
  else faccessatBits H k env haveAtfcts fd file mode flag

/-- `faccessat`. -/
def faccessat (haveAtfcts : Int) (fd : Int) (file : CString) (mode flag : BitVec 32) :
    AccessResult :=
  if 0 ≤ haveAtfcts then
    let result := env.sysFaccessat fd file mode flag
    if result.ret = -1 ∧ result.errno = ENOSYS then
      emulatedFaccessat H k env (-1) fd file mode flag
    else faccessatChecked H k env haveAtfcts fd file mode flag
  else emulatedFaccessat H k env haveAtfcts fd file mode flag

end Faccessat

end GlibcPorts.AtEmulation
