import GlibcPorts.AtEmulation.Faccessat

/-!
# `GlibcPorts.AtEmulation.Permissions`: who may access a file

The purpose of `access` and `faccessat`, without system calls. An access is judged by the ids of a
process, either the real or the effective ones (`Creds`), and the bits of the file for the class
that the ids belong to: the owner, else the group, else the others.

The kernel grants everything to the super-user (`kernelAllows`). What the two functions are for is
the rule that the super-user may execute a file only if somebody may (`allows`).

`JudgesAccess` is a kernel that follows its rule for the files that paths and descriptors lead to.
`StartIds` are the ids of the process when its program started.
-/

set_option autoImplicit false

namespace GlibcPorts.AtEmulation

open Lib

/-- The ids that an access is judged by. -/
structure Creds where
  uid : IdT
  gid : IdT
  groupMember : IdT → Bool

namespace Creds

variable (c : Creds) (stats : Stat64) (mode : BitVec 32)

/-- The bits of the file for the class of the process, in the last three places. -/
def classBits : BitVec 32 :=
  let stMode := stats.stMode.setWidth 32
  if c.uid = stats.stUid then stMode >>> 6
  else if stats.stGid = c.gid ∨ c.groupMember stats.stGid then stMode >>> 3
  else stMode

/-- The class of the process has all the bits of `mode`. -/
def hasBits : Bool := c.classBits stats &&& mode = mode

/-- The rule of the kernel. -/
def kernelAllows : Bool := c.uid = 0 || c.hasBits stats mode

/-- The rule of the two functions. -/
def allows : Bool :=
  if c.uid = 0 then mode &&& X_OK = 0 || stats.anyExec else c.hasBits stats mode

end Creds

/-- The ids that the flags ask about. -/
def credsOf (env : AccessEnv) (flag : BitVec 32) : Creds :=
  ⟨accessUid env flag, accessGid env flag, env.groupMember⟩

/-- The ids when the program started. -/
structure StartIds where
  uid : IdT
  euid : IdT
  gid : IdT
  egid : IdT
deriving DecidableEq, Repr

/-- The real and the effective ids differ. -/
def StartIds.differ (start : StartIds) : Bool := start.uid ≠ start.euid || start.gid ≠ start.egid

/-- A call says that an access is allowed. -/
def CallResult.allowed (r : CallResult) : Bool := r.ret = 0

@[simp] theorem CallResult.allowed_success : CallResult.success.allowed = true := rfl

/-- A call of the kernel says whether an access is allowed. -/
def Answers (r : CallResult) (allowed : Bool) : Prop :=
  if allowed then r.ret = 0 else r.ret = -1 ∧ r.errno ≠ ENOSYS

/-- A call of the kernel finds a file, or it fails without saying that it is missing. -/
def Finds (r : Exec Stat64) (file : Option Stat64) : Prop :=
  match file with
  | some stats => r = .ok stats
  | none => ∃ errno, r = .fail errno ∧ errno ≠ ENOSYS

/-- The calls of the kernel find the files and judge by its rule, and `__libc_enable_secure` was
set for a program that started with different ids. The call `fstatat` is there where `faccessat`
is. -/
structure JudgesAccess {table : Int → Descriptor} (files : Files table Stat64) (start : StartIds)
    (k : Kernel) (env : AccessEnv) : Prop where
  stat64 : ∀ path, Finds (statCall k env (.xstat64 STAT_VER path env.stats)) (files.atPath path)
  fstatat : ∀ fd file,
    Finds (statCall k env (.fstatat fd file env.buf16 0)) (files.relativeTo fd file)
  sysAccess : ∀ path mode, Answers (env.sysAccess path mode)
    ((files.atPath path).any fun stats => (credsOf env 0).kernelAllows stats mode)
  sysFaccessat : ∀ fd file mode flag, flag = 0 ∨ flag = AT_EACCESS →
    Answers (env.sysFaccessat fd file mode flag)
      ((files.relativeTo fd file).any fun stats => (credsOf env flag).kernelAllows stats mode)
  secure : env.libcEnableSecure = start.differ

/-- What the caller learns from a call that returns: whether the access is allowed. -/
def Exec.answer : Exec CallResult → Option Bool
  | .ok r => some r.allowed
  | .fail _ => some false
  | .fault | .running => none

end GlibcPorts.AtEmulation
