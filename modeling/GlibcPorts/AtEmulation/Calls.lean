import GlibcPorts.AtEmulation.KinfoFile

/-!
# `GlibcPorts.AtEmulation.Calls`: the `*at` functions

The functions of `kfreebsd/*at.c` with a descriptor and a path, and `linkat` and `renameat` with
two of each. Every one first makes the system call of its own name. When the kernel does not
have it, the function finds the path of the descriptor in the table of the open files
(`sysctl` of `KERN_PROC_FILEDESC`) and calls the function without a descriptor.

The functions with one path share the code that finds the path (`emulatedFile`): it appends to
`kf_path` where it stands, in the buffer with the records. The functions with two paths scan the
table once for each path and build the path in memory of its own (`emulatedSide`).

`Exec` is how a piece of C code ends. `fault` is an access outside the memory, and `running` a
loop without an end.
-/

set_option autoImplicit false

namespace GlibcPorts.AtEmulation

open Lib

/-- Not through a symbolic link. -/
def AT_SYMLINK_NOFOLLOW : BitVec 32 := 0x200

/-- Remove a directory. -/
def AT_REMOVEDIR : BitVec 32 := 0x800

/-- Create the file. -/
def O_CREAT : BitVec 32 := 0o1000

/-- The bits of the type of a file. -/
def S_IFMT : BitVec 16 := 0o170000

/-- A pipe. -/
def S_IFIFO : BitVec 16 := 0o010000

/-- The `struct stat` of the kernel. -/
def STAT_VER_stat : Int := 1

/-- The `struct stat` of this library, without large files. -/
def STAT_VER : Int := 3

/-- A `mode_t`. -/
abbrev ModeT := BitVec 16

/-- A `uid_t` or a `gid_t`. -/
abbrev IdT := BitVec 32

/-- The address of a buffer of the caller. -/
abbrev Addr := Nat

/-- The calls that the functions make on paths, with their arguments. -/
inductive PathCall where
  | openat (fd : Int) (file : CString) (oflag : BitVec 32) (mode : ModeT)
  | mkdirat (fd : Int) (file : CString) (mode : ModeT)
  | unlinkat (fd : Int) (file : CString) (flag : BitVec 32)
  | fchmodat (fd : Int) (file : CString) (mode : ModeT) (flag : BitVec 32)
  | fchownat (fd : Int) (file : CString) (owner group : IdT) (flag : BitVec 32)
  | readlinkat (fd : Int) (path : CString) (buf : Addr) (len : Nat)
  | symlinkat (fromPath : CString) (tofd : Int) (toPath : CString)
  | mkfifoat (fd : Int) (file : CString) (mode : ModeT)
  | mknodat (fd : Int) (file : CString) (mode : ModeT) (dev : Nat)
  | fstatat (fd : Int) (file : CString) (st : Addr) (flag : BitVec 32)
  | linkat (fromfd : Int) (fromPath : CString) (tofd : Int) (toPath : CString) (flags : BitVec 32)
  | renameat (oldfd : Int) (old : CString) (newfd : Int) (new : CString)
  | openFile (file : CString) (oflag : BitVec 32) (mode : ModeT)
  | mkdir (file : CString) (mode : ModeT)
  | rmdir (file : CString)
  | unlink (file : CString)
  | lchmod (file : CString) (mode : ModeT)
  | chmod (file : CString) (mode : ModeT)
  | lchown (file : CString) (owner group : IdT)
  | chown (file : CString) (owner group : IdT)
  | readlink (path : CString) (buf : Addr) (len : Nat)
  | symlink (fromPath toPath : CString)
  | xmknod (vers : Int) (file : CString) (mode : ModeT) (dev : Nat)
  | lxstat (vers : Int) (file : CString) (st : Addr)
  | xstat (vers : Int) (file : CString) (st : Addr)
  | lxstat64 (vers : Int) (file : CString) (st : Addr)
  | xstat64 (vers : Int) (file : CString) (st : Addr)
  | link (fromPath toPath : CString)
  | rename (old new : CString)
deriving DecidableEq, Repr

/-- What a call returns, with the `errno` it leaves when it returns -1. -/
structure CallResult where
  ret : Int
  errno : Errno
deriving DecidableEq, Repr

/-- The answer of a kernel that does not have the call. -/
def CallResult.LacksCall (result : CallResult) : Prop := result.ret = -1 ∧ result.errno = ENOSYS

instance CallResult.decidableLacksCall (result : CallResult) : Decidable result.LacksCall :=
  inferInstanceAs (Decidable (_ ∧ _))

/-- What a function meets: the results of its calls and the memory that `alloca` returns. -/
structure Kernel where
  call : PathCall → CallResult
  /-- The size that the first `sysctl` reports, if it succeeds. -/
  filedescLen : Option Nat
  /-- What the second `sysctl` stores in a buffer of this size, if it succeeds. -/
  filedesc : Nat → Option (List UInt8)
  filedesc_le : ∀ n stored, filedesc n = some stored → stored.length ≤ n
  /-- The contents of the memory that a call of `alloca` returns: the call and the size. -/
  stack : Nat → Nat → List UInt8
  length_stack : ∀ i n, (stack i n).length = n

/-- How a piece of C code ends. -/
inductive Exec (α : Type) where
  | ok (a : α)
  | fail (errno : Errno)
  | fault
  | running
deriving DecidableEq, Repr

namespace Exec

/-- One action and then another. -/
def bind {α β : Type} : Exec α → (α → Exec β) → Exec β
  | ok a, f => f a
  | fail errno, _ => fail errno
  | fault, _ => fault
  | running, _ => running

/-- An access to memory, or a fault. -/
def ofOption {α : Type} : Option α → Exec α
  | some a => ok a
  | none => fault

end Exec

/-- What a piece of a function does: the calls it makes on paths, in order, and what the function
returns. -/
structure Outcome where
  calls : List PathCall
  result : Exec CallResult
deriving DecidableEq, Repr

/-- What a function does that stands for the call `call` of a path: it makes the call and returns
its result, or it fails without a call. -/
def Outcome.ofResolution {α : Type} (k : Kernel) (call : α → PathCall) : Except Errno α → Outcome
  | .ok a => ⟨[call a], .ok (k.call (call a))⟩
  | .error errno => ⟨[], .fail errno⟩

/-- The function returns -1 without a call. -/
def Outcome.error (errno : Errno) : Outcome := ⟨[], .fail errno⟩

/-- The function returns what the call `c` returns. -/
def Outcome.made (k : Kernel) (c : PathCall) : Outcome := ⟨[c], .ok (k.call c)⟩

/-- What a call of a function does, with the value of `__have_atfcts` after it. -/
structure AtResult extends Outcome where
  haveAtfcts : Int
deriving DecidableEq, Repr

/-- Ends the emulation with a call, if the code before it got that far. -/
def finish {α : Type} (k : Kernel) (resolved : Exec α) (call : α → PathCall) : Outcome :=
  match resolved with
  | .ok a => .made k (call a)
  | .fail errno => .error errno
  | .fault => ⟨[], .fault⟩
  | .running => ⟨[], .running⟩

/-- The attempt to let the kernel do it: the system call `c`, unless an earlier attempt found
that the kernel does not have it. -/
def atSyscall (k : Kernel) (haveAtfcts : Int) (c : PathCall) (emulation : Outcome) : AtResult :=
  if 0 ≤ haveAtfcts then
    if (k.call c).ret = -1 ∧ (k.call c).errno = ENOSYS then
      -- `__have_atfcts = -1`, and the function goes on to the emulation.
      ⟨⟨c :: emulation.calls, emulation.result⟩, -1⟩
    else ⟨.made k c, haveAtfcts⟩
  else ⟨emulation, haveAtfcts⟩

/-! ### The table of the open files -/

section Table

variable (H : Headers)

/-- `kf_type` and `kf_vnode_type` of the record at the offset `p` are those of a directory. The
second one is read only if the first one fits. -/
def dirAt (mem : List UInt8) (p : Nat) : Option Bool := do
  let kfType ← readInt mem (p + H.kfTypeOff)
  if kfType = H.KF_TYPE_VNODE then
    let kfVnodeType ← readInt mem (p + H.kfVnodeTypeOff)
    return kfVnodeType == H.KF_VTYPE_VDIR
  else return false

/-- The body of the loop over the records in `mem`. At the record of `fd` it leaves the loop:
with `ENOTDIR`, or with the path that `build` makes of the record's. -/
def recordBody (mem : List UInt8) (fd : Int) (build : Nat → Option CString) (_ : Unit) (p : Nat) :
    Option (Exec CString ⊕ Unit) := do
  let kfFd ← readInt mem (p + H.kfFdOff)
  if kfFd = fd then
    if ← dirAt H mem p then
      let file ← build (p + H.kfPathOff)
      return .inl (.ok file)
    else return .inl (.fail ENOTDIR)
  else return .inr ()

/-- The loop over the records and the test of the cursor behind it. `mem` holds the buffer, of
which the records take `kfLen` bytes. -/
def scanRecords (mem : List UInt8) (kfLen : Nat) (fd : Int) (file : CString)
    (build : Nat → Option CString) : Exec CString :=
  match walk (fun p => readInt mem (p + H.kfStructsizeOff)) (recordBody H mem fd build) kfLen
      (kfLen + 1) () 0 with
  | .stopped p (.ok file') => if kfLen ≤ p then .fail EBADF else .ok file'
  -- `ENOTDIR` returns from the loop, so the test behind it is not made.
  | .stopped _ returned => returned
  | .ended p () => if kfLen ≤ p then .fail EBADF else .ok file
  | .fault => .fault
  | .running => .running

/-- The two calls of `sysctl`: the buffer, `extra` bytes longer than the kernel asks for, and
the new `kf_len`. -/
def readTable (k : Kernel) (extra : Nat) : Exec (List UInt8 × Nat) :=
  match k.filedescLen with
  | none => .fail ENOSYS
  | some kfLen =>
      match k.filedesc kfLen with
      | none => .fail ENOSYS
      | some stored =>
          -- Behind what the kernel stored, the buffer has what was on the stack.
          .ok (stored ++ (k.stack 0 (kfLen + extra)).drop stored.length, stored.length)

/-- `strcat (kf->kf_path, "/"); strcat (kf->kf_path, file);` in the buffer `mem`. -/
def appendInPlace (mem : List UInt8) (file : CString) (kfPath : Nat) : Option CString := do
  let mem ← CString.strcat mem kfPath slash
  let mem ← CString.strcat mem kfPath file
  CString.readAt mem kfPath

/-- The block of the functions with one path: the path for the function without a descriptor. -/
def emulatedFile (k : Kernel) (fd : Int) (file : CString) : Exec CString :=
  if fd ≠ AT_FDCWD ∧ !isAbsolute file then
    if fd < 0 then .fail EBADF
    else if file.strlen = 0 then .fail ENOENT
    else
      (readTable k file.strlen).bind fun (mem, kfLen) =>
        scanRecords H mem kfLen fd file (appendInPlace mem file)
  else .ok file

/-- `buf = alloca (strlen (kf->kf_path) + len + 2)` and the calls that fill it. -/
def joinInBuffer (k : Kernel) (i : Nat) (mem : List UInt8) (file : CString) (kfPath : Nat) :
    Option CString := do
  let path ← CString.readAt mem kfPath
  let buf ← CString.strcpy (k.stack i (path.strlen + file.strlen + 2)) 0 path
  let buf ← CString.strcat buf 0 slash
  let buf ← CString.strcat buf 0 file
  CString.readAt buf 0

/-- One side of the functions with two paths. -/
def emulatedSide (k : Kernel) (i : Nat) (mem : List UInt8) (kfLen : Nat) (fd : Int)
    (file : CString) : Exec CString :=
  if fd ≠ AT_FDCWD ∧ !isAbsolute file then
    scanRecords H mem kfLen fd file (joinInBuffer k i mem file)
  else .ok file

/-- The block of the functions with two paths. -/
def emulatedFiles (k : Kernel) (oldfd : Int) (old : CString) (newfd : Int) (new : CString) :
    Exec (CString × CString) :=
  if (oldfd ≠ AT_FDCWD ∧ !isAbsolute old) ∨ (newfd ≠ AT_FDCWD ∧ !isAbsolute new) then
    -- The tests are of both sides, also of one that does not use its descriptor.
    if oldfd < 0 ∨ newfd < 0 then .fail EBADF
    else if old.strlen = 0 ∨ new.strlen = 0 then .fail ENOENT
    else
      (readTable k 0).bind fun (mem, kfLen) =>
        (emulatedSide H k 1 mem kfLen oldfd old).bind fun old' =>
          (emulatedSide H k 2 mem kfLen newfd new).bind fun new' => .ok (old', new')
  else .ok (old, new)

end Table

/-! ### The functions -/

section Functions

variable (H : Headers) (k : Kernel) (haveAtfcts : Int)

/-- `__openat_nocancel`. -/
def openatNocancel (fd : Int) (file : CString) (oflag : BitVec 32) (mode : ModeT) : AtResult :=
  atSyscall k haveAtfcts (.openat fd file oflag mode) <|
    finish k (emulatedFile H k fd file) fun file => .openFile file oflag mode

/-- `__openat`. `arg` is the argument behind `oflag`, if there is one. -/
def openat (fd : Int) (file : CString) (oflag : BitVec 32) (arg : ModeT) : AtResult :=
  openatNocancel H k haveAtfcts fd file oflag (if oflag &&& O_CREAT ≠ 0 then arg else 0)

/-- `mkdirat`. -/
def mkdirat (fd : Int) (file : CString) (mode : ModeT) : AtResult :=
  atSyscall k haveAtfcts (.mkdirat fd file mode) <|
    finish k (emulatedFile H k fd file) fun file => .mkdir file mode

/-- `unlinkat`. -/
def unlinkat (fd : Int) (file : CString) (flag : BitVec 32) : AtResult :=
  atSyscall k haveAtfcts (.unlinkat fd file flag) <|
    if flag &&& ~~~AT_REMOVEDIR ≠ 0 then .error EINVAL
    else
      finish k (emulatedFile H k fd file) fun file =>
        if flag &&& AT_REMOVEDIR ≠ 0 then .rmdir file else .unlink file

/-- `fchmodat`. -/
def fchmodat (fd : Int) (file : CString) (mode : ModeT) (flag : BitVec 32) : AtResult :=
  atSyscall k haveAtfcts (.fchmodat fd file mode flag) <|
    if flag &&& ~~~AT_SYMLINK_NOFOLLOW ≠ 0 then .error EINVAL
    else
      finish k (emulatedFile H k fd file) fun file =>
        if flag &&& AT_SYMLINK_NOFOLLOW ≠ 0 then .lchmod file mode else .chmod file mode

/-- `fchownat`. -/
def fchownat (fd : Int) (file : CString) (owner group : IdT) (flag : BitVec 32) : AtResult :=
  atSyscall k haveAtfcts (.fchownat fd file owner group flag) <|
    if flag &&& ~~~AT_SYMLINK_NOFOLLOW ≠ 0 then .error EINVAL
    else
      finish k (emulatedFile H k fd file) fun file =>
        if flag &&& AT_SYMLINK_NOFOLLOW ≠ 0 then .lchown file owner group
        else .chown file owner group

/-- `readlinkat`. -/
def readlinkat (fd : Int) (path : CString) (buf : Addr) (len : Nat) : AtResult :=
  atSyscall k haveAtfcts (.readlinkat fd path buf len) <|
    finish k (emulatedFile H k fd path) fun path => .readlink path buf len

/-- `symlinkat`. -/
def symlinkat (fromPath : CString) (tofd : Int) (toPath : CString) : AtResult :=
  atSyscall k haveAtfcts (.symlinkat fromPath tofd toPath) <|
    finish k (emulatedFile H k tofd toPath) fun toPath => .symlink fromPath toPath

/-- `__xmknodat`. `dev` is the number that the pointer of that name points to. -/
def xmknodat (vers fd : Int) (file : CString) (mode : ModeT) (dev : Nat) : AtResult :=
  if vers ≠ H.MKNOD_VER then ⟨.error EINVAL, haveAtfcts⟩
  else
    atSyscall k haveAtfcts
        (if mode &&& S_IFMT = S_IFIFO then .mkfifoat fd file mode else .mknodat fd file mode dev) <|
      finish k (emulatedFile H k fd file) fun file => .xmknod vers file mode dev

/-- `__fxstatat`. `buf16` is the address of its local `struct stat16`. The conversion of that
to the caller's `struct stat` is not part of the model. -/
def fxstatat (buf16 : Addr) (vers fd : Int) (file : CString) (st : Addr) (flag : BitVec 32) :
    AtResult :=
  -- The version is tested only on the way to the system call.
  if 0 ≤ haveAtfcts ∧ vers ≠ STAT_VER ∧ vers ≠ STAT_VER_stat then
    ⟨.error EINVAL, haveAtfcts⟩
  else
    atSyscall k haveAtfcts (.fstatat fd file (if vers = STAT_VER then buf16 else st) flag) <|
      if flag &&& ~~~AT_SYMLINK_NOFOLLOW ≠ 0 then .error EINVAL
      else
        finish k (emulatedFile H k fd file) fun file =>
          if flag &&& AT_SYMLINK_NOFOLLOW ≠ 0 then .lxstat vers file st else .xstat vers file st

/-- `__fxstatat64`. It does not know the older version of `struct stat`. -/
def fxstatat64 (buf16 : Addr) (vers fd : Int) (file : CString) (st : Addr) (flag : BitVec 32) :
    AtResult :=
  if 0 ≤ haveAtfcts ∧ vers ≠ STAT_VER then ⟨.error EINVAL, haveAtfcts⟩
  else
    atSyscall k haveAtfcts (.fstatat fd file buf16 flag) <|
      if flag &&& ~~~AT_SYMLINK_NOFOLLOW ≠ 0 then .error EINVAL
      else
        finish k (emulatedFile H k fd file) fun file =>
          if flag &&& AT_SYMLINK_NOFOLLOW ≠ 0 then .lxstat64 vers file st
          else .xstat64 vers file st

/-- `linkat`. -/
def linkat (fromfd : Int) (fromPath : CString) (tofd : Int) (toPath : CString) (flags : BitVec 32) :
    AtResult :=
  atSyscall k haveAtfcts (.linkat fromfd fromPath tofd toPath flags) <|
    if flags ≠ 0 then .error EINVAL
    else finish k (emulatedFiles H k fromfd fromPath tofd toPath) fun paths => .link paths.1 paths.2

/-- `renameat`. -/
def renameat (oldfd : Int) (old : CString) (newfd : Int) (new : CString) : AtResult :=
  atSyscall k haveAtfcts (.renameat oldfd old newfd new) <|
    finish k (emulatedFiles H k oldfd old newfd new) fun paths => .rename paths.1 paths.2

end Functions

/-! ### The two families -/

/-- The functions with one path, with their other arguments. -/
inductive SinglePath where
  | openatNocancel (oflag : BitVec 32) (mode : ModeT)
  | openat (oflag : BitVec 32) (arg : ModeT)
  | mkdirat (mode : ModeT)
  | unlinkat (flag : BitVec 32)
  | fchmodat (mode : ModeT) (flag : BitVec 32)
  | fchownat (owner group : IdT) (flag : BitVec 32)
  | readlinkat (buf : Addr) (len : Nat)
  | symlinkat (fromPath : CString)
  | xmknodat (vers : Int) (mode : ModeT) (dev : Nat)
  | fxstatat (buf16 : Addr) (vers : Int) (st : Addr) (flag : BitVec 32)
  | fxstatat64 (buf16 : Addr) (vers : Int) (st : Addr) (flag : BitVec 32)
deriving DecidableEq, Repr

namespace SinglePath

/-- The call of the function with a descriptor and a path. -/
def run (H : Headers) (k : Kernel) (haveAtfcts : Int) (f : SinglePath) (fd : Int)
    (file : CString) : AtResult :=
  match f with
  | openatNocancel oflag mode =>
      AtEmulation.openatNocancel H k haveAtfcts fd file oflag mode
  | openat oflag arg => AtEmulation.openat H k haveAtfcts fd file oflag arg
  | mkdirat mode => AtEmulation.mkdirat H k haveAtfcts fd file mode
  | unlinkat flag => AtEmulation.unlinkat H k haveAtfcts fd file flag
  | fchmodat mode flag => AtEmulation.fchmodat H k haveAtfcts fd file mode flag
  | fchownat owner group flag => AtEmulation.fchownat H k haveAtfcts fd file owner group flag
  | readlinkat buf len => AtEmulation.readlinkat H k haveAtfcts fd file buf len
  | symlinkat fromPath => AtEmulation.symlinkat H k haveAtfcts fromPath fd file
  | xmknodat vers mode dev => AtEmulation.xmknodat H k haveAtfcts vers fd file mode dev
  | fxstatat buf16 vers st flag => AtEmulation.fxstatat H k haveAtfcts buf16 vers fd file st flag
  | fxstatat64 buf16 vers st flag =>
      AtEmulation.fxstatat64 H k haveAtfcts buf16 vers fd file st flag

/-- The flags, or the version, are ones that the function takes. -/
def Accepts (H : Headers) (f : SinglePath) : Prop :=
  match f with
  | unlinkat flag => flag &&& ~~~AT_REMOVEDIR = 0
  | fchmodat _ flag | fchownat _ _ flag | fxstatat _ _ _ flag | fxstatat64 _ _ _ flag =>
      flag &&& ~~~AT_SYMLINK_NOFOLLOW = 0
  | xmknodat vers _ _ => vers = H.MKNOD_VER
  | _ => True

/-- The call without a descriptor that stands for the function. -/
def plainCall (f : SinglePath) (file : CString) : PathCall :=
  match f with
  | openatNocancel oflag mode => .openFile file oflag mode
  | openat oflag arg => .openFile file oflag (if oflag &&& O_CREAT ≠ 0 then arg else 0)
  | mkdirat mode => .mkdir file mode
  | unlinkat flag => if flag &&& AT_REMOVEDIR ≠ 0 then .rmdir file else .unlink file
  | fchmodat mode flag =>
      if flag &&& AT_SYMLINK_NOFOLLOW ≠ 0 then .lchmod file mode else .chmod file mode
  | fchownat owner group flag =>
      if flag &&& AT_SYMLINK_NOFOLLOW ≠ 0 then .lchown file owner group
      else .chown file owner group
  | readlinkat buf len => .readlink file buf len
  | symlinkat fromPath => .symlink fromPath file
  | xmknodat vers mode dev => .xmknod vers file mode dev
  | fxstatat _ vers st flag =>
      if flag &&& AT_SYMLINK_NOFOLLOW ≠ 0 then .lxstat vers file st else .xstat vers file st
  | fxstatat64 _ vers st flag =>
      if flag &&& AT_SYMLINK_NOFOLLOW ≠ 0 then .lxstat64 vers file st else .xstat64 vers file st

end SinglePath

/-- The functions with two paths. -/
inductive TwoPaths where
  | linkat
  | renameat
deriving DecidableEq, Repr

namespace TwoPaths

/-- The call of the function with two descriptors and two paths, and without flags. -/
def run (H : Headers) (k : Kernel) (haveAtfcts : Int) (f : TwoPaths) (fromfd : Int)
    (fromPath : CString) (tofd : Int) (toPath : CString) : AtResult :=
  match f with
  | linkat => AtEmulation.linkat H k haveAtfcts fromfd fromPath tofd toPath 0
  | renameat => AtEmulation.renameat H k haveAtfcts fromfd fromPath tofd toPath

/-- The call without descriptors that stands for the function. -/
def plainCall (f : TwoPaths) (paths : CString × CString) : PathCall :=
  match f with
  | linkat => .link paths.1 paths.2
  | renameat => .rename paths.1 paths.2

end TwoPaths

end GlibcPorts.AtEmulation
