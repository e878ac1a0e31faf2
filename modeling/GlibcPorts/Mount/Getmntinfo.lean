import GlibcPorts.Lib.Block
import GlibcPorts.Lib.Loop
import GlibcPorts.Errno
import GlibcPorts.Mount.Statfsconv

/-!
# `GlibcPorts.Mount.Getmntinfo`: the list of the mounted file systems

`__getfsstat` and `__getmntinfo` of `kfreebsd/getfsstat.c` and `kfreebsd/getmntinfo.c`, and their
64-bit variants, which differ in the type of the records (`Format`).

`getfsstat` lets the kernel fill an array of its own records and converts them. `getmntinfo`
asks for the number of file systems, gets a buffer for so many, and asks for the records. The
buffer stays for the next call: `mntbuf` and `mntbufsize` are static variables, and `heap` has
the blocks that the function allocated.

The results of the system call and of `malloc` are parameters. They may differ from call to call,
so the state counts the calls.
-/

set_option autoImplicit false

namespace GlibcPorts.Mount

open Lib

/-- A type of records: its size, and how a record is made from the kernel's. -/
structure Format (S : Type) where
  size : Nat
  convert : StatfsFbsd5 → S

def statfsFormat (abi : Abi) : Format (Statfs abi abi.longBits) :=
  ⟨sizeofStatfs abi, statfs5ToStatfs abi⟩

def statfs64Format (abi : Abi) : Format (Statfs abi 64) :=
  ⟨sizeofStatfs64 abi, statfs5ToStatfs64 abi⟩

/-- What the system call returns and stores, with the `errno` it leaves when it fails. -/
structure FsstatReply where
  count : Int
  stored : List StatfsFbsd5
  errno : Errno
deriving DecidableEq, Repr

/-- `__syscall_getfsstat`. Its argument is the size of the buffer, or `none` for `NULL`. -/
abbrev SysGetfsstat := Option Nat → FsstatReply

/-! ### `getfsstat` -/

section Getfsstat

variable {S : Type} (abi : Abi) (fmt : Format S)

/-- A number as the machine's `size_t` holds it. -/
def toSize (n : Int) : Nat := (n % 2 ^ abi.longBits).toNat

/-- A `size_t` as a `long`. -/
def toLong (n : Nat) : Int := (n : Int).bmod (2 ^ abi.longBits)

/-- `bufcount`: how many records fit a buffer of `bufsize` bytes. -/
def bufcount (bufsize : Int) : Nat := bufsize.toNat / fmt.size

/-- The size of the kernel's records for so many. -/
def tmpbufSize (bufcount : Nat) : Nat := toSize abi (bufcount * sizeofStatfsFbsd5)

/-- `tmpbuf` behind the system call: what the kernel stored, and memory without a value. -/
def tmpbuf (size : Nat) (stored : List StatfsFbsd5) : Block StatfsFbsd5 :=
  stored.map some ++ Block.fresh (size / sizeofStatfsFbsd5 - stored.length)

/-- `__getfsstat`: what the system call says, and the heap behind the conversion. `none` is an
access outside the arrays. -/
def getfsstat (sys : SysGetfsstat) (heap : Heap S) (buf : Option Nat) (bufsize : Int) :
    Option (FsstatReply × Heap S) :=
  match buf with
  | none => some (sys none, heap)
  | some p =>
      if bufcount fmt bufsize = 0 then some (sys none, heap)
      else
        let size := tmpbufSize abi (bufcount fmt bufsize)
        let reply := sys (some size)
        if 0 < reply.count then do
          let block ← heap p
          let block ← copyDown fmt.convert (tmpbuf size reply.stored) reply.count.toNat block
          return (reply, heap.store p block)
        else some (reply, heap)

end Getfsstat

/-! ### `getmntinfo` -/

/-- The static variables and the blocks that they were given, with the number of calls of
`getfsstat` so far. -/
structure MntState (S : Type) where
  mntbufsize : Int
  mntbuf : Option Nat
  heap : Heap S
  calls : Nat

/-- What `getmntinfo` returns. -/
inductive MntResult where
  /-- A number of records and `*mntbufp`. -/
  | entries (count : Int) (mntbufp : Option Nat)
  /-- 0, with this `errno`. -/
  | zero (errno : Errno)
deriving DecidableEq, Repr

/-- What `getmntinfo` meets: the results of the system call and of `malloc` of so many bytes, by
the number of calls of `getfsstat` before them. -/
structure MntEnv where
  sys : Nat → SysGetfsstat
  malloc : Nat → Nat → Option Nat

section Getmntinfo

variable {S : Type} (abi : Abi) (fmt : Format S) (env : MntEnv)

/-- `if (mntbuf != NULL) free (mntbuf);` -/
def freeBuffer (s : MntState S) : Option (Heap S) :=
  match s.mntbuf with
  | none => some s.heap
  | some p => s.heap.free p

/-- The part of the loop that gets a buffer for `count` records: the state behind it, and whether
there is a buffer. -/
def ensureBuffer (count : Int) (s : MntState S) : Option (Bool × MntState S) :=
  if s.mntbufsize < count then do
    let heap ← freeBuffer s
    let bytes := toSize abi (count * fmt.size)
    match env.malloc s.calls bytes with
    | none => return (false, { s with mntbufsize := 0, mntbuf := none, heap := heap })
    | some p =>
        return (true, { s with
          mntbufsize := count, mntbuf := some p, heap := heap.alloc p (bytes / fmt.size) })
  else return (true, s)

/-- The part of the loop that fetches the records. -/
def fetchRecords (count : Int) (s : MntState S) :
    Option ((MntResult × MntState S) ⊕ MntState S) := do
  let (reply, heap) ← getfsstat abi fmt (env.sys s.calls) s.heap s.mntbuf
    (toLong abi (toSize abi (count * fmt.size)))
  let s := { s with heap := heap, calls := s.calls + 1 }
  if reply.count < 0 then return .inl (.zero reply.errno, s)
  else if reply.count = 0 then return .inl (.zero 0, s)
  else if reply.count ≤ count then return .inl (.entries reply.count s.mntbuf, s)
  else return .inr s

/-- The body of the loop. -/
def mntinfoTurn (s : MntState S) : Option ((MntResult × MntState S) ⊕ MntState S) := do
  let (reply, heap) ← getfsstat abi fmt (env.sys s.calls) s.heap none 0
  let s := { s with heap := heap, calls := s.calls + 1 }
  if reply.count < 0 then return .inl (.zero reply.errno, s)
  else if reply.count = 0 then return .inl (.zero 0, s)
  else
    let (enough, s) ← ensureBuffer abi fmt env reply.count s
    if enough then fetchRecords abi fmt env reply.count s else return .inl (.zero ENOMEM, s)

/-- `__getmntinfo`, for records of any type. -/
def mntinfo (fuel : Nat) (s : MntState S) : Left (MntState S) (MntResult × MntState S) :=
  forever (mntinfoTurn abi fmt env) fuel s

end Getmntinfo

/-- `__getmntinfo`. -/
def getmntinfo (abi : Abi) (env : MntEnv) (fuel : Nat) (s : MntState (Statfs abi abi.longBits)) :
    Left (MntState (Statfs abi abi.longBits)) (MntResult × MntState (Statfs abi abi.longBits)) :=
  mntinfo abi (statfsFormat abi) env fuel s

/-- `getmntinfo64`. -/
def getmntinfo64 (abi : Abi) (env : MntEnv) (fuel : Nat) (s : MntState (Statfs abi 64)) :
    Left (MntState (Statfs abi 64)) (MntResult × MntState (Statfs abi 64)) :=
  mntinfo abi (statfs64Format abi) env fuel s

end GlibcPorts.Mount
