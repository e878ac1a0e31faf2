import GlibcPorts.Errno
import GlibcPorts.Interfaces.RouteMessages
import GlibcPorts.Lib.ByteField
import GlibcPorts.Lib.Loop
import GlibcPorts.Lib.Realloc

/-!
# `GlibcPorts.Interfaces.IfIndex`: names and indices of interfaces

`if_nametoindex`, `if_indextoname`, `if_nameindex` and `if_freenameindex` of
`kfreebsd/if_index.c`. The first three run a function over the routing messages of the kernel
(`ifIterate`), which the function may leave early. The function gets the caller's variables and
`errno`, and it is `none` when it reads or writes outside its memory.

`if_nameindex` keeps two arrays that grow, one with the records and one with the names. While they
grow, the pointer of a record to its name is an offset, as a pointer from NULL on. All that is
counted lies in memory, so the counters do not wrap.
-/

set_option autoImplicit false

namespace GlibcPorts.Interfaces

open Lib

/-- The size of a name, with its NUL. -/
def IF_NAMESIZE : Nat := 16

/-- The same under the name of the kernel. -/
def IFNAMSIZ : Nat := IF_NAMESIZE

/-- `sizeof (struct sockaddr_dl)`. -/
def sizeofSockaddrDl : Nat := 54

/-- What a call comes to. -/
inductive Outcome (α : Type) where
  | returned (a : α)
  | aborted
  | fault
  | running
deriving DecidableEq, Repr

/-- What follows a call that returns. -/
def Outcome.bind {α β : Type} : Outcome α → (α → Outcome β) → Outcome β
  | .returned a, f => f a
  | .aborted, _ => .aborted
  | .fault, _ => .fault
  | .running, _ => .running

/-! ### `if_iterate` -/

/-- What `__sysctl` says: the `errno` of a call that fails, and what the call stores. The bytes
stored are `buf.needed` also when it fails. -/
structure SysctlReply where
  errno : Option Errno
  buf : RouteBuf

/-- `if_fn`. It returns whether to stop, and the variables and `errno` behind the call. -/
abbrev IfFn (σ : Type) := σ → Errno → Nat → CString → Option (Bool × σ × Errno)

namespace RouteBuf

variable (buf : RouteBuf) (p : Nat)

/-- `ifm_msglen`. -/
def ifmMsglen : Nat := buf.rtmMsglen p

/-- `sdl`, at the end of the message, if it does not lie in front of the buffer. -/
def ifmSdl : Option Nat :=
  if sizeofSockaddrDl + 2 ≤ p + buf.ifmMsglen p then
    some (p + buf.ifmMsglen p - sizeofSockaddrDl - 2)
  else none

/-- `namebuf`, for the `sockaddr_dl` at `p`. -/
def namebuf : CString := CString.upToNul (buf.bytes (p + 8) (min (buf.sdlNlen p) IFNAMSIZ))

end RouteBuf

section Iterate

variable {σ : Type}

/-- A turn of the loop that asks the kernel for the messages. The state is the number of calls and
`bufsize`. -/
def sysctlTurn (sysctl : Nat → Nat → SysctlReply) (s : Nat × Nat) :
    Option (Except Errno RouteBuf ⊕ (Nat × Nat)) :=
  match (sysctl s.1 s.2).errno with
  | none => some (.inl (.ok (sysctl s.1 s.2).buf))
  | some errno =>
      if errno ≠ ENOMEM then some (.inl (.error errno))
      else some (.inr (s.1 + 1, 2 * (sysctl s.1 s.2).buf.needed))

/-- A turn of the loop over the messages. It leaves the loop with the state when the function says
so, and without one when it aborts. -/
def iterateTurn (buf : RouteBuf) (fn : IfFn σ) (s : σ × Errno) (p : Nat) :
    Option (Option (σ × Errno) ⊕ (σ × Errno)) :=
  if buf.rtmVersion p ≠ RTM_VERSION then some (.inl none)
  else if buf.rtmType p = RTM_IFINFO then
    if buf.ifmAddrs p &&& RTA_IFP ≠ 0 then
      if buf.ifmIndex p = 0 then some (.inl none)
      else do
        let sdl ← buf.ifmSdl p
        let (stop, s') ← fn s.1 s.2 (buf.ifmIndex p) (buf.namebuf sdl)
        return if stop then .inl (some s') else .inr s'
    else some (.inr s)
  else if buf.rtmType p = RTM_NEWADDR then some (.inr s)
  else some (.inl none)

/-- The loop over the messages. -/
def iterateBuf (buf : RouteBuf) (fn : IfFn σ) (s : σ × Errno) : Outcome (σ × Errno) :=
  match walk (fun p => some (buf.ifmMsglen p)) (iterateTurn buf fn) buf.needed (buf.needed + 1)
    s 0 with
  | .stopped _ (some s') => .returned s'
  | .stopped _ none => .aborted
  | .ended _ s' => .returned s'
  | .fault => .fault
  | .running => .running

/-- `if_iterate`. A failure of `__sysctl` only shows in `errno`. The fuel is for the calls of
`__sysctl`. -/
def ifIterate (sysctl : Nat → Nat → SysctlReply) (fuel : Nat) (fn : IfFn σ) (s : σ)
    (errno : Errno) : Outcome (σ × Errno) :=
  match forever (sysctlTurn sysctl) fuel (0, 512) with
  | .left _ (.error errno') => .returned (s, errno')
  | .left (calls, _) (.ok buf) =>
      iterateBuf buf fn (s, if calls = 0 then errno else ENOMEM)
  | .fault => .fault
  | .running => .running

end Iterate

/-! ### `if_nametoindex` and `if_indextoname` -/

section Lookups

variable (sysctl : Nat → Nat → SysctlReply) (fuel : Nat)

/-- The state of `nametoindex_aux`. -/
structure NametoindexLocals where
  name : CString
  index : Nat
deriving DecidableEq, Repr

/-- `nametoindex_aux`. -/
def nametoindexAux : IfFn NametoindexLocals := fun l errno index name =>
  if name = l.name then some (true, { l with index := index }, errno)
  else some (false, l, errno)

/-- `if_nametoindex`, with the `errno` behind it. -/
def ifNametoindex (ifname : CString) (errno : Errno) : Outcome (Nat × Errno) :=
  (ifIterate sysctl fuel nametoindexAux ⟨ifname, 0⟩ errno).bind fun (l, errno') =>
    .returned (l.index, errno')

/-- `name` is the array at `l->name`, and `retval` whether `l->retval` points to it. -/
structure IndextonameLocals where
  index : Nat
  name : ByteField IF_NAMESIZE
  retval : Bool
deriving DecidableEq, Repr

/-- `indextoname_aux`. -/
def indextonameAux : IfFn IndextonameLocals := fun l errno index name =>
  if index = l.index then
    some (true, { l with name := l.name.strncpy name.bytes IF_NAMESIZE le_rfl, retval := true },
      errno)
  else some (false, l, ENXIO)

/-- `if_indextoname`: whether it returns `ifname`, the array there, and `errno`. -/
def ifIndextoname (ifindex : Nat) (ifname : ByteField IF_NAMESIZE) (errno : Errno) :
    Outcome (Bool × ByteField IF_NAMESIZE × Errno) :=
  (ifIterate sysctl fuel indextonameAux ⟨ifindex, ifname, false⟩ errno).bind fun (l, errno') =>
    .returned (l.retval, l.name, errno')

end Lookups

/-! ### `if_nameindex` -/

/-- A `char *`: an offset from the start of a block, or from NULL. -/
structure Ptr where
  block : Option Nat
  off : Nat
deriving DecidableEq, Repr

/-- `NULL`. -/
def Ptr.null : Ptr := ⟨none, 0⟩

/-- `struct if_nameindex`. -/
structure IfNameindex where
  ifIndex : Nat
  ifName : Ptr
deriving DecidableEq, Repr

/-- The blocks of records and the blocks of characters. -/
structure Memory where
  records : Heap IfNameindex
  chars : Heap UInt8

/-- What the functions meet: the kernel, where `realloc` puts blocks, and which of its calls
fail. -/
structure IndexEnv where
  sysctl : Nat → Nat → SysctlReply
  records : Placement IfNameindex
  chars : Placement UInt8
  fails : Nat → Bool

/-- The arrays `s` and `c`, and the number of the calls of `realloc`. -/
structure NameindexLocals where
  s : ResizableArray IfNameindex
  c : ResizableArray UInt8
  oom : Bool
  calls : Nat

section Nameindex

variable (env : IndexEnv)

/-- `add_s`. -/
def addS (l : NameindexLocals) (index : Nat) (name : Ptr) : Option NameindexLocals := do
  let full := l.s.len == l.s.allocated
  let newAllocated := 2 * l.s.allocated + 1
  let calls := if full then l.calls + 1 else l.calls
  match ← l.s.add env.records env.fails l.calls full newAllocated [⟨index, name⟩] with
  | none => return { l with oom := true, calls := calls }
  | some s => return { l with s := s, calls := calls }

/-- `add_c` returns the offset of the name. -/
def addC (l : NameindexLocals) (name : CString) : Option (Nat × NameindexLocals) := do
  let n := name.strlen + 1
  let full := decide (l.c.len + n > l.c.allocated)
  let newAllocated :=
    if l.c.len + n < 2 * l.c.allocated + 1 then 2 * l.c.allocated + 1 else l.c.len + n
  let calls := if full then l.calls + 1 else l.calls
  match ← l.c.add env.chars env.fails l.calls full newAllocated name.bytes with
  | none => return (0, { l with oom := true, calls := calls })
  | some c => return (l.c.len, { l with c := c, calls := calls })

/-- `nameindex_aux`. -/
def nameindexAux : IfFn NameindexLocals := fun l errno index name => do
  let (nameOffset, l) ← addC env l name
  if l.oom then return (true, l, errno)
  let l ← addS env l index ⟨none, nameOffset⟩
  return (l.oom, l, errno)

/-- The loop that converts the offsets of the next records to pointers into the block `c`. -/
def convertOffsets (c : Option Nat) : Nat → Block IfNameindex → Option (Block IfNameindex)
  | 0, records => some records
  | n + 1, some p :: records =>
      if p.ifName.block = none then
        (convertOffsets c n records).map (some { p with ifName := ⟨c, p.ifName.off⟩ } :: ·)
      else none
  | _ + 1, _ => none

/-- The loop over `l.s_array`. -/
def convertAll (l : NameindexLocals) : Option NameindexLocals :=
  match l.s.array with
  | none => if l.s.len = 0 then some l else none
  | some a => do
      let records ← l.s.heap a
      let records ← convertOffsets l.c.array l.s.len records
      return { l with s := { l.s with heap := l.s.heap.store a records } }

/-- `l`, in front of `if_iterate`. -/
def NameindexLocals.start (mem : Memory) : NameindexLocals where
  s := .empty mem.records
  c := .empty mem.chars
  oom := false
  calls := 0

/-- What `if_nameindex` returns, `errno`, the memory behind it, and how often it called
`realloc`. -/
structure NameindexResult where
  ifn : Option Nat
  errno : Errno
  mem : Memory
  calls : Nat

/-- `if_nameindex`, behind `if_iterate`. -/
def finishNameindex (l : NameindexLocals) (errno : Errno) : Option NameindexResult := do
  let l ←
    if l.oom then some l
    else do
      let l ← convertAll l
      addS env l 0 .null
  if l.oom then
    let records ← l.s.heap.freePtr l.s.array
    let chars ← l.c.heap.freePtr l.c.array
    return ⟨none, ENOMEM, ⟨records, chars⟩, l.calls⟩
  else return ⟨l.s.array, errno, ⟨l.s.heap, l.c.heap⟩, l.calls⟩

/-- `if_nameindex`. -/
def ifNameindex (fuel : Nat) (mem : Memory) (errno : Errno) : Outcome NameindexResult :=
  (ifIterate env.sysctl fuel (nameindexAux env) (.start mem) errno).bind fun (l, errno') =>
    match finishNameindex env l errno' with
    | none => .fault
    | some result => .returned result

end Nameindex

/-- `free (p)`, for a pointer to characters. -/
def Memory.freeChars (mem : Memory) (p : Ptr) : Option (Heap UInt8) :=
  if p.off = 0 then mem.chars.freePtr p.block else none

/-- `if_freenameindex`. -/
def ifFreenameindex (mem : Memory) : Option Nat → Option Memory
  | none => some mem
  | some ifn => do
      let array ← mem.records ifn
      let first ← array.head?
      let first ← first
      let chars ← mem.freeChars first.ifName
      let records ← mem.records.free ifn
      return ⟨records, chars⟩

end GlibcPorts.Interfaces
