import GlibcPorts.Abi
import GlibcPorts.Errno
import GlibcPorts.Lib.Alignment
import GlibcPorts.Lib.LastEntry

/-!
# `GlibcPorts.Rtld.AuxiliaryVector`: what the kernel tells a program at its start

The functions that go over the auxiliary vector: `_dl_sysdep_start` of `dl-sysdep.c` in the dynamic
linker, `_dl_aux_init` of `dl-support.c` in a static program, and `_dl_show_auxv`, which prints the
vector. The vector ends at the entry `AT_NULL`. The memory of it is a list, and a loop that goes
over the end of the list is `none`.

`StartEnv` is what `_dl_sysdep_start` meets beside the vector. The break is that of `brk.c`, which
starts at `_end`, and `__sbrk` is the one of the C library (`SbrkWorks`). `kernelAuxv` is the vector
that the kernel fills in, as the comment in `dl-machine.h` has it.
-/

set_option autoImplicit false

namespace GlibcPorts.Rtld

open Lib

/-- `ElfW(auxv_t)`. -/
structure Auxv (abi : Abi) where
  a_type : BitVec abi.longBits
  a_val : BitVec abi.longBits
deriving DecidableEq

/-! ### The types of the entries -/

/-- The end of the vector. -/
def AT_NULL : Nat := 0

/-- The descriptor of the program. -/
def AT_EXECFD : Nat := 2

/-- The program headers. -/
def AT_PHDR : Nat := 3

/-- The size of one of them. -/
def AT_PHENT : Nat := 4

/-- Their number. -/
def AT_PHNUM : Nat := 5

/-- The size of a page. -/
def AT_PAGESZ : Nat := 6

/-- The base of the interpreter. -/
def AT_BASE : Nat := 7

/-- Flags, not used. -/
def AT_FLAGS : Nat := 8

/-- The entry point of the program. -/
def AT_ENTRY : Nat := 9

/-- The path of the program. -/
def AT_EXECPATH : Nat := 15

section Start

variable {abi : Abi}

/-- The entries with a type. -/
def Auxv.is (tag : Nat) (av : Auxv abi) : Bool := av.a_type.toNat = tag

/-- The last value of a type, or `default` where there is none. -/
def lastValue (tag : Nat) (entries : List (Auxv abi)) (default : BitVec abi.longBits) :
    BitVec abi.longBits :=
  ((lastEntry (Auxv.is tag) entries).map Auxv.a_val).getD default

/-! ### The dynamic linker -/

/-- What the loop of `_dl_sysdep_start` sets. -/
structure StartVars (abi : Abi) where
  phdr : BitVec abi.longBits
  phnum : BitVec 32
  dl_pagesize : BitVec abi.longBits
  user_entry : BitVec abi.longBits
  selfName : BitVec abi.longBits

/-- The `switch`. -/
def StartVars.set (vars : StartVars abi) (av : Auxv abi) : StartVars abi :=
  if av.is AT_PHDR then { vars with phdr := av.a_val }
  else if av.is AT_PHNUM then { vars with phnum := av.a_val.setWidth 32 }
  else if av.is AT_PAGESZ then { vars with dl_pagesize := av.a_val }
  else if av.is AT_ENTRY then { vars with user_entry := av.a_val }
  else if av.is AT_EXECPATH then { vars with selfName := av.a_val }
  else vars

/-- `for (av = _dl_auxv; av->a_type != AT_NULL; av++)`, with what the loop does at an entry. -/
def overAuxv {σ : Type} (body : σ → Auxv abi → σ) : List (Auxv abi) → σ → Option σ
  | [], _ => none
  | av :: auxv, s => if av.is AT_NULL then some s else overAuxv body auxv (body s av)

/-- `__curbrk` and `errno`. -/
structure BreakState (abi : Abi) where
  curbrk : BitVec abi.longBits
  errno : Errno
deriving DecidableEq

/-- `__brk (addr)`, with whether it returns zero. `obreak` is the answer of the system call. -/
def brk (endOfBss : BitVec abi.longBits) (obreak : BitVec abi.longBits → Bool)
    (s : BreakState abi) (addr : BitVec abi.longBits) : BreakState abi × Bool :=
  if addr < endOfBss then (s, true)
  else if obreak addr then ({ s with curbrk := addr }, true)
  else ({ s with errno := ENOMEM }, false)

/-- What `_dl_sysdep_start` meets. -/
structure StartEnv (abi : Abi) where
  getuid : BitVec 32
  geteuid : BitVec 32
  getgid : BitVec 32
  getegid : BitVec 32
  getpagesize : BitVec abi.longBits
  /-- `GLRO(dl_pagesize)`, `_self_program_name_from_auxv` and `errno` before the call. -/
  dl_pagesize : BitVec abi.longBits
  selfName : BitVec abi.longBits
  errno : Errno
  /-- `ENTRY_POINT`. -/
  entryPoint : BitVec abi.longBits
  /-- The address of `_end`. -/
  endOfBss : BitVec abi.longBits
  /-- The system call `obreak` moves the break to this address. -/
  obreak : BitVec abi.longBits → Bool
  /-- `__sbrk (increment)`. -/
  sbrk : BreakState abi → BitVec abi.longBits → BreakState abi × BitVec abi.longBits
  /-- `dl_main`: the entry that it leaves for the program, from what it is given. -/
  dl_main : BitVec abi.longBits → BitVec 32 → BitVec abi.longBits → BitVec abi.longBits

/-- `__sbrk` gives the current break for zero, and moves it up with `__brk`. -/
structure StartEnv.SbrkWorks (e : StartEnv abi) : Prop where
  zero : ∀ s, e.sbrk s 0 = (s, s.curbrk)
  moves : ∀ s increment, 0 < increment.toInt →
    s.curbrk.toNat + increment.toNat < 2 ^ abi.longBits →
    e.sbrk s increment =
      let (s', moved) := brk e.endOfBss e.obreak s (s.curbrk + increment)
      (s', if moved then s.curbrk else -1)

/-- What `_dl_sysdep_start` leaves: what it gives to `dl_main`, its globals, the break, whether it
called `__libc_check_standard_fds`, and its result. -/
structure Started (abi : Abi) where
  vars : StartVars abi
  libc_enable_secure : BitVec 32
  brk : BreakState abi
  checkedStandardFds : Bool
  result : BitVec abi.longBits

/-- `_dl_sysdep_start`. -/
def dlSysdepStart (e : StartEnv abi) (auxv : List (Auxv abi)) : Option (Started abi) := do
  let vars ← overAuxv StartVars.set auxv ⟨0, 0, e.dl_pagesize, e.entryPoint, e.selfName⟩
  let uid := 0 ^^^ e.getuid ^^^ e.geteuid
  let gid := 0 ^^^ e.getgid ^^^ e.getegid
  let secure := uid ||| gid
  let vars := { vars with
    dl_pagesize := if vars.dl_pagesize = 0 then e.getpagesize else vars.dl_pagesize }
  -- `__curbrk` is initialized to `&_end`.
  let (brk, current) := e.sbrk ⟨e.endOfBss, e.errno⟩ 0
  let brk :=
    if current = e.endOfBss then
      (e.sbrk brk (vars.dl_pagesize - (e.endOfBss &&& (vars.dl_pagesize - 1)))).1
    else brk
  return {
    vars
    libc_enable_secure := secure
    brk
    checkedStandardFds := secure ≠ 0
    result := e.dl_main vars.phdr vars.phnum vars.user_entry }

/-! ### A static program -/

/-- What `_dl_aux_init` sets: `dl_pagesize`, `dl_phdr` and `dl_phnum`. -/
structure AuxInit (abi : Abi) where
  dl_pagesize : BitVec abi.longBits
  dl_phdr : BitVec abi.longBits
  dl_phnum : BitVec abi.longBits

/-- The `switch`. -/
def AuxInit.set (s : AuxInit abi) (av : Auxv abi) : AuxInit abi :=
  if av.is AT_PAGESZ then { s with dl_pagesize := av.a_val }
  else if av.is AT_PHDR then { s with dl_phdr := av.a_val }
  else if av.is AT_PHNUM then { s with dl_phnum := av.a_val }
  else s

/-- `_dl_aux_init`. -/
def dlAuxInit (s : AuxInit abi) (auxv : List (Auxv abi)) : Option (AuxInit abi) :=
  overAuxv AuxInit.set auxv s

/-! ### The kernel -/

/-- What the kernel knows of the program: `execfd` where there is one, and a path that is zero
where there is none. -/
structure ImageArgs (abi : Abi) where
  execfd : Option (BitVec abi.longBits)
  phdr : BitVec abi.longBits
  phent : BitVec abi.longBits
  phnum : BitVec abi.longBits
  pagesz : BitVec abi.longBits
  flags : BitVec abi.longBits
  entry : BitVec abi.longBits
  base : BitVec abi.longBits
  execpathp : BitVec abi.longBits

/-- `AUXARGS_ENTRY`. -/
def auxargsEntry (tag : Nat) (val : BitVec abi.longBits) : Auxv abi :=
  ⟨BitVec.ofNat abi.longBits tag, val⟩

/-- The entries that the kernel makes, without the last one. -/
def kernelEntries (args : ImageArgs abi) : List (Auxv abi) :=
  (args.execfd.map (auxargsEntry AT_EXECFD)).toList
    ++ [auxargsEntry AT_PHDR args.phdr, auxargsEntry AT_PHENT args.phent,
      auxargsEntry AT_PHNUM args.phnum, auxargsEntry AT_PAGESZ args.pagesz,
      auxargsEntry AT_FLAGS args.flags, auxargsEntry AT_ENTRY args.entry,
      auxargsEntry AT_BASE args.base]
    ++ (if args.execpathp ≠ 0 then [auxargsEntry AT_EXECPATH args.execpathp] else [])

/-- The vector of the kernel. -/
def kernelAuxv (args : ImageArgs abi) : List (Auxv abi) :=
  kernelEntries args ++ [auxargsEntry AT_NULL 0]

end Start

end GlibcPorts.Rtld
