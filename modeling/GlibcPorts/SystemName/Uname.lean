import GlibcPorts.Lib.Backward
import GlibcPorts.Lib.ByteField
import GlibcPorts.Errno

/-!
# `GlibcPorts.SystemName.Uname`: `uname`

The function of `kfreebsd/uname.c`. It fetches the names of the host, of the release and of the
version from the kernel, each into a character array of its own size, and it tidies up the version
in place. The name of the machine is a constant on one machine and is fetched on the others.

`sysctlString` is `sysctl` of a string. A string that fits is copied with its NUL. Else the call
fails, and the array is full.
-/

set_option autoImplicit false

namespace GlibcPorts.SystemName

open Lib
open Lib.CString (upToNul)

/-- The size of the fields. -/
def UTSNAME_LENGTH : Nat := 32

/-- The size of the version. -/
def UTSNAME_VERSION_LENGTH : Nat := 256

/-- `struct utsname`. -/
structure Utsname where
  sysname : ByteField UTSNAME_LENGTH
  nodename : ByteField UTSNAME_LENGTH
  release : ByteField UTSNAME_LENGTH
  version : ByteField UTSNAME_VERSION_LENGTH
  machine : ByteField UTSNAME_LENGTH
deriving DecidableEq

/-- The strings of the kernel: `kern.hostname`, `kern.osrelease`, `kern.version` and
`hw.machine`. -/
structure KernelStrings where
  hostname : CString
  osrelease : CString
  version : CString
  machine : CString

/-- What the code is compiled for: `__x86_64__`, or another machine. -/
inductive Cpu where
  | x86_64
  | other
deriving DecidableEq, Repr

/-! ### Fetching -/

section Fetch

variable {n : Nat}

/-- The array behind a copy of the bytes, as many as fit. -/
def overwrite (f : ByteField n) (bs : List UInt8) : ByteField n where
  bytes := bs.take n ++ f.bytes.drop bs.length
  length_bytes := by
    rw [List.length_append, List.length_take, List.length_drop, f.length_bytes]
    omega

/-- `__sysctl (request, 2, f, &len, NULL, 0)` of the string `s`, where `len` is the size of the
array: the new `len` or the error, and the array. -/
def sysctlString (s : CString) (f : ByteField n) : Except Errno Nat × ByteField n :=
  if s.bytes.length ≤ n then (.ok s.bytes.length, overwrite f s.bytes)
  else (.error ENOMEM, overwrite f s.bytes)

/-- Fills an array of the structure with the string `s`. Nothing is done when `sysctl` fails. -/
def fetch (s : CString) (f : ByteField n) : Option (ByteField n) :=
  match sysctlString s f with
  | (.ok len, f) => if len < n then f.store len [0] else some f
  | (.error _, f) => some f

end Fetch

/-! ### The version -/

/-- `c == '\t' || c == '\n' || c == ' '`. -/
def isBlank (c : UInt8) : Bool := c == 9 || c == 10 || c == 32

/-- `if (*p == '\t' || *p == '\n') *p = ' ';` -/
def turnBlank (c : UInt8) : UInt8 := if c == 9 || c == 10 then 32 else c

/-- The two loops over the version. The first one starts at `strnlen`. -/
def tidyBytes (bs : List UInt8) : Option (List UInt8) := do
  let (p, bs) ← clearBack isBlank 0 (upToNul bs).strlen bs
  mapBack turnBlank p bs

/-- The size stays. -/
theorem length_of_tidyBytes {bs bs' : List UInt8} (h : tidyBytes bs = some bs') :
    bs'.length = bs.length := by
  obtain ⟨⟨p, cleared⟩, hclear, hmap⟩ := Option.bind_eq_some_iff.mp h
  exact (length_of_mapBack hmap).trans (length_of_clearBack hclear)

/-- Tidies up the version. -/
def tidyVersion {n : Nat} (f : ByteField n) : Option (ByteField n) :=
  match h : tidyBytes f.bytes with
  | none => none
  | some bs => some ⟨bs, (length_of_tidyBytes h).trans f.length_bytes⟩

/-! ### The function -/

/-- Fills `machine`. The kernel would say "amd64" on the first of these machines. -/
def fillMachine (cpu : Cpu) (s : CString) (f : ByteField UTSNAME_LENGTH) :
    Option (ByteField UTSNAME_LENGTH) :=
  match cpu with
  | .x86_64 => f.store 0 (literal "x86_64")
  | .other => fetch s f

/-- `__uname`: what it returns, and the structure. `none` is a store outside an array. -/
def uname (cpu : Cpu) (kernel : KernelStrings) (name : Utsname) : Option (Int × Utsname) := do
  let sysname ← name.sysname.store 0 (literal "GNU/kFreeBSD")
  let nodename ← fetch kernel.hostname name.nodename
  let release ← fetch kernel.osrelease name.release
  let version ← fetch kernel.version name.version
  let version ← tidyVersion version
  let machine ← fillMachine cpu kernel.machine name.machine
  return (0, ⟨sysname, nodename, release, version, machine⟩)

end GlibcPorts.SystemName
