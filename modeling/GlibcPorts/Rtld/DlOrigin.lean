import GlibcPorts.Abi
import GlibcPorts.Lib.Backward
import GlibcPorts.Lib.CString

/-!
# `GlibcPorts.Rtld.DlOrigin`: the directory of the program

`_dl_get_origin` of `kfreebsd/dl-origin.c` and the functions that it uses. `dlSelfName` looks for
the path of the program: in the link `/proc/self/exe`, in the name that the kernel gave in the
auxiliary vector, or in this name behind the current directory. `dlGetOrigin` cuts the path at its
last slash. Without a path it takes the value of `LD_ORIGIN_PATH`.

`OriginEnv` is what the code meets: the results of the calls, and memory. The model is `none` when
the code reads or writes outside its memory.
-/

set_option autoImplicit false

namespace GlibcPorts.Rtld

open Lib
open Lib.CString (writeAt readAt strcpy memcpy)

/-- The character `/`. -/
def slash : UInt8 := 47

/-- What the code meets. -/
structure OriginEnv where
  pathMax : Nat
  pathMax_pos : 0 < pathMax
  pathMax_lt : 2 * pathMax < 2 ^ 31
  /-- `linkval` before anything is stored there. -/
  stack : List UInt8
  length_stack : stack.length = 2 * pathMax
  /-- What `readlink` stores, if it succeeds. It stores no NUL behind it. -/
  readlink : Option (List UInt8)
  readlink_le : ∀ link, readlink = some link → link.length ≤ 2 * pathMax
  /-- `_self_program_name_from_auxv`. -/
  auxvName : Option CString
  /-- What the system call `getcwd` stores in its buffer of `PATH_MAX` bytes, if it succeeds. -/
  syscallGetcwd : Option CString
  syscallGetcwd_lt : ∀ wd, syscallGetcwd = some wd → wd.strlen < pathMax
  /-- What `generic_getcwd` stores in the buffer, if it succeeds. -/
  genericGetcwd : Option CString
  genericGetcwd_lt : ∀ wd, genericGetcwd = some wd → wd.strlen < 2 * pathMax
  /-- `GLRO(dl_origin_path)`: the value of `LD_ORIGIN_PATH`. -/
  originPath : Option CString
  /-- The block of so many bytes that `malloc` returns, with what it holds. -/
  malloc : Nat → Option (List UInt8)
  length_malloc : ∀ n block, malloc n = some block → block.length = n

/-- A number as an `int` holds it. -/
def toInt (n : Int) : Int := n.bmod (2 ^ 32)

section Origin

variable (e : OriginEnv)

/-- `sizeof (linkval)`. -/
def OriginEnv.buflen : Nat := 2 * e.pathMax

/-! ### The path of the program -/

/-- `__readlink ("/proc/self/exe", buf, buflen)`. -/
def readlink (buf : List UInt8) : Option (Int × List UInt8) :=
  match e.readlink with
  | none => some (-1, buf)
  | some link => (writeAt buf 0 link).map fun buf => (link.length, buf)

/-- `__getcwd (buf, size)`, for a buffer: whether it is not `NULL`, and the buffer. -/
def getcwd (buf : List UInt8) (size : Nat) : Option (Bool × List UInt8) :=
  match e.syscallGetcwd with
  | some wd =>
      let len := wd.strlen + 1
      if size = 0 then some (false, buf)
      else if size < len then some (false, buf)
      else (memcpy buf 0 wd.bytes len).map fun buf => (true, buf)
  | none =>
      match e.genericGetcwd with
      | none => some (false, buf)
      | some wd => (writeAt buf 0 wd.bytes).map fun buf => (true, buf)

/-- `len > 0 && name[0] == '/'`, where `len` is the length of the name as an `int`. -/
def isAbsolute (name : CString) : Bool :=
  0 < toInt name.strlen && name.chars.head? == some slash

/-- Copies the name to the offset `off` of the buffer, where the path has `len` bytes then. A path
that is too long for the buffer is cut. -/
def copyName (name : CString) (buf : List UInt8) (off : Nat) (len : Int) (buflen : Nat) :
    Option (Int × List UInt8) := do
  if len < buflen then
    let buf ← strcpy buf off name
    return (len, buf)
  else
    let buf ← memcpy buf off name.bytes (buflen - off)
    let buf ← writeAt buf (buflen - 1) [0]
    return (buflen - 1, buf)

/-- The part of `_dl_self_name` for an absolute name. -/
def absoluteName (name : CString) (buf : List UInt8) (buflen : Nat) : Option (Int × List UInt8) :=
  copyName name buf 0 (toInt name.strlen) buflen

/-- The part of `_dl_self_name` for a relative name. -/
def relativeName (name : CString) (buf : List UInt8) (buflen : Nat) :
    Option (Int × List UInt8) := do
  let (found, buf) ← getcwd e buf buflen
  if !found then return (-1, buf)
  let wd ← readAt buf 0
  let wdlen := wd.strlen
  let buf ← writeAt buf wdlen [slash]
  -- Both lengths are an `int`, and so is their sum.
  copyName name buf (wdlen + 1) (toInt (wdlen + toInt name.strlen + 1)) buflen

/-- The part of `_dl_self_name` without the link. -/
def auxvSelfName (buf : List UInt8) (buflen : Nat) : Option (Int × List UInt8) :=
  match e.auxvName with
  | none => some (-1, buf)
  | some name =>
      if isAbsolute name then absoluteName name buf buflen else relativeName e name buf buflen

/-- `_dl_self_name`: what it returns, and the buffer. -/
def dlSelfName (buf : List UInt8) (buflen : Nat) : Option (Int × List UInt8) := do
  let (len, buf) ← readlink e buf
  if 0 < len && buf.head? == some slash then return (len, buf)
  auxvSelfName e buf buflen

/-! ### The directory -/

/-- What `_dl_get_origin` returns. -/
inductive OriginResult where
  /-- `(char *) -1`. -/
  | failed
  /-- A block that holds the string. -/
  | block (bytes : List UInt8)
deriving DecidableEq, Repr

/-- The copy of the first `len - 1` bytes of the path, or of the slash that they end with. -/
def copyOrigin (linkval : List UInt8) (len : Nat) : Option OriginResult :=
  match e.malloc (len + 1) with
  | none => some .failed
  | some result =>
      if len = 1 then (memcpy result 0 [slash, 0] 2).map .block
      else do
        let result ← memcpy result 0 linkval (len - 1)
        let result ← writeAt result (len - 1) [0]
        return .block result

/-- The part of `_dl_get_origin` with a path in the first `len` bytes of `linkval`. -/
def originOfPath (linkval : List UInt8) (len : Nat) : Option OriginResult :=
  (scanBack (· != slash) 1 linkval len).bind fun len => copyOrigin e linkval len

/-- The part of `_dl_get_origin` without a path. -/
def originOfVariable : Option OriginResult :=
  match e.originPath with
  | none => some .failed
  | some path => do
      let len := path.strlen
      match e.malloc (len + 1) with
      | none => return .failed
      | some result =>
          let result ← memcpy result 0 path.bytes len
          let cp ← scanBack (· == slash) 1 result len
          let result ← writeAt result cp [0]
          return .block result

/-- `_dl_get_origin`. -/
def dlGetOrigin : Option OriginResult := do
  let (len, linkval) ← dlSelfName e e.stack e.buflen
  if 0 < len then originOfPath e linkval len.toNat else originOfVariable e

end Origin

end GlibcPorts.Rtld
