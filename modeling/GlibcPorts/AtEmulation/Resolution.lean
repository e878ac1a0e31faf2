import GlibcPorts.Errno
import GlibcPorts.Lib.CString

/-!
# `GlibcPorts.AtEmulation.Resolution`: what a path relative to a descriptor means

The purpose of the `*at` functions, without buffers and records. A descriptor of the process is
closed, a directory with a path, or something else (`Descriptor`). `resolve` turns a descriptor
and a path into the path that a function without a descriptor gets, and `resolveFile` is
`resolve` with the checks of its arguments that the functions with one path make first.

`Files` is what paths and descriptors are good for: they lead to files. `relativeTo` is the file
that a call with a descriptor is about, and `relativeTo_eq` says that the call without one is about
the same file when it gets the path of `resolveFile`.
-/

set_option autoImplicit false

namespace GlibcPorts.AtEmulation

open Lib

/-- The working directory in place of a descriptor. -/
def AT_FDCWD : Int := -100

/-- What a process has open under a descriptor. -/
inductive Descriptor where
  | closed
  | directory (path : CString)
  | other
deriving DecidableEq, Repr

/-- A slash, as a string. -/
def slash : CString := ⟨[47], by decide⟩

/-- The first character of a path is a slash. -/
def isAbsolute (file : CString) : Bool := file.chars.head? == some 47

/-- A path is relative to the descriptor that comes with it. -/
def usesFd (fd : Int) (file : CString) : Bool := fd != AT_FDCWD && !isAbsolute file

/-- The path that `file` means relative to `fd`. -/
def resolve (table : Int → Descriptor) (fd : Int) (file : CString) : Except Errno CString :=
  if usesFd fd file then
    match table fd with
    | .closed => .error EBADF
    | .directory path => .ok (path ++ (slash ++ file))
    | .other => .error ENOTDIR
  else .ok file

/-- `resolve`, after the checks of a descriptor and a path that go together. -/
def resolveFile (table : Int → Descriptor) (fd : Int) (file : CString) : Except Errno CString :=
  if usesFd fd file then
    if fd < 0 then .error EBADF
    else if file.strlen = 0 then .error ENOENT
    else resolve table fd file
  else .ok file

/-! ### Files -/

/-- A descriptor as a call takes it: a negative number is none, whatever the table has under it. -/
def openDescriptor (table : Int → Descriptor) (fd : Int) : Descriptor :=
  if fd < 0 then .closed else table fd

/-- The files that a process can do a certain thing to, and how it reaches them: by a path that is
not empty, or under a descriptor. -/
structure Files (table : Int → Descriptor) (Obj : Type) where
  named : CString → Option Obj
  opened : Int → Option Obj
  opened_closed : ∀ fd, openDescriptor table fd = .closed → opened fd = none

namespace Files

variable {table : Int → Descriptor} {Obj : Type} (files : Files table Obj)

/-- The file at a path. No file has the empty path. -/
def atPath (path : CString) : Option Obj :=
  if path.strlen = 0 then none else files.named path

/-- The file at a path relative to a descriptor. -/
def relativeTo (fd : Int) (file : CString) : Option Obj :=
  if file.strlen = 0 then none
  else (resolve (openDescriptor table) fd file).toOption.bind files.named

/-- The path of `resolveFile` leads to the same file. -/
theorem relativeTo_eq (fd : Int) (file : CString) :
    files.relativeTo fd file = (resolveFile table fd file).toOption.bind files.atPath := by
  unfold relativeTo resolveFile resolve
  cases huses : usesFd fd file with
  | false => rfl
  | true =>
      by_cases hempty : file.strlen = 0
      · by_cases hfd : fd < 0 <;> simp [hempty, hfd, Except.toOption]
      by_cases hfd : fd < 0
      · simp [hempty, hfd, openDescriptor, Except.toOption]
      cases htable : table fd with
      | directory path =>
          -- The whole path is not empty, because `file` is not.
          simp [hempty, hfd, htable, openDescriptor, Except.toOption, atPath]
      | _ => simp [hempty, hfd, htable, openDescriptor, Except.toOption]

end Files

end GlibcPorts.AtEmulation
