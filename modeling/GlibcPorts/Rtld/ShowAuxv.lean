import GlibcPorts.Rtld.AuxiliaryVector

/-!
# `GlibcPorts.Rtld.ShowAuxv`: the auxiliary vector in print

`_dl_show_auxv` prints a line for each entry, by a table with a label and a form for each type. The
table starts at the type 2 and is indexed by the low 32 bits of the type. The function reads the
form of an entry before it asks whether the index is in the table.

What `_dl_printf` prints is a list of characters for each call. The model is `none` when the code
reads outside of the table, the vector or a string, or writes outside of its buffers.
-/

set_option autoImplicit false

namespace GlibcPorts.Rtld

inductive Form where
  | unknown
  | dec
  | hex
  | str
  | ignore
deriving DecidableEq

/-- An entry of the table. The label has room for 16 characters. -/
structure AuxVar where
  label : List Char
  form : Form
deriving DecidableEq

/-- `auxvars`. No type 22 is known. -/
def auxvars : List AuxVar :=
  [⟨"EXECFD:       ".toList, .dec⟩, ⟨"PHDR:         0x".toList, .hex⟩,
    ⟨"PHENT:        ".toList, .dec⟩, ⟨"PHNUM:        ".toList, .dec⟩,
    ⟨"PAGESZ:       ".toList, .dec⟩, ⟨"BASE:         0x".toList, .hex⟩,
    ⟨"FLAGS:        0x".toList, .hex⟩, ⟨"ENTRY:        0x".toList, .hex⟩,
    ⟨"NOTELF:       ".toList, .hex⟩, ⟨"UID:          ".toList, .dec⟩,
    ⟨"EUID:         ".toList, .dec⟩, ⟨"GID:          ".toList, .dec⟩,
    ⟨"EGID:         ".toList, .dec⟩, ⟨"EXECPATH:     ".toList, .str⟩,
    ⟨"CANARY:       0x".toList, .hex⟩, ⟨"CANARYLEN:    ".toList, .dec⟩,
    ⟨"OSRELDATE:    ".toList, .dec⟩, ⟨"NCPUS:        ".toList, .dec⟩,
    ⟨"PAGESIZES:    0x".toList, .hex⟩, ⟨"PAGESIZESLEN: ".toList, .dec⟩,
    ⟨[], .unknown⟩, ⟨"STACKPROT:    0x".toList, .hex⟩]

section Show

variable {abi : Abi}

/-- `_itoa (value, end, base, 0)`, with `room` characters in front of `end`. -/
def itoa (value base room : Nat) : Option (List Char) :=
  let digits := Nat.toDigits base value
  if digits.length ≤ room then some digits else none

/-- What stands for the value of an entry. `strings` is the text at an address. -/
def showValue (strings : BitVec abi.longBits → Option (List Char)) (form : Form)
    (a_val : BitVec abi.longBits) : Option (List Char) :=
  match form with
  | .dec => itoa a_val.toNat 10 63
  | .hex => itoa a_val.toNat 16 63
  | _ => strings a_val

/-- The body of the loop: the lines it prints, at most one. -/
def showEntry (strings : BitVec abi.longBits → Option (List Char)) (av : Auxv abi) :
    Option (List (List Char)) :=
  let idx := ((av.a_type - 2).setWidth 32).toNat
  if (av.a_type.setWidth 32).toNat < 2 then some []
  else
    match auxvars[idx]? with
    | none => none
    | some var =>
        if var.form = .ignore then some []
        else if idx < auxvars.length ∧ var.form ≠ .unknown then do
          let val ← showValue strings var.form av.a_val
          return ["AT_".toList ++ var.label ++ val ++ "\n".toList]
        else do
          let val2 ← itoa av.a_val.toNat 16 16
          let val ← itoa av.a_type.toNat 16 63
          return ["AT_??? (0x".toList ++ val ++ "): 0x".toList ++ val2 ++ "\n".toList]

/-- `_dl_show_auxv`: the lines it prints. -/
def dlShowAuxv (strings : BitVec abi.longBits → Option (List Char)) :
    List (Auxv abi) → Option (List (List Char))
  | [] => none
  | av :: auxv =>
      if av.is AT_NULL then some []
      else do
        let line ← showEntry strings av
        let lines ← dlShowAuxv strings auxv
        return line ++ lines

end Show

end GlibcPorts.Rtld
