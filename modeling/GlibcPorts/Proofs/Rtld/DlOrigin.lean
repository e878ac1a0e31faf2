import GlibcPorts.Rtld.DlOrigin

/-!
# `GlibcPorts.Proofs.Rtld.DlOrigin`: the directory of the program

`OriginEnv.programPath` is the path of the program, and `Correct` says what `_dl_get_origin` has
to return: the directory of a path that fits the buffer (`directory`), or without a path what
`LD_ORIGIN_PATH` says (`withoutTrailingSlashes`).

`copyName_found` and `copyName_eq_none` are the two ways that the copy of a name goes. The code
keeps the length of a name in an `int`. A name whose length is right there is copied or cut, and
one whose length wraps to a small number is copied past the end of the buffer.
`dlSelfName_found` puts the three sources of the path together.

`dlGetOrigin_correct_iff` says that this is the only thing that goes wrong: the function is
correct, with all its stores inside, exactly if the name that it uses fits (`NameFits`). Only a
name of 2 GiB or more does not (`dlGetOrigin_overflows`).
-/

set_option autoImplicit false

namespace GlibcPorts.Rtld

open Lib
open Lib.CString (writeAt readAt strcpy memcpy writeAt_of_le memcpy_of_le readAt_eq_some_iff)

/-! ### What the function is for -/

/-- The part of a path before its last slash. -/
def beforeLastSlash (path : List UInt8) : List UInt8 :=
  (path.rdropWhile (· != slash)).dropLast

/-- The directory of a path. -/
def directory (path : List UInt8) : List UInt8 :=
  if beforeLastSlash path = [] then [slash] else beforeLastSlash path

/-- A path without its trailing slashes. A path of slashes alone is `/`. -/
def withoutTrailingSlashes (path : List UInt8) : List UInt8 :=
  if path ≠ [] ∧ path.rdropWhile (· == slash) = [] then [slash]
  else path.rdropWhile (· == slash)

section Spec

variable (e : OriginEnv)

namespace OriginEnv

/-- The path in the link, if it is absolute. -/
def linkPath : Option (List UInt8) := e.readlink.filter fun link => link.head? == some slash

/-- The current directory. -/
def cwd : Option CString := e.syscallGetcwd.or e.genericGetcwd

/-- The path that a name stands for. -/
def namePath (name : CString) : Option (List UInt8) :=
  if name.chars.head? = some slash then some name.chars
  else e.cwd.map fun wd => wd.chars ++ slash :: name.chars

/-- The path of the program. -/
def programPath : Option (List UInt8) := e.linkPath.or (e.auxvName.bind e.namePath)

end OriginEnv

/-- The result is a block of `size` bytes with the string, unless `malloc` fails. -/
def Returns (r : OriginResult) (chars : List UInt8) (size : Nat) : Prop :=
  if e.malloc size = none then r = .failed else ∃ rest, r = .block (chars ++ 0 :: rest)

/-- The result is the directory of a path that fits the buffer. Without a path it is what
`LD_ORIGIN_PATH` says. -/
structure Correct (r : OriginResult) : Prop where
  ofPath : ∀ path, e.programPath = some path → path.length < e.buflen →
    Returns e r (directory path) ((beforeLastSlash path).length + 2)
  ofVariable : e.programPath = none → ∀ path, e.originPath = some path →
    Returns e r (withoutTrailingSlashes path.chars) (path.strlen + 1)

/-- Where the link gives no path, the length of the path that the name stands for is right as an
`int`, or this `int` is at least the size of the buffer. -/
structure NameFits : Prop where
  absolute : e.linkPath = none → ∀ name, e.auxvName = some name → isAbsolute name = true →
    toInt name.strlen < e.buflen → name.strlen < e.buflen
  relative : e.linkPath = none → ∀ name, e.auxvName = some name → isAbsolute name = false →
    ∀ wd, e.cwd = some wd → toInt (wd.strlen + toInt name.strlen + 1) < e.buflen →
      wd.strlen + 1 + name.strlen < e.buflen

end Spec

/-! ### Machine integers -/

theorem toInt_of_lt {n : Nat} (h : n < 2 ^ 31) : toInt n = n := by
  apply Int.bmod_eq_of_le_mul_two <;> omega

theorem toInt_le {n : Int} (h : -2 ^ 31 ≤ n) : toInt n ≤ n := by
  have hmod : n % (2 ^ 32 : Nat) - 2 ^ 32 ≤ n := by omega
  rw [toInt, Int.bmod_def]
  split <;> omega

theorem le_toInt (n : Int) : -2 ^ 31 ≤ toInt n := by
  have hle := @Int.le_bmod n (2 ^ 32) (by decide)
  unfold toInt
  omega

/-! ### The name in the buffer -/

section Buffer

variable {e : OriginEnv} {name wd : CString} {buf : List UInt8} {off buflen : Nat} {len : Int}

/-- A name that fits is behind what was there. -/
theorem copyName_of_lt (hbuf : buf.length = buflen) (hlen : len < buflen)
    (hfits : off + name.strlen < buflen) :
    ∃ rest, copyName name buf off len buflen = some (len, buf.take off ++ (name.bytes ++ rest)) ∧
      (buf.take off ++ (name.bytes ++ rest)).length = buflen := by
  have hroom : off + name.bytes.length ≤ buf.length := by
    rw [CString.length_bytes]
    omega
  have hcopy : strcpy buf off name = some _ := writeAt_of_le hroom
  refine ⟨_, ?_, (CString.length_of_writeAt hcopy).trans hbuf⟩
  rw [copyName, if_pos hlen, hcopy]
  rfl

/-- A path that is known to be too long is cut. -/
theorem copyName_of_le (hbuf : buf.length = buflen) (hpos : 0 < buflen) (hoff : off ≤ buflen)
    (hlen : ¬ len < buflen) (hlong : buflen ≤ off + name.strlen) :
    ∃ buf' : List UInt8, copyName name buf off len buflen = some ((buflen : Int) - 1, buf') ∧
      buf'.length = buflen := by
  have hsrc : buflen - off ≤ name.bytes.length := by
    rw [CString.length_bytes]
    omega
  have hcopy : memcpy buf off name.bytes (buflen - off) = some _ := memcpy_of_le hsrc (by omega)
  have hlen₁ := (CString.length_of_memcpy hcopy).trans hbuf
  generalize buf.take off ++ _ = buf₁ at hcopy hlen₁
  have hend : writeAt buf₁ (buflen - 1) [0] = some _ :=
    writeAt_of_le (by rw [List.length_singleton]; omega)
  refine ⟨_, ?_, (CString.length_of_writeAt hend).trans hlen₁⟩
  rw [copyName, if_neg hlen, hcopy, Option.bind_eq_bind, Option.bind_some, hend]
  rfl

/-- A path that is too long but does not seem so is stored behind the buffer. -/
theorem copyName_eq_none (hbuf : buf.length = buflen) (hlen : len < buflen)
    (hlong : buflen ≤ off + name.strlen) : copyName name buf off len buflen = none := by
  have hfull : ¬ off + name.bytes.length ≤ buf.length := by
    rw [CString.length_bytes]
    omega
  rw [copyName, if_pos hlen, strcpy, writeAt, if_neg hfull]
  rfl

/-- `getcwd` stores the current directory, or nothing. -/
theorem getcwd_eq_some (hbuf : buf.length = e.buflen) :
    (e.cwd = none ∧ getcwd e buf e.buflen = some (false, buf)) ∨
      ∃ (wd : CString) (rest : List UInt8), e.cwd = some wd ∧ wd.strlen < e.buflen ∧
        getcwd e buf e.buflen = some (true, wd.bytes ++ rest) ∧
        (wd.bytes ++ rest).length = e.buflen := by
  have hbuflen : e.buflen = 2 * e.pathMax := rfl
  have hpos := e.pathMax_pos
  cases hcall : e.syscallGetcwd with
  | some wd =>
      have hlt := e.syscallGetcwd_lt wd hcall
      have hbytes := CString.length_bytes wd
      have hcopy : memcpy buf 0 wd.bytes (wd.strlen + 1) = some _ :=
        memcpy_of_le hbytes.ge (by omega)
      have hlen := (CString.length_of_memcpy hcopy).trans hbuf
      rw [List.take_of_length_le hbytes.le, List.take_zero, List.nil_append] at hcopy hlen
      refine .inr ⟨wd, _, by rw [OriginEnv.cwd, hcall]; rfl, by omega, ?_, hlen⟩
      have hzero : e.buflen ≠ 0 := by omega
      have hroom : ¬ e.buflen < wd.strlen + 1 := by omega
      simp only [getcwd, hcall, if_neg hzero, if_neg hroom, hcopy, Option.map_some]
  | none =>
      cases hgeneric : e.genericGetcwd with
      | none =>
          refine .inl ⟨by rw [OriginEnv.cwd, hcall, hgeneric]; rfl, ?_⟩
          simp only [getcwd, hcall, hgeneric]
      | some wd =>
          have hlt := e.genericGetcwd_lt wd hgeneric
          have hbytes := CString.length_bytes wd
          have hwrite : writeAt buf 0 wd.bytes = some _ := writeAt_of_le (by omega)
          have hlen := (CString.length_of_writeAt hwrite).trans hbuf
          rw [List.take_zero, List.nil_append] at hwrite hlen
          refine .inr ⟨wd, _, by rw [OriginEnv.cwd, hcall, hgeneric]; rfl, by omega, ?_, hlen⟩
          simp only [getcwd, hcall, hgeneric, hwrite, Option.map_some]

/-- Without a current directory there is no path. -/
theorem relativeName_of_cwd_eq_none (hbuf : buf.length = e.buflen) (hcwd : e.cwd = none) :
    relativeName e name buf e.buflen = some (-1, buf) := by
  obtain ⟨-, hget⟩ | ⟨wd, rest, hsome, -⟩ := getcwd_eq_some hbuf
  · rw [relativeName, hget]
    rfl
  · rw [hcwd] at hsome
    cases hsome

/-- The name goes behind the current directory and a slash. -/
theorem relativeName_of_cwd_eq_some (name : CString) (hbuf : buf.length = e.buflen)
    (hcwd : e.cwd = some wd) :
    wd.strlen < e.buflen ∧ ∃ buf', buf'.length = e.buflen ∧
      buf'.take (wd.strlen + 1) = wd.chars ++ [slash] ∧
      relativeName e name buf e.buflen = copyName name buf' (wd.strlen + 1)
        (toInt (wd.strlen + toInt name.strlen + 1)) e.buflen := by
  obtain ⟨hnone, -⟩ | ⟨wd', rest, hsome, hlt, hget, hlen⟩ := getcwd_eq_some hbuf
  · rw [hcwd] at hnone
    cases hnone
  rw [hcwd] at hsome
  cases hsome
  have hread : readAt (wd.bytes ++ rest) 0 = some wd := readAt_eq_some_iff.mpr ⟨rest, rfl⟩
  have hwrite : writeAt (wd.bytes ++ rest) wd.strlen [slash] =
      some (wd.chars ++ slash :: rest) := by
    rw [writeAt_of_le (by rw [List.length_singleton]; omega)]
    simp [CString.bytes, CString.strlen]
  refine ⟨hlt, _, (CString.length_of_writeAt hwrite).trans hlen, ?_, ?_⟩
  · rw [List.append_cons]
    exact List.take_left' (by rw [List.length_append]; rfl)
  · rw [relativeName, hget, Option.bind_eq_bind, Option.bind_some]
    simp only [Bool.not_true, Bool.false_eq_true, if_false]
    rw [hread, Option.bind_eq_bind, Option.bind_some]
    show (writeAt (wd.bytes ++ rest) wd.strlen [slash]).bind _ = _
    rw [hwrite, Option.bind_some]

end Buffer

/-! ### The path in the buffer -/

/-- What the code reports of a path: if it fits the buffer, its bytes are there and its length is
right. Without a path no length is reported. -/
structure Found (e : OriginEnv) (path : Option (List UInt8)) (len : Int) (buf : List UInt8) :
    Prop where
  length_buf : buf.length = e.buflen
  len_le : len ≤ e.buflen
  stored : ∀ p, path = some p → p.length < e.buflen → len = p.length ∧ p <+: buf
  missing : path = none → len ≤ 0

section Path

variable {e : OriginEnv} {name wd : CString} {buf : List UInt8} {off : Nat} {len : Int}

theorem found_none (hbuf : buf.length = e.buflen) : Found e none (-1) buf :=
  ⟨hbuf, by omega, by simp, by simp⟩

/-- Nothing is asked of a path that does not fit. -/
theorem Found.of_long {path : Option (List UInt8)} {p : List UInt8} (h : Found e path len buf)
    (hlong : e.buflen ≤ p.length) : Found e (some p) len buf := by
  refine ⟨h.length_buf, h.len_le, fun q hq hshort => ?_, by simp⟩
  cases hq
  omega

/-- A name is copied, or its path is cut, unless the path is too long and does not seem so. -/
theorem copyName_found (hbuf : buf.length = e.buflen) (hoff : off ≤ e.buflen)
    (hexact : off + name.strlen < e.buflen → len = (off + name.strlen : Nat))
    (hle : len ≤ (off + name.strlen : Nat))
    (hfits : len < e.buflen → off + name.strlen < e.buflen) :
    ∃ len' buf', copyName name buf off len e.buflen = some (len', buf') ∧
      Found e (some (buf.take off ++ name.chars)) len' buf' := by
  have hpos : 0 < e.buflen := Nat.mul_pos Nat.two_pos e.pathMax_pos
  have htake : (buf.take off).length = off := List.length_take_of_le (by omega)
  by_cases hlen : len < e.buflen
  · obtain ⟨rest, hcopy, hlen'⟩ := copyName_of_lt hbuf hlen (hfits hlen)
    refine ⟨_, _, hcopy, ⟨hlen', by omega, fun p hp _ => ?_, by simp⟩⟩
    cases hp
    constructor
    · rw [hexact (hfits hlen), List.length_append, htake, CString.strlen]
    · exact ⟨0 :: rest, by simp [CString.bytes]⟩
  · have hlong : e.buflen ≤ off + name.strlen := by omega
    obtain ⟨buf', hcopy, hlen'⟩ := copyName_of_le hbuf hpos hoff hlen hlong
    refine ⟨_, _, hcopy, ⟨hlen', by omega, fun p hp hshort => ?_, by simp⟩⟩
    cases hp
    rw [List.length_append, htake] at hshort
    exact absurd hshort (Nat.not_lt.mpr hlong)

/-- An absolute name. -/
theorem absoluteName_found (hbuf : buf.length = e.buflen)
    (hfits : toInt name.strlen < e.buflen → name.strlen < e.buflen) :
    ∃ len' buf', absoluteName name buf e.buflen = some (len', buf') ∧
      Found e (some name.chars) len' buf' := by
  have hmax := e.pathMax_lt
  have hbuflen : e.buflen = 2 * e.pathMax := rfl
  have hexact : 0 + name.strlen < e.buflen → toInt name.strlen = (0 + name.strlen : Nat) := by
    intro hlt
    rw [toInt_of_lt (by omega), Nat.zero_add]
  have hle : toInt name.strlen ≤ (0 + name.strlen : Nat) := by
    rw [Nat.zero_add]
    exact toInt_le (by omega)
  exact copyName_found hbuf (Nat.zero_le _) hexact hle fun hlt => by
    rw [Nat.zero_add]
    exact hfits hlt

/-- A relative name. -/
theorem relativeName_found (hbuf : buf.length = e.buflen) (hcwd : e.cwd = some wd)
    (hfits : toInt (wd.strlen + toInt name.strlen + 1) < e.buflen →
      wd.strlen + 1 + name.strlen < e.buflen) :
    ∃ len' buf', relativeName e name buf e.buflen = some (len', buf') ∧
      Found e (some (wd.chars ++ slash :: name.chars)) len' buf' := by
  have hmax := e.pathMax_lt
  have hbuflen : e.buflen = 2 * e.pathMax := rfl
  obtain ⟨hlt, buf₁, hbuf₁, htake, hname⟩ := relativeName_of_cwd_eq_some name hbuf hcwd
  have hexact : wd.strlen + 1 + name.strlen < e.buflen →
      toInt (wd.strlen + toInt name.strlen + 1) = (wd.strlen + 1 + name.strlen : Nat) := by
    intro hshort
    have hsum : ((wd.strlen : Int) + name.strlen + 1) = (wd.strlen + 1 + name.strlen : Nat) := by
      omega
    rw [toInt_of_lt (by omega : name.strlen < 2 ^ 31), hsum, toInt_of_lt (by omega)]
  have hle : toInt (wd.strlen + toInt name.strlen + 1) ≤ (wd.strlen + 1 + name.strlen : Nat) := by
    have hlow := le_toInt name.strlen
    have hname : toInt name.strlen ≤ name.strlen := toInt_le (by omega)
    have hsum := @toInt_le (wd.strlen + toInt name.strlen + 1) (by omega)
    omega
  have hcopy := copyName_found hbuf₁ hlt hexact hle hfits
  rw [htake, List.append_assoc, List.singleton_append] at hcopy
  rw [hname]
  exact hcopy

/-- A name that is taken for an absolute one is one. One that is not is too long, or relative. -/
theorem isAbsolute_cases (e : OriginEnv) (name : CString) :
    (isAbsolute name = true ∧ e.namePath name = some name.chars) ∨
      (isAbsolute name = false ∧ e.namePath name = some name.chars ∧
        e.buflen ≤ name.chars.length) ∨
      (isAbsolute name = false ∧
        e.namePath name = e.cwd.map fun wd => wd.chars ++ slash :: name.chars) := by
  by_cases hhead : name.chars.head? = some slash
  · have hpath : e.namePath name = some name.chars := if_pos hhead
    by_cases hpos : 0 < toInt name.strlen
    · exact .inl ⟨by simp [isAbsolute, hpos, hhead], hpath⟩
    · -- The length of the name wraps.
      have hlong : ¬ name.strlen < 2 ^ 31 := by
        intro hlt
        rw [toInt_of_lt hlt] at hpos
        have hnil : name.chars = [] := List.eq_nil_of_length_eq_zero (by
          show name.strlen = 0
          omega)
        rw [hnil] at hhead
        cases hhead
      have hbuflen : e.buflen ≤ name.strlen := by
        have hmax := e.pathMax_lt
        rw [OriginEnv.buflen]
        omega
      exact .inr (.inl ⟨by simp [isAbsolute, hpos], hpath, hbuflen⟩)
  · exact .inr (.inr ⟨by simp [isAbsolute, hhead], if_neg hhead⟩)

end Path

/-! ### `_dl_self_name` -/

section SelfName

variable {e : OriginEnv} {name : CString} {buf : List UInt8}

/-- A name that is taken for a relative one. -/
theorem relativeName_found_of_fits (hbuf : buf.length = e.buflen)
    (hfits : ∀ wd, e.cwd = some wd → toInt (wd.strlen + toInt name.strlen + 1) < e.buflen →
      wd.strlen + 1 + name.strlen < e.buflen) :
    ∃ len buf', relativeName e name buf e.buflen = some (len, buf') ∧
      Found e (e.cwd.map fun wd => wd.chars ++ slash :: name.chars) len buf' := by
  cases hcwd : e.cwd with
  | none => exact ⟨_, _, relativeName_of_cwd_eq_none hbuf hcwd, found_none hbuf⟩
  | some wd => exact relativeName_found hbuf hcwd (hfits wd hcwd)

/-- Without the link the name is found if it fits. -/
theorem auxvSelfName_found (hbuf : buf.length = e.buflen) (hlink : e.linkPath = none)
    (hfits : NameFits e) :
    ∃ len buf', auxvSelfName e buf e.buflen = some (len, buf') ∧
      Found e (e.auxvName.bind e.namePath) len buf' := by
  unfold auxvSelfName
  cases hauxv : e.auxvName with
  | none => exact ⟨_, _, rfl, found_none hbuf⟩
  | some name =>
      simp only [Option.bind_some]
      obtain ⟨habs, hpath⟩ | ⟨hrel, hpath, hlong⟩ | ⟨hrel, hpath⟩ := isAbsolute_cases e name
      · rw [if_pos habs, hpath]
        exact absoluteName_found hbuf (hfits.absolute hlink name hauxv habs)
      · obtain ⟨len, buf', hrun, hfound⟩ :=
          relativeName_found_of_fits hbuf (hfits.relative hlink name hauxv hrel)
        rw [if_neg (by simp [hrel]), hpath]
        exact ⟨len, buf', hrun, hfound.of_long hlong⟩
      · rw [if_neg (by simp [hrel]), hpath]
        exact relativeName_found_of_fits hbuf (hfits.relative hlink name hauxv hrel)

/-- A name that does not fit is stored behind the buffer. -/
theorem fits_of_auxvSelfName (hbuf : buf.length = e.buflen)
    (hrun : auxvSelfName e buf e.buflen ≠ none) : NameFits e := by
  constructor
  · intro _ name hauxv habs hlen
    by_contra hlong
    refine hrun ?_
    rw [auxvSelfName, hauxv]
    simp only [if_pos habs]
    exact copyName_eq_none hbuf hlen (by omega)
  · intro _ name hauxv hrel wd hcwd hlen
    by_contra hlong
    obtain ⟨-, buf₁, hbuf₁, -, hname⟩ := relativeName_of_cwd_eq_some name hbuf hcwd
    refine hrun ?_
    rw [auxvSelfName, hauxv]
    simp only [hrel, Bool.false_eq_true, if_false]
    rw [hname]
    exact copyName_eq_none hbuf₁ hlen (by omega)

/-- What the link decides. -/
theorem dlSelfName_cases (e : OriginEnv) :
    (∃ link rest, e.linkPath = some link ∧ (link ++ rest).length = e.buflen ∧
        dlSelfName e e.stack e.buflen = some ((link.length : Int), link ++ rest)) ∨
      (e.linkPath = none ∧ ∃ buf : List UInt8, buf.length = e.buflen ∧
        dlSelfName e e.stack e.buflen = auxvSelfName e buf e.buflen) := by
  cases hcall : e.readlink with
  | none =>
      refine .inr ⟨by rw [OriginEnv.linkPath, hcall]; rfl, e.stack, e.length_stack, ?_⟩
      rw [dlSelfName, readlink, hcall]
      rfl
  | some link =>
      have hle := e.readlink_le link hcall
      have hwrite : writeAt e.stack 0 link = some _ :=
        writeAt_of_le (by rw [Nat.zero_add, e.length_stack]; exact hle)
      have hlen := (CString.length_of_writeAt hwrite).trans e.length_stack
      rw [List.take_zero, List.nil_append] at hwrite hlen
      generalize e.stack.drop _ = rest at hwrite hlen
      have htest : (decide (0 < (link.length : Int)) && (link ++ rest).head? == some slash) =
          (link.head? == some slash) := by
        cases link <;> simp
      have hself : dlSelfName e e.stack e.buflen =
          if link.head? == some slash then some ((link.length : Int), link ++ rest)
          else auxvSelfName e (link ++ rest) e.buflen := by
        rw [dlSelfName, readlink, hcall]
        simp only [hwrite, Option.map_some, Option.bind_eq_bind, Option.bind_some, htest]
        rfl
      by_cases hslash : (link.head? == some slash) = true
      · refine .inl ⟨link, rest, ?_, hlen, hself.trans (if_pos hslash)⟩
        rw [OriginEnv.linkPath, hcall, Option.filter_some, if_pos hslash]
      · refine .inr ⟨?_, link ++ rest, hlen, hself.trans (if_neg hslash)⟩
        rw [OriginEnv.linkPath, hcall, Option.filter_some, if_neg hslash]

/-- A name that does not fit is stored behind the buffer. -/
theorem dlSelfName_eq_none (hfits : ¬ NameFits e) : dlSelfName e e.stack e.buflen = none := by
  obtain ⟨link, rest, hlink, -⟩ | ⟨hlink, buf, hbuf, hrun⟩ := dlSelfName_cases e
  · refine absurd ⟨?_, ?_⟩ hfits <;> simp [hlink]
  · rw [hrun]
    by_contra hsome
    exact hfits (fits_of_auxvSelfName hbuf hsome)

/-- The code finds the path of the program if the name fits. -/
theorem dlSelfName_found (hfits : NameFits e) :
    ∃ len buf, dlSelfName e e.stack e.buflen = some (len, buf) ∧
      Found e e.programPath len buf := by
  obtain ⟨link, rest, hlink, hlen, hrun⟩ | ⟨hlink, buf, hbuf, hrun⟩ := dlSelfName_cases e
  · have hpath : e.programPath = some link := by
      rw [OriginEnv.programPath, hlink]
      rfl
    refine ⟨_, _, hrun, ⟨hlen, ?_, fun p hp _ => ?_, by simp [hpath]⟩⟩
    · rw [List.length_append] at hlen
      omega
    · rw [hpath] at hp
      cases hp
      exact ⟨rfl, List.prefix_append link rest⟩
  · have hpath : e.programPath = e.auxvName.bind e.namePath := by
      rw [OriginEnv.programPath, hlink]
      rfl
    rw [hrun, hpath]
    exact auxvSelfName_found hbuf hlink hfits

/-- A path of the program has a slash. -/
theorem slash_mem_programPath {path : List UInt8} (h : e.programPath = some path) :
    slash ∈ path := by
  rw [OriginEnv.programPath] at h
  cases hlink : e.linkPath with
  | some link =>
      rw [hlink] at h
      cases h
      obtain ⟨-, hhead⟩ := Option.filter_eq_some_iff.mp hlink
      exact List.mem_of_head? (by simpa using hhead)
  | none =>
      rw [hlink, Option.none_or] at h
      obtain ⟨name, -, hname⟩ := Option.bind_eq_some_iff.mp h
      unfold OriginEnv.namePath at hname
      split at hname
      · rename_i hhead
        cases hname
        exact List.mem_of_head? hhead
      · obtain ⟨wd, -, rfl⟩ := Option.map_eq_some_iff.mp hname
        simp

end SelfName

/-! ### `_dl_get_origin` -/

section Origin

variable {e : OriginEnv}

/-- A copy of `n` bytes, and a NUL behind the first `m` of them. -/
theorem copy_terminated {block src : List UInt8} {n m : Nat} (hsrc : n ≤ src.length)
    (hblock : n < block.length) (hm : m ≤ n) :
    ∃ copied rest, memcpy block 0 src n = some copied ∧ copied.take n = src.take n ∧
      writeAt copied m [0] = some (src.take m ++ 0 :: rest) := by
  have hcopy : memcpy block 0 src n = some _ := memcpy_of_le hsrc (by omega)
  have hlen := CString.length_of_memcpy hcopy
  rw [List.take_zero, List.nil_append] at hcopy hlen
  have hfirst : (src.take n ++ block.drop (0 + n)).take n = src.take n :=
    List.take_left' (List.length_take_of_le hsrc)
  have hcut : (src.take n ++ block.drop (0 + n)).take m = src.take m := by
    rw [← Nat.min_eq_left hm, ← List.take_take, hfirst, List.take_take]
  have hwrite : writeAt (src.take n ++ block.drop (0 + n)) m [0] = some _ :=
    writeAt_of_le (by rw [List.length_singleton, hlen]; omega)
  rw [hcut, List.singleton_append] at hwrite
  exact ⟨_, _, hcopy, hfirst, hwrite⟩

/-- The copy is in a block of its own. -/
theorem copyOrigin_eq_some (e : OriginEnv) {linkval : List UInt8} {len : Nat}
    (hlen : len ≤ linkval.length) (hpos : 0 < len) :
    ∃ r, copyOrigin e linkval len = some r ∧
      Returns e r (if len = 1 then [slash] else linkval.take (len - 1)) (len + 1) := by
  unfold copyOrigin Returns
  cases hmalloc : e.malloc (len + 1) with
  | none => exact ⟨_, rfl, by simp⟩
  | some result =>
      have hresult := e.length_malloc _ _ hmalloc
      by_cases hroot : len = 1
      · have hcopy : memcpy result 0 [slash, 0] 2 = some _ :=
          memcpy_of_le (Nat.le_refl 2) (by omega)
        simp only [if_pos hroot, hcopy]
        exact ⟨_, rfl, by simp⟩
      · obtain ⟨copied, rest, hcopy, -, hwrite⟩ :=
          @copy_terminated result linkval (len - 1) (len - 1) (by omega) (by omega) (Nat.le_refl _)
        simp only [if_neg hroot, hcopy, Option.bind_eq_bind, Option.bind_some, hwrite]
        exact ⟨_, rfl, by simp⟩

/-- The directory of a path. -/
theorem originOfPath_eq_some (e : OriginEnv) {linkval : List UInt8} {len : Nat}
    (hlen : len ≤ linkval.length) (hpos : 0 < len) :
    ∃ r, originOfPath e linkval len = some r ∧
      (slash ∈ linkval.take len → Returns e r (directory (linkval.take len))
        ((beforeLastSlash (linkval.take len)).length + 2)) := by
  have hscan := scanBack_eq (· != slash) 1 linkval hlen
  generalize hpath : linkval.take len = path at hscan ⊢
  have hpart : path <+: linkval := hpath ▸ List.take_prefix len linkval
  have hsub : path.rdropWhile (· != slash) <+: linkval :=
    List.IsPrefix.trans ( List.rdropWhile_prefix _ path) hpart
  have hle := hsub.length_le
  rw [Nat.min_eq_left hpos] at hscan
  obtain ⟨r, hcopy, hreturns⟩ := @copyOrigin_eq_some e linkval
    (max 1 (path.rdropWhile (· != slash)).length) (by omega) (by omega)
  refine ⟨r, by rw [originOfPath, hscan]; exact hcopy, fun hslash => ?_⟩
  -- The scan stops behind a slash, which is the last one.
  have hne : path.rdropWhile (· != slash) ≠ [] := by
    intro hnil
    have hall := List.rdropWhile_eq_nil_iff.mp hnil slash hslash
    simp at hall
  have hcount := List.length_pos_iff.mpr hne
  rw [Nat.max_eq_right hcount] at hreturns
  have hbefore : beforeLastSlash path =
      linkval.take ((path.rdropWhile (· != slash)).length - 1) := by
    obtain ⟨rest, hrest⟩ := hsub
    rw [beforeLastSlash, List.dropLast_eq_take, ← hrest]
    exact (List.take_append_of_le_length (Nat.sub_le _ _)).symm
  have hlength : (beforeLastSlash path).length = (path.rdropWhile (· != slash)).length - 1 :=
    List.length_dropLast
  have hroot : beforeLastSlash path = [] ↔ (path.rdropWhile (· != slash)).length = 1 := by
    rw [← List.length_eq_zero_iff, hlength]
    omega
  have hsize : (beforeLastSlash path).length + 2 = (path.rdropWhile (· != slash)).length + 1 := by
    omega
  rw [directory, hsize, if_congr hroot rfl rfl, hbefore]
  exact hreturns

/-- How many bytes of the variable the code keeps. -/
def keptLength (path : List UInt8) : Nat :=
  max (min 1 path.length) (path.rdropWhile (· == slash)).length

theorem keptLength_le (path : List UInt8) : keptLength path ≤ path.length := by
  have hsub : path.rdropWhile (· == slash) <+: path := List.rdropWhile_prefix _ path
  have hle := hsub.length_le
  rw [keptLength]
  omega

/-- One slash stays of a path of slashes alone. -/
theorem take_keptLength (path : List UInt8) :
    path.take (keptLength path) = withoutTrailingSlashes path := by
  by_cases hnil : path.rdropWhile (· == slash) = []
  · have hall := List.rdropWhile_eq_nil_iff.mp hnil
    cases path with
    | nil => simp [withoutTrailingSlashes]
    | cons c cs =>
        have hc : c = slash := by simpa using hall c List.mem_cons_self
        rw [withoutTrailingSlashes, if_pos ⟨List.cons_ne_nil c cs, hnil⟩, keptLength, hnil]
        simp [hc]
  · have hcount := List.length_pos_iff.mpr hnil
    have hkept : keptLength path = (path.rdropWhile (· == slash)).length := by
      rw [keptLength]
      omega
    rw [withoutTrailingSlashes, if_neg (by simp [hnil]), hkept]
    have hsub : path.rdropWhile (· == slash) <+: path := List.rdropWhile_prefix _ path
    exact (List.prefix_iff_eq_take.mp hsub).symm

/-- The value of the variable, without its trailing slashes. -/
theorem originOfVariable_eq_some (e : OriginEnv) :
    ∃ r, originOfVariable e = some r ∧ ∀ path, e.originPath = some path →
      Returns e r (withoutTrailingSlashes path.chars) (path.strlen + 1) := by
  unfold originOfVariable
  cases hvar : e.originPath with
  | none => exact ⟨_, rfl, by simp⟩
  | some path =>
      cases hmalloc : e.malloc (path.strlen + 1) with
      | none =>
          simp only [hmalloc]
          refine ⟨_, rfl, fun p hp => ?_⟩
          cases hp
          simp [Returns, hmalloc]
      | some result =>
          have hresult := e.length_malloc _ _ hmalloc
          have hbytes := CString.length_bytes path
          obtain ⟨copied, rest, hcopy, hfirst, hwrite⟩ :=
            @copy_terminated result path.bytes path.strlen (keptLength path.chars) (by omega)
              (by omega) (keptLength_le path.chars)
          have hchars : path.bytes.take path.strlen = path.chars := List.take_left' rfl
          rw [hchars] at hfirst
          have hcopied : path.strlen ≤ copied.length := by
            have hlen := List.length_take_le' path.strlen copied
            rwa [hfirst] at hlen
          have hscan := scanBack_eq (· == slash) 1 copied hcopied
          rw [hfirst] at hscan
          -- What is kept of the string is in front of its NUL.
          have hkept : path.bytes.take (keptLength path.chars) =
              withoutTrailingSlashes path.chars := by
            rw [← take_keptLength]
            exact List.take_append_of_le_length (keptLength_le path.chars)
          rw [hkept] at hwrite
          refine ⟨.block (withoutTrailingSlashes path.chars ++ 0 :: rest), ?_, fun p hp => ?_⟩
          · simp only [hmalloc, hcopy, Option.bind_eq_bind, Option.bind_some, hscan]
            exact congrArg (Option.bind · _) hwrite
          · cases hp
            rw [Returns, hmalloc, if_neg (Option.some_ne_none result)]
            exact ⟨rest, rfl⟩

end Origin

/-- All stores of `_dl_get_origin` are inside their memory, and the result is the directory of the
program, exactly if the name that it uses fits. -/
theorem dlGetOrigin_correct_iff (e : OriginEnv) :
    (∃ r, dlGetOrigin e = some r ∧ Correct e r) ↔ NameFits e := by
  constructor
  · rintro ⟨r, hrun, -⟩
    by_contra hfits
    rw [dlGetOrigin, dlSelfName_eq_none hfits] at hrun
    cases hrun
  · intro hfits
    obtain ⟨len, buf, hself, hfound⟩ := dlSelfName_found hfits
    have hbuf := hfound.length_buf
    have hle := hfound.len_le
    rw [dlGetOrigin, hself, Option.bind_eq_bind, Option.bind_some]
    by_cases hpos : 0 < len
    · -- A path was found, and it may be too long for the buffer.
      obtain ⟨r, hrun, hreturns⟩ :=
        @originOfPath_eq_some e buf len.toNat (by omega) (by omega)
      refine ⟨r, (if_pos hpos).trans hrun, fun path hprogram hshort => ?_, fun hmissing => ?_⟩
      · obtain ⟨hlen, hsub⟩ := hfound.stored path hprogram hshort
        have htake : buf.take len.toNat = path := by
          rw [hlen, Int.toNat_natCast]
          exact (List.prefix_iff_eq_take.mp hsub).symm
        rw [htake] at hreturns
        exact hreturns (slash_mem_programPath hprogram)
      · exact absurd hpos (Int.not_lt.mpr (hfound.missing hmissing))
    · obtain ⟨r, hrun, hreturns⟩ := originOfVariable_eq_some e
      refine ⟨r, (if_neg hpos).trans hrun, fun path hprogram hshort => ?_, fun _ => hreturns⟩
      have hlen := (hfound.stored path hprogram hshort).1
      have hcount := List.length_pos_of_mem (slash_mem_programPath hprogram)
      omega

/-! ### Long names -/

/-- A slash and so many letters `a`. -/
def slashName (n : Nat) : CString where
  chars := slash :: List.replicate n 97
  noNul := by
    intro h
    obtain hslash | hletter := List.mem_cons.mp h
    · exact absurd hslash (by decide)
    · exact absurd (List.eq_of_mem_replicate hletter) (by decide)

theorem strlen_slashName (n : Nat) : (slashName n).strlen = n + 1 := by
  rw [CString.strlen, slashName, List.length_cons, List.length_replicate]

/-- A program with this name, on a system without `/proc`. -/
def slashNameEnv (n : Nat) : OriginEnv where
  pathMax := 1024
  pathMax_pos := by decide
  pathMax_lt := by decide
  stack := List.replicate (2 * 1024) 0
  length_stack := List.length_replicate
  readlink := none
  readlink_le := by simp
  auxvName := some (slashName n)
  syscallGetcwd := none
  syscallGetcwd_lt := by simp
  genericGetcwd := none
  genericGetcwd_lt := by simp
  originPath := none
  malloc size := some (List.replicate size 0)
  length_malloc := by
    intro size block h
    cases h
    exact List.length_replicate

/-- The length of a name of `2 ^ 32 + 1` bytes is 1 as an `int`, and the name is copied to the
buffer. -/
theorem dlGetOrigin_overflows :
    ¬ ∃ r, dlGetOrigin (slashNameEnv (2 ^ 32)) = some r ∧
      Correct (slashNameEnv (2 ^ 32)) r := by
  rintro ⟨r, hrun, -⟩
  have hlen : toInt (slashName (2 ^ 32)).strlen = 1 := by
    rw [strlen_slashName]
    decide
  have hfits : ¬ NameFits (slashNameEnv (2 ^ 32)) := by
    intro hfits
    have habs : isAbsolute (slashName (2 ^ 32)) = true := by
      rw [isAbsolute, hlen]
      rfl
    have hlt := hfits.absolute rfl _ rfl habs (by rw [hlen]; decide)
    rw [strlen_slashName] at hlt
    exact absurd hlt (by decide)
  rw [dlGetOrigin, dlSelfName_eq_none hfits] at hrun
  cases hrun

end GlibcPorts.Rtld
