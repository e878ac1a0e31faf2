import GlibcPorts.Pty.Ptsname
import Mathlib.Tactic.Common

/-!
# `GlibcPorts.Proofs.Pty.Ptsname`: when the slave has a name

`ptsnameInternal_spec` says when `__ptsname_internal` succeeds, and that it then leaves the path of
the slave in the buffer and `errno` as it was. It does not look whether the descriptor is that of a
master: the path is `/dev/` and the name of the device, with a `t` as its first character
(`slaveOf`), and any character device of that path will do.

It never writes outside the buffer. A device with the empty name has its `t` on the NUL of the name,
and the path goes on with what the buffer has there. Where that has no NUL the path is read past
the buffer (`Unended`).
-/

set_option autoImplicit false

namespace GlibcPorts.Pty

open Lib
open Lib.CString (writeAt readAt upToNul writeAt_over readAt_eq_some_iff exists_eq_bytes_append)

/-- What the buffer has behind the place of the `t`. -/
def behindT (buf : List UInt8) : List UInt8 := buf.drop (PATH_DEV.length + 1)

/-- What the path has behind the `t`, in a buffer that has `behind` there: the rest of the name, or
all of `behind` when the `t` took the place of the NUL. -/
def slaveTail (name : CString) (behind : List UInt8) : CString :=
  if name.chars = [] then upToNul behind
  else ⟨name.chars.tail, fun h => name.noNul (List.mem_of_mem_tail h)⟩

/-- The path that is built for a device of this name. -/
def slaveOf (name : CString) (behind : List UInt8) : CString where
  chars := PATH_DEV ++ asciiChars "t" ++ (slaveTail name behind).chars
  noNul := by
    intro h
    obtain hconst | htail := List.mem_append.mp h
    · exact absurd hconst (by decide +kernel)
    · exact (slaveTail name behind).noNul htail

/-- The descriptor is that of a character device of this name. -/
def IsNamed (k : TtyKernel) (fd : Int) (name : CString) : Prop :=
  ∃ st, k.fstat fd = .ok st ∧ S_ISCHR st.stMode = true ∧ k.devname st.stRdev = .ok name

/-- The descriptor is that of a character device, and the path is its slave's. -/
def IsSlave (k : TtyKernel) (fd : Int) (behind : List UInt8) (path : CString) : Prop :=
  ∃ name, IsNamed k fd name ∧ path = slaveOf name behind

/-- The path has no end in the buffer: the name of the device is empty, and no NUL follows the place
of the `t`. -/
def Unended (k : TtyKernel) (fd : Int) (buf : List UInt8) : Prop :=
  slaveRoom ≤ buf.length ∧ 0 ∉ behindT buf ∧ ∃ name, IsNamed k fd name ∧ name.chars = []

/-- There is a character device at the path. -/
def IsDevice (k : TtyKernel) (path : CString) : Prop :=
  ∃ st, k.stat path = .ok st ∧ S_ISCHR st.stMode = true

variable {k : TtyKernel} {fd : Int} {rdev : BitVec 32} {name : CString}

/-- Of a name with characters it is the rest. -/
theorem slaveTail_of_ne {behind : List UInt8} (hne : name.chars ≠ []) :
    (slaveTail name behind).chars = name.chars.tail := by
  rw [slaveTail, if_neg hne]

/-- Of the empty name it is what the buffer has. -/
theorem slaveTail_of_nil {behind : List UInt8} (hnil : name.chars = []) :
    slaveTail name behind = upToNul behind :=
  if_pos hnil

/-- The descriptor has one name. -/
theorem IsNamed.unique {name' : CString} (h : IsNamed k fd name) (h' : IsNamed k fd name') :
    name = name' := by
  obtain ⟨st, hstat, -, hname⟩ := h
  obtain ⟨st', hstat', -, hname'⟩ := h'
  cases hstat.symm.trans hstat'
  exact Except.ok.inj (hname.symm.trans hname')

/-- The path is as long as `/dev/` and the name. -/
theorem length_slaveOf {behind : List UInt8} (hne : name.chars ≠ []) :
    (slaveOf name behind).bytes.length = PATH_DEV.length + name.bytes.length := by
  have hpos : 0 < name.chars.length := List.length_pos_iff.mpr hne
  have ht : (asciiChars "t").length = 1 := by decide +kernel
  simp only [CString.bytes, slaveOf, slaveTail_of_ne hne, List.length_append, List.length_tail, ht]
  omega

/-! ### The check of the path -/

/-- The end of the function, at a path that was built. -/
theorem checkSlave_spec (errno : Errno) {buf : List UInt8} {path : CString}
    (hpath : readAt buf 0 = some path) :
    ∃ r, checkSlave k errno buf = some r ∧ r.buf = buf ∧ (r.ret = 0 ↔ IsDevice k path) ∧
      (r.ret = 0 → r.errno = errno) ∧ (r.ret ≠ 0 → r.errno = r.ret) := by
  cases hstat : k.stat path with
  -- `stat` fails, so there is no device at the path.
  | error e =>
      have hcheck : checkSlave k errno buf = some (.fail e buf) := by
        simp [checkSlave, hpath, hstat]
      exact ⟨_, hcheck, rfl, by simp [PtsResult.fail, IsDevice, hstat, e.2],
        fun h => absurd h e.2, fun _ => rfl⟩
  | ok st =>
      cases hchr : S_ISCHR st.stMode with
      | true =>
          have hcheck : checkSlave k errno buf = some ⟨0, errno, buf⟩ := by
            simp [checkSlave, hpath, hstat, hchr]
          exact ⟨_, hcheck, rfl, by simp [IsDevice, hstat, hchr], fun _ => rfl,
            fun h => absurd rfl h⟩
      | false =>
          have hcheck : checkSlave k errno buf = some (.fail ENOTTY buf) := by
            simp [checkSlave, hpath, hstat, hchr]
          exact ⟨_, hcheck, rfl, by simp [PtsResult.fail, ENOTTY, IsDevice, hstat, hchr],
            fun h => absurd (show ENOTTY = 0 from h) (by decide), fun _ => rfl⟩

/-- A path without an end is read past the buffer. -/
theorem checkSlave_of_unended (errno : Errno) {buf : List UInt8} (hpath : readAt buf 0 = none) :
    checkSlave k errno buf = none := by
  rw [checkSlave, hpath]
  rfl

/-! ### The path in the buffer -/

/-- The buffer that is checked, when `rest` was behind `/dev/`. -/
def built (name : CString) (rest : List UInt8) : List UInt8 :=
  PATH_DEV ++ (asciiChars "t" ++ (name.bytes.tail ++ rest.drop name.bytes.length))

/-- The buffer keeps its size. -/
theorem length_built {rest : List UInt8} (hfits : name.bytes.length ≤ rest.length) :
    (built name rest).length = (PATH_DEV ++ rest).length := by
  have ht : (asciiChars "t").length = 1 := by decide +kernel
  have hpos : 0 < name.bytes.length := by
    rw [CString.length_bytes]
    exact Nat.succ_pos _
  simp only [built, List.length_append, ht, List.length_tail, List.length_drop]
  omega

/-- The name of the device goes behind `/dev/`, and its first byte becomes a `t`. -/
theorem buildSlave_of_fits (errno : Errno) (hname : k.devname rdev = .ok name) {rest : List UInt8}
    (hfits : name.bytes.length ≤ rest.length) :
    buildSlave k rdev errno (PATH_DEV ++ rest) PATH_DEV.length rest.length =
      checkSlave k errno (built name rest) := by
  have hcopy : writeAt (PATH_DEV ++ rest) PATH_DEV.length (name.bytes.take rest.length) =
      some (PATH_DEV ++ (name.bytes ++ rest.drop name.bytes.length)) := by
    have hover := writeAt_over PATH_DEV (rest.take name.bytes.length)
      (rest.drop name.bytes.length) (List.length_take_of_le hfits)
    rw [List.take_append_drop] at hover
    rw [List.take_of_length_le hfits]
    exact hover
  obtain ⟨c, cs, hbytes⟩ : ∃ c cs, name.bytes = [c] ++ cs := by
    refine List.exists_cons_of_ne_nil fun hnil => ?_
    have hlen := CString.length_bytes name
    rw [hnil] at hlen
    exact nomatch hlen
  -- The `t` goes over the first byte, the NUL of an empty name.
  have hturn : writeAt (PATH_DEV ++ (name.bytes ++ rest.drop name.bytes.length)) PATH_DEV.length
      (asciiChars "t") = some (built name rest) := by
    have ht : [c].length = (asciiChars "t").length := by
      show 1 = (asciiChars "t").length
      decide +kernel
    rw [built, hbytes, List.append_assoc]
    exact writeAt_over _ _ _ ht
  simp only [buildSlave, hname, hcopy, Option.bind_eq_bind, Option.bind_some,
    if_neg (Nat.not_lt.mpr hfits), hturn]

/-- A name that does not fit. -/
theorem buildSlave_of_not_fits (errno : Errno) (hname : k.devname rdev = .ok name)
    {rest : List UInt8} (hfull : rest.length < name.bytes.length) :
    ∃ buf, buildSlave k rdev errno (PATH_DEV ++ rest) PATH_DEV.length rest.length =
        some (.fail ENOMEM buf) ∧ buf.length = (PATH_DEV ++ rest).length := by
  have htake : rest.length = (name.bytes.take rest.length).length :=
    (List.length_take_of_le (Nat.le_of_lt hfull)).symm
  have hcopy : writeAt (PATH_DEV ++ rest) PATH_DEV.length (name.bytes.take rest.length) =
      some (PATH_DEV ++ name.bytes.take rest.length) := by
    have hover := writeAt_over PATH_DEV rest [] htake
    rw [List.append_nil, List.append_nil] at hover
    exact hover
  refine ⟨PATH_DEV ++ name.bytes.take rest.length, ?_, ?_⟩
  · simp only [buildSlave, hname, hcopy, Option.bind_eq_bind, Option.bind_some, if_pos hfull]
    rfl
  · rw [List.length_append, List.length_append, ← htake]

/-- The path that is checked, where it has an end. -/
theorem readAt_built {rest : List UInt8} (hend : name.chars = [] → 0 ∈ rest.drop 1) :
    readAt (built name rest) 0 = some (slaveOf name (rest.drop 1)) := by
  rw [readAt_eq_some_iff]
  by_cases hnil : name.chars = []
  · obtain ⟨tail, htail⟩ := exists_eq_bytes_append (hend hnil)
    have hbytes : name.bytes = [0] := by
      rw [CString.bytes, hnil]
      rfl
    have hchars : (slaveOf name (rest.drop 1)).chars =
        PATH_DEV ++ asciiChars "t" ++ (upToNul (rest.drop 1)).chars := by
      rw [← slaveTail_of_nil hnil]
      rfl
    refine ⟨tail, ?_⟩
    calc built name rest = PATH_DEV ++ (asciiChars "t" ++ rest.drop 1) := by rw [built, hbytes]; rfl
      _ = PATH_DEV ++ (asciiChars "t" ++ ((upToNul (rest.drop 1)).bytes ++ tail)) := by
          rw [← htail]
      _ = (slaveOf name (rest.drop 1)).bytes ++ tail := by
          simp only [CString.bytes, hchars, List.append_assoc]
  · obtain ⟨c, cs, hchars⟩ := List.exists_cons_of_ne_nil hnil
    refine ⟨rest.drop name.bytes.length, ?_⟩
    simp [built, CString.bytes, slaveOf, slaveTail_of_ne hnil, hchars]

/-- The path that is checked, where it has none. -/
theorem readAt_built_of_nil {rest : List UInt8} (hnil : name.chars = []) (hend : 0 ∉ rest.drop 1) :
    readAt (built name rest) 0 = none := by
  have hbytes : name.bytes = [0] := by
    rw [CString.bytes, hnil]
    rfl
  have hfront : 0 ∉ PATH_DEV ++ asciiChars "t" := by decide +kernel
  refine if_neg fun hmem => ?_
  rw [List.drop_zero, built, hbytes, ← List.append_assoc] at hmem
  exact (List.mem_append.mp hmem).elim hfront hend

/-! ### The function -/

/-- The function up to the name of the device. -/
theorem ptsnameInternal_eq {st : DevStat} (hstat : k.fstat fd = .ok st)
    (hchr : S_ISCHR st.stMode = true) {old rest : List UInt8} (hold : old.length = PATH_DEV.length)
    (hroom : slaveRoom ≤ (old ++ rest).length) (errno : Errno) :
    ptsnameInternal k fd (some (old ++ rest)) (old ++ rest).length errno =
      buildSlave k st.stRdev errno (PATH_DEV ++ rest) PATH_DEV.length rest.length := by
  have hcopy : writeAt (old ++ rest) 0 PATH_DEV = some (PATH_DEV ++ rest) :=
    writeAt_over [] old rest hold
  have hrest : (old ++ rest).length - PATH_DEV.length = rest.length := by
    rw [List.length_append]
    omega
  simp only [ptsnameInternal, hstat, hchr, Bool.not_true, Bool.false_eq_true, if_false,
    if_neg (Nat.not_lt.mpr hroom), hcopy, Option.bind_eq_bind, Option.bind_some, hrest]

/-- What a call that returns has done. -/
structure Returned (k : TtyKernel) (fd : Int) (buf : List UInt8) (errno : Errno) (r : PtsResult) :
    Prop where
  length_buf : r.buf.length = buf.length
  ret_eq_zero_iff : r.ret = 0 ↔ ∃ path, IsSlave k fd (behindT buf) path ∧ IsDevice k path ∧
    slaveRoom ≤ buf.length ∧ path.bytes.length ≤ buf.length
  path : r.ret = 0 → r.errno = errno ∧
    ∃ path, IsSlave k fd (behindT buf) path ∧ readAt r.buf 0 = some path
  failed : r.ret ≠ 0 → r.errno = r.ret

/-- What a call with a buffer comes to. -/
def Meets (k : TtyKernel) (fd : Int) (buf : List UInt8) (errno : Errno)
    (result : Option PtsResult) : Prop :=
  (result = none ↔ Unended k fd buf) ∧ ∀ r, result = some r → Returned k fd buf errno r

/-- A failure in front of the check. -/
theorem meets_fail {buf buf' : List UInt8} {errno e : Errno} (he : e ≠ 0)
    (hlen : buf'.length = buf.length) (hnone : ∀ name, IsNamed k fd name → slaveRoom ≤ buf.length →
      name.chars ≠ [] ∧ buf.length < PATH_DEV.length + name.bytes.length) :
    Meets k fd buf errno (some (.fail e buf')) := by
  refine ⟨⟨fun h => absurd h (Option.some_ne_none _), ?_⟩, fun r hr => ?_⟩
  · rintro ⟨hroom, -, name, hnamed, hnil⟩
    exact absurd hnil (hnone name hnamed hroom).1
  cases hr
  refine ⟨hlen, ⟨fun h => absurd h he, ?_⟩, fun h => absurd h he, fun _ => rfl⟩
  rintro ⟨path, ⟨name, hnamed, rfl⟩, -, hroom, hfits⟩
  obtain ⟨hne, hgt⟩ := hnone name hnamed hroom
  rw [length_slaveOf hne] at hfits
  exact absurd hfits (Nat.not_le.mpr hgt)

section Named

variable {old rest : List UInt8} (hold : old.length = PATH_DEV.length)
  (hroom : slaveRoom ≤ (old ++ rest).length) (hnamed : IsNamed k fd name)

include hold

/-- The place of the `t` is the first one behind `/dev/`. -/
theorem behindT_append : behindT (old ++ rest) = rest.drop 1 := by
  rw [behindT, ← hold, ← List.drop_drop, List.drop_left]

/-- `/dev/` goes over what was there. -/
theorem length_prefixed : (PATH_DEV ++ rest).length = (old ++ rest).length := by
  rw [List.length_append, List.length_append, hold]

include hroom hnamed

/-- The check of a path that has an end in the buffer. -/
theorem meets_ended (hfits : name.bytes.length ≤ rest.length)
    (hend : name.chars = [] → 0 ∈ rest.drop 1) (errno : Errno) :
    Meets k fd (old ++ rest) errno (checkSlave k errno (built name rest)) := by
  have hbehind : behindT (old ++ rest) = rest.drop 1 := behindT_append hold
  obtain ⟨r, hr, hbuf, hiff, hkept, herr⟩ := checkSlave_spec (k := k) errno (readAt_built hend)
  have hread : readAt r.buf 0 = some (slaveOf name (rest.drop 1)) := hbuf ▸ readAt_built hend
  have hself : IsSlave k fd (behindT (old ++ rest)) (slaveOf name (rest.drop 1)) :=
    ⟨name, hnamed, by rw [hbehind]⟩
  have hlen : r.buf.length = (old ++ rest).length := by
    rw [hbuf, length_built hfits, length_prefixed hold]
  -- The path was read inside the buffer.
  have hinside : (slaveOf name (rest.drop 1)).bytes.length ≤ (old ++ rest).length := by
    obtain ⟨tail, htail⟩ := readAt_eq_some_iff.mp hread
    rw [← hlen, ← List.drop_zero (l := r.buf), htail, List.length_append]
    exact Nat.le_add_right _ _
  rw [hr]
  refine ⟨⟨fun h => absurd h (Option.some_ne_none _), ?_⟩, fun r' hr' => ?_⟩
  · rintro ⟨-, hnul, name', hnamed', hnil⟩
    obtain rfl := hnamed.unique hnamed'
    exact absurd (hend hnil) (hbehind ▸ hnul)
  cases hr'
  refine ⟨hlen, hiff.trans ⟨fun hdevice => ⟨_, hself, hdevice, hroom, hinside⟩, ?_⟩,
    fun h => ⟨hkept h, _, hself, hread⟩, herr⟩
  rintro ⟨path, ⟨name', hnamed', rfl⟩, hdevice, -⟩
  obtain rfl := hnamed.unique hnamed'
  rw [hbehind] at hdevice
  exact hdevice

/-- The check of a path that has none. -/
theorem meets_unended (hnil : name.chars = []) (hnul : 0 ∉ rest.drop 1) (errno : Errno) :
    Meets k fd (old ++ rest) errno (checkSlave k errno (built name rest)) := by
  have hended : Unended k fd (old ++ rest) :=
    ⟨hroom, (behindT_append hold).symm ▸ hnul, name, hnamed, hnil⟩
  rw [checkSlave_of_unended errno (readAt_built_of_nil hnil hnul)]
  exact ⟨⟨fun _ => hended, fun _ => rfl⟩, fun _ h => absurd h.symm (Option.some_ne_none _)⟩

/-- The part of the function behind the name of the device. -/
theorem meets_buildSlave (hname : k.devname rdev = .ok name) (errno : Errno) :
    Meets k fd (old ++ rest) errno
      (buildSlave k rdev errno (PATH_DEV ++ rest) PATH_DEV.length rest.length) := by
  by_cases hfits : name.bytes.length ≤ rest.length
  · rw [buildSlave_of_fits errno hname hfits]
    by_cases hend : name.chars = [] → 0 ∈ rest.drop 1
    · exact meets_ended hold hroom hnamed hfits hend errno
    · obtain ⟨hnil, hnul⟩ := Classical.not_imp.mp hend
      exact meets_unended hold hroom hnamed hnil hnul errno
  · obtain ⟨buf', hbuild, hlen⟩ := buildSlave_of_not_fits errno hname (Nat.not_le.mp hfits)
    rw [hbuild]
    refine meets_fail (by decide) (hlen.trans (length_prefixed hold)) ?_
    intro name' hnamed' hroom
    obtain rfl := hnamed.unique hnamed'
    rw [List.length_append, hold] at hroom ⊢
    rw [CString.length_bytes] at hfits ⊢
    have hsix : PATH_DEV.length + 1 < slaveRoom := by decide +kernel
    refine ⟨fun hnil => ?_, by omega⟩
    rw [CString.strlen, hnil, List.length_nil] at hfits
    omega

end Named

/-- A call with a buffer. -/
theorem ptsnameInternal_some (k : TtyKernel) (fd : Int) (buf : List UInt8) (errno : Errno) :
    Meets k fd buf errno (ptsnameInternal k fd (some buf) buf.length errno) := by
  cases hstat : k.fstat fd with
  | error e =>
      have hrun : ptsnameInternal k fd (some buf) buf.length errno = some (.fail e buf) := by
        simp [ptsnameInternal, hstat]
      rw [hrun]
      refine meets_fail e.2 rfl ?_
      rintro name ⟨st, hst, -⟩
      cases hstat.symm.trans hst
  | ok st =>
  have hchr_of : ∀ {name}, IsNamed k fd name → S_ISCHR st.stMode = true ∧
      k.devname st.stRdev = .ok name := by
    rintro name ⟨st', hst', hchr', hname'⟩
    cases hstat.symm.trans hst'
    exact ⟨hchr', hname'⟩
  by_cases hchr : S_ISCHR st.stMode = true
  case neg =>
    have hrun : ptsnameInternal k fd (some buf) buf.length errno = some (.fail ENOTTY buf) := by
      simp [ptsnameInternal, hstat, hchr]
    rw [hrun]
    exact meets_fail (by decide) rfl fun name hnamed _ => absurd (hchr_of hnamed).1 hchr
  by_cases hroom : slaveRoom ≤ buf.length
  case neg =>
    have hrun : ptsnameInternal k fd (some buf) buf.length errno = some (.fail ERANGE buf) := by
      simp [ptsnameInternal, hstat, hchr, Nat.not_le.mp hroom]
    rw [hrun]
    exact meets_fail (by decide) rfl fun _ _ h => absurd h hroom
  -- The buffer is that of `/dev/` and the rest of it.
  have hsix : PATH_DEV.length + 1 < slaveRoom := by decide +kernel
  obtain ⟨old, rest, rfl, hold⟩ : ∃ old rest, buf = old ++ rest ∧ old.length = PATH_DEV.length :=
    ⟨_, _, (List.take_append_drop _ _).symm, List.length_take_of_le (by omega)⟩
  rw [ptsnameInternal_eq hstat hchr hold hroom errno]
  cases hdev : k.devname st.stRdev with
  | error e =>
      have hrun : buildSlave k st.stRdev errno (PATH_DEV ++ rest) PATH_DEV.length rest.length =
          some (.fail e (PATH_DEV ++ rest)) := by
        simp only [buildSlave, hdev]
      rw [hrun]
      refine meets_fail e.2 (length_prefixed hold) fun name hnamed _ => ?_
      cases hdev.symm.trans (hchr_of hnamed).2
  | ok name => exact meets_buildSlave hold hroom ⟨st, hstat, hchr, hdev⟩ hdev errno

/-- Without a buffer `__ptsname_internal` returns `EINVAL`. With one it stays inside the buffer
unless the path has no end in it. When it returns, it has succeeded exactly when the descriptor is
that of a character device, the path built from its name fits, and there is a character device of
that path, and then the path is in the buffer and `errno` is what it was. -/
theorem ptsnameInternal_spec (k : TtyKernel) (fd : Int) (errno : Errno) :
    (∀ buflen, ptsnameInternal k fd none buflen errno = some (.fail EINVAL [])) ∧
      ∀ buf, (ptsnameInternal k fd (some buf) buf.length errno = none ↔ Unended k fd buf) ∧
        ∀ r, ptsnameInternal k fd (some buf) buf.length errno = some r →
          Returned k fd buf errno r :=
  ⟨fun _ => rfl, fun buf => ptsnameInternal_some k fd buf errno⟩

end GlibcPorts.Pty
