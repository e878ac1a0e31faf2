import GlibcPorts.AtEmulation.Calls

/-!
# `GlibcPorts.Proofs.AtEmulation.Table`: the loop over the open files

The loop finds the first record of a descriptor (`scanRecords_eq`): over a buffer that starts
with the records, and with any bytes behind them, it ends with `EBADF` when no record has the
descriptor, with `ENOTDIR` when the first one is not a directory's, and else with what the
function builds at the `kf_path` of that record.

What the functions build there is the path of the record, a slash and the file:
`joinInBuffer_eq` for the functions with two paths, whose buffer is as large as that takes, and
`appendInPlace_eq` for the functions with one path, if the buffer with the records has room.
-/

set_option autoImplicit false

namespace GlibcPorts.AtEmulation

open Lib

variable {H : Headers} {mem : List UInt8} {fd : Int} {build : Nat → Option CString}

/-- The offset of the first record of `fd`. -/
def recordOffset (table : List (KinfoFile H)) (fd : Int) : Nat :=
  offsetOf (fun kf => kf.kfFd == fd) KinfoFile.width table

/-- What the body of the loop does with the record at the offset `p`. -/
def recordTurn (build : Nat → Option CString) (p : Nat) (kf : KinfoFile H) :
    Option (Exec CString) :=
  if kf.isDir then (build (p + H.kfPathOff)).map .ok else some (.fail ENOTDIR)

section Record

variable {p : Nat} {kf : KinfoFile H} {tail : List UInt8}

/-- A field in front of `kf_path` is read from the record. -/
theorem readInt_field (hmem : mem.drop p = kf.bytes ++ tail) {off : Nat}
    (hoff : off + 4 ≤ H.kfPathOff) : readInt mem (p + off) = some (intAt kf.bytes off) := by
  have hlt := kf.pathOff_lt_width
  exact readInt_of_drop hmem (Nat.le_of_lt (Nat.lt_of_le_of_lt hoff hlt))

/-- The type fields say whether the record is one of a directory. -/
theorem dirAt_eq (hmem : mem.drop p = kf.bytes ++ tail) : dirAt H mem p = some kf.isDir := by
  have htype : readInt mem (p + H.kfTypeOff) = some kf.kfType := readInt_field hmem H.kfTypeOff_le
  have hvnode : readInt mem (p + H.kfVnodeTypeOff) = some kf.kfVnodeType :=
    readInt_field hmem H.kfVnodeTypeOff_le
  by_cases hkf : kf.kfType = H.KF_TYPE_VNODE
  · simp [dirAt, htype, hvnode, hkf, KinfoFile.isDir]
  · -- `kf_vnode_type` is not read.
    simp [dirAt, htype, hkf, KinfoFile.isDir]

/-- The body of the loop at a record. -/
theorem recordBody_eq (hmem : mem.drop p = kf.bytes ++ tail) (s : Unit) :
    recordBody H mem fd build s p =
      if kf.kfFd == fd then (recordTurn build p kf).map .inl else some (.inr s) := by
  have hfd : readInt mem (p + H.kfFdOff) = some kf.kfFd := readInt_field hmem H.kfFdOff_le
  by_cases hkf : kf.kfFd = fd
  · cases hdir : kf.isDir with
    | true =>
        cases hbuild : build (p + H.kfPathOff) with
        | none => simp [recordBody, recordTurn, hfd, hkf, dirAt_eq hmem, hdir, hbuild]
        | some file => simp [recordBody, recordTurn, hfd, hkf, dirAt_eq hmem, hdir, hbuild]
    | false => simp [recordBody, recordTurn, hfd, hkf, dirAt_eq hmem, hdir]
  · simp [recordBody, hfd, hkf]

/-- `kf_path` is read from the record. -/
theorem readAt_kfPath (hmem : mem.drop p = kf.bytes ++ tail) :
    CString.readAt mem (p + H.kfPathOff) = some kf.kfPath := by
  obtain ⟨pad, hpad⟩ := CString.exists_eq_bytes_append kf.nul
  rw [CString.readAt_eq_some_iff]
  refine ⟨pad ++ tail, ?_⟩
  rw [← List.drop_drop, hmem, List.drop_append_of_le_length (Nat.le_of_lt kf.pathOff_lt_width),
    hpad, List.append_assoc]
  rfl

end Record

/-- A loop that looks for the record of `fd`, and does with it what `turn` says. -/
def LooksFor {ρ : Type} (mem : List UInt8) (fd : Int) (turn : Nat → KinfoFile H → Option ρ)
    (body : Unit → Nat → Option (ρ ⊕ Unit)) : Prop :=
  ∀ p kf tail, mem.drop p = kf.bytes ++ tail → ∀ s,
    body s p = if kf.kfFd == fd then (turn p kf).map .inl else some (.inr s)

/-- The records lie one behind the other, as the loop wants them. -/
theorem packed_of_drop {ρ : Type} {turn : Nat → KinfoFile H → Option ρ}
    {body : Unit → Nat → Option (ρ ⊕ Unit)} (hbody : LooksFor mem fd turn body) {kfLen : Nat}
    (table : List (KinfoFile H)) {p : Nat} {tail : List UInt8}
    (hmem : mem.drop p = tableBytes table ++ tail) (hlen : p + (tableBytes table).length = kfLen) :
    Packed (fun p => readInt mem (p + H.kfStructsizeOff)) body
      (fun s p kf => if kf.kfFd == fd then (turn p kf).map .inl else some (.inr s))
      KinfoFile.width kfLen p table := by
  induction table generalizing p with
  | nil =>
      have hp : p = kfLen := hlen
      subst hp
      exact .nil
  | cons kf table ih =>
      have hbytes : tableBytes (kf :: table) = kf.bytes ++ tableBytes table := List.flatMap_cons
      rw [hbytes, List.append_assoc] at hmem
      rw [hbytes, List.length_append] at hlen
      -- The cursor moves by the size that the record says it has, which is its number of bytes.
      have hsize : readInt mem (p + H.kfStructsizeOff) = some (kf.width : Int) := by
        rw [readInt_field hmem H.kfStructsizeOff_le, kf.structsize]
        rfl
      refine .cons kf.width_pos (by unfold KinfoFile.width; omega) hsize (hbody p kf _ hmem)
        (ih ?_ ?_)
      · rw [← List.drop_drop, hmem]
        exact List.drop_left
      · unfold KinfoFile.width
        omega

/-- A loop over the records of a table, whatever lies behind them. -/
theorem walk_table {ρ : Type} {turn : Nat → KinfoFile H → Option ρ}
    {body : Unit → Nat → Option (ρ ⊕ Unit)} (table : List (KinfoFile H)) (tail : List UInt8)
    (fd : Int) (hbody : LooksFor (tableBytes table ++ tail) fd turn body) :
    walk (fun p => readInt (tableBytes table ++ tail) (p + H.kfStructsizeOff)) body
        (tableBytes table).length ((tableBytes table).length + 1) () 0 =
      match table.find? fun kf => kf.kfFd == fd with
      | none => .ended (tableBytes table).length ()
      | some kf =>
          match turn (recordOffset table fd) kf with
          | none => .fault
          | some r => .stopped (recordOffset table fd) r := by
  have hsum : (table.map KinfoFile.width).sum = (tableBytes table).length :=
    List.length_flatMap.symm
  have hpacked : Packed _ body _ _ _ 0 table := packed_of_drop hbody table rfl (Nat.zero_add _)
  have hoff : offsetOf (fun kf => kf.kfFd == fd) KinfoFile.width table = recordOffset table fd :=
    rfl
  rw [walk_packed_of_len hpacked, scan_find, hsum, hoff]
  simp only [Nat.zero_add]
  cases table.find? fun kf => kf.kfFd == fd with
  | none => rfl
  | some kf =>
      cases hturn : turn (recordOffset table fd) kf with
      | none => simp only [hturn]
      | some r => simp only [hturn]

/-- The loop of the functions for paths. -/
theorem walk_records (table : List (KinfoFile H)) (tail : List UInt8) (fd : Int)
    (build : Nat → Option CString) :
    walk (fun p => readInt (tableBytes table ++ tail) (p + H.kfStructsizeOff))
        (recordBody H (tableBytes table ++ tail) fd build) (tableBytes table).length
        ((tableBytes table).length + 1) () 0 =
      match table.find? fun kf => kf.kfFd == fd with
      | none => .ended (tableBytes table).length ()
      | some kf =>
          match recordTurn build (recordOffset table fd) kf with
          | none => .fault
          | some r => .stopped (recordOffset table fd) r := by
  have hbody : LooksFor (H := H) (tableBytes table ++ tail) fd (recordTurn build)
      (recordBody H (tableBytes table ++ tail) fd build) := fun _ _ _ hmem => recordBody_eq hmem
  rw [walk_table table tail fd hbody]
  cases table.find? fun kf => kf.kfFd == fd with
  | none => rfl
  | some kf => cases hturn : recordTurn build (recordOffset table fd) kf <;> simp only [hturn]

/-- The record that the loop stops at lies in front of the end of the buffer. -/
theorem recordOffset_add_width_le {table : List (KinfoFile H)} {kf : KinfoFile H}
    (hfind : (table.find? fun kf => kf.kfFd == fd) = some kf) :
    recordOffset table fd + kf.width ≤ (tableBytes table).length := by
  have hsum : (tableBytes table).length = (table.map KinfoFile.width).sum := List.length_flatMap
  rw [hsum]
  exact offsetOf_add_width_le KinfoFile.width hfind

/-- The loop and the test behind it. -/
theorem scanRecords_eq (table : List (KinfoFile H)) (tail : List UInt8) (fd : Int)
    (file : CString) (build : Nat → Option CString) :
    scanRecords H (tableBytes table ++ tail) (tableBytes table).length fd file build =
      match table.find? fun kf => kf.kfFd == fd with
      | none => .fail EBADF
      | some kf =>
          if kf.isDir then .ofOption (build (recordOffset table fd + H.kfPathOff))
          else .fail ENOTDIR := by
  unfold scanRecords
  rw [walk_records]
  cases hfind : table.find? fun kf => kf.kfFd == fd with
  | none => simp
  | some kf =>
      -- The cursor still stands at the record, so the test behind the loop is false
      have hlt : recordOffset table fd < (tableBytes table).length := by
        have hle := recordOffset_add_width_le hfind
        have hpos := kf.width_pos
        omega
      cases hdir : kf.isDir with
      | false => simp [recordTurn, hdir]
      | true =>
          cases hbuild : build (recordOffset table fd + H.kfPathOff) with
          | none => simp [recordTurn, hdir, hbuild, Exec.ofOption]
          | some file' => simp [recordTurn, hdir, hbuild, Exec.ofOption, hlt]

/-! ### The path that is built -/

/-- The path of the record that the loop stops at. -/
theorem readAt_recordOffset {table : List (KinfoFile H)} {kf : KinfoFile H}
    (hfind : (table.find? fun kf => kf.kfFd == fd) = some kf) (tail : List UInt8) :
    CString.readAt (tableBytes table ++ tail) (recordOffset table fd + H.kfPathOff) =
      some kf.kfPath := by
  obtain ⟨rest, hrest⟩ := exists_drop_offsetOf KinfoFile.bytes hfind tail
  exact readAt_kfPath hrest

/-- The two calls of `strcat` leave the whole path in the buffer, if it has room for that. -/
theorem appendInPlace_eq {file path : CString} {kfPath : Nat}
    (hpath : CString.readAt mem kfPath = some path)
    (hroom : kfPath + (path ++ (slash ++ file)).bytes.length ≤ mem.length) :
    appendInPlace mem file kfPath = some (path ++ (slash ++ file)) := by
  have hlen : (path ++ (slash ++ file)).bytes.length =
      (path ++ slash).bytes.length + file.strlen := by
    simp only [CString.length_bytes, CString.strlen_append]
    omega
  -- The first call leaves the path with the slash, and the second one appends to that.
  obtain ⟨mem₁, hcat₁, hread₁, hlen₁⟩ := CString.strcat_eq_some hpath (s := slash) (by omega)
  obtain ⟨mem₂, hcat₂, hread₂, -⟩ := CString.strcat_eq_some hread₁ (s := file)
    (by rw [CString.append_assoc, hlen₁]; exact hroom)
  rw [CString.append_assoc] at hread₂
  simp [appendInPlace, hcat₁, hcat₂, hread₂]

/-- A buffer of its own always has room for the path. -/
theorem joinInBuffer_eq (k : Kernel) (i : Nat) (file : CString) {path : CString} {kfPath : Nat}
    (hpath : CString.readAt mem kfPath = some path) :
    joinInBuffer k i mem file kfPath = some (path ++ (slash ++ file)) := by
  have hbuf := k.length_stack i (path.strlen + file.strlen + 2)
  have hslash : slash.strlen = 1 := rfl
  -- `strlen (kf->kf_path) + len + 2` bytes: both strings, the slash and the NUL.
  have hroom : 0 + path.bytes.length ≤ (k.stack i (path.strlen + file.strlen + 2)).length := by
    rw [CString.length_bytes, hbuf]
    omega
  obtain ⟨buf₀, hcpy, hread₀, hlen₀⟩ := CString.strcpy_eq_some hroom
  have hjoin : (do
      let buf ← CString.strcat buf₀ 0 slash
      let buf ← CString.strcat buf 0 file
      CString.readAt buf 0) = some (path ++ (slash ++ file)) := by
    refine appendInPlace_eq hread₀ ?_
    simp only [CString.length_bytes, CString.strlen_append, hlen₀, hbuf, hslash]
    omega
  simpa [joinInBuffer, hpath, hcpy] using hjoin

end GlibcPorts.AtEmulation
