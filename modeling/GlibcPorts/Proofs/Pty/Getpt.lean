import GlibcPorts.Proofs.Pty.Ptsname
import GlibcPorts.Pty.Getpt
import Mathlib.Data.List.Nodup

/-!
# `GlibcPorts.Proofs.Pty.Getpt`: processes that open masters

`posixOpenpt_eq`: the loops of `__posix_openpt` ask for the paths of the masters (`masterPaths`),
each of them built in `buf`, one after the other.

`terminals_name`: in every interleaving of the processes, the path of each file that is open is
that of a master, no two files have the same, and `ptsname` gives the holder of each the path of its
own slave, which no other holder gets.

`openpt_progress`: a call of `__posix_openpt` during which a terminal stays free, and that the
kernel refuses only paths that are taken, succeeds with this terminal or an earlier one, whatever
the other processes do meanwhile.

What is known of the kernel is `Serves`. What a step does is said once in `ptyStep_cases`.
-/

set_option autoImplicit false

namespace GlibcPorts.Pty

open Lib
open Lib.CString (writeAt readAt upToNul writeAt_over upToNul_bytes_append)

/-! ### The paths of the masters -/

section Paths

/-- The two letters of each terminal, in the order of the loops. -/
def lettersFrom (ps : List UInt8) : List (List UInt8) :=
  ps.flatMap fun p => libcPtyname2.map fun q => [p, q]

/-- Those of all terminals. -/
def letters : List (List UInt8) := lettersFrom libcPtyname1

/-- No letter ends the path. -/
theorem letters_noNul : ∀ l ∈ letters, 0 ∉ l := by decide +kernel

/-- No two terminals have the same letters. -/
theorem letters_nodup : letters.Nodup := by decide +kernel

/-- The two letters of the terminal `i`. -/
def lettersOf (i : Nat) : List UInt8 := letters[i]?.getD []

/-- They are in the list. -/
theorem lettersOf_eq {i : Nat} (hi : i < letters.length) : lettersOf i = letters[i] := by
  rw [lettersOf, List.getElem?_eq_getElem hi, Option.getD_some]

/-- No letter ends the path. -/
theorem lettersOf_noNul (i : Nat) : 0 ∉ lettersOf i := by
  unfold lettersOf
  cases hi : letters[i]? with
  | none => exact List.not_mem_nil
  | some l => exact letters_noNul l (List.mem_of_getElem? hi)

/-- The letters give the terminal. -/
theorem lettersOf_inj {i j : Nat} (hi : i < letters.length) (hj : j < letters.length)
    (h : lettersOf i = lettersOf j) : i = j := by
  rw [lettersOf_eq hi, lettersOf_eq hj] at h
  exact (List.Nodup.getElem_inj_iff letters_nodup).mp h

/-- A name that ends in the two letters of the terminal `i`. -/
def withLetters (front : List UInt8) (h : 0 ∉ front) (i : Nat) : CString where
  chars := front ++ lettersOf i
  noNul hmem := (List.mem_append.mp hmem).elim h (lettersOf_noNul i)

/-- So does a name that ends in them. -/
theorem withLetters_inj {front : List UInt8} {h : 0 ∉ front} {i j : Nat} (hi : i < letters.length)
    (hj : j < letters.length) (heq : withLetters front h i = withLetters front h j) : i = j :=
  lettersOf_inj hi hj (List.append_cancel_left (congrArg CString.chars heq))

/-- The path of the master `i`. -/
def masterPath : Nat → CString := withLetters PATH_PTY (by decide +kernel)

/-- The name that the kernel has for it. -/
def masterName : Nat → CString := withLetters (asciiChars "pty") (by decide +kernel)

/-- The path of its slave. -/
def slavePath : Nat → CString := withLetters PATH_TTY (by decide +kernel)

/-- The paths of all masters. -/
def masterPaths : List CString := (List.range letters.length).map masterPath

/-- There is one for each terminal. -/
theorem length_masterPaths : masterPaths.length = letters.length := by
  rw [masterPaths, List.length_map, List.length_range]

/-- The next path, and the ones behind it. -/
theorem drop_masterPaths {i : Nat} (hi : i < letters.length) :
    masterPaths.drop i = masterPath i :: masterPaths.drop (i + 1) := by
  have hlt : i < masterPaths.length := Nat.lt_of_lt_of_eq hi length_masterPaths.symm
  rw [List.drop_eq_getElem_cons hlt]
  simp only [masterPaths, List.getElem_map, List.getElem_range]

/-- The path in `buf` with these letters. -/
def pathWith (l : List UInt8) : CString := upToNul (PATH_PTY ++ (l ++ [0]))

/-- What the loops build are the paths of the masters. -/
theorem map_pathWith_letters : letters.map pathWith = masterPaths := by
  refine List.ext_getElem (by rw [List.length_map, length_masterPaths]) fun i hi _ => ?_
  have hlt : i < letters.length := Nat.lt_of_lt_of_eq hi (List.length_map _)
  have hbytes : PATH_PTY ++ (letters[i] ++ [0]) = (masterPath i).bytes ++ [] := by
    rw [← lettersOf_eq hlt, List.append_nil, ← List.append_assoc]
    rfl
  rw [List.getElem_map, pathWith, hbytes, upToNul_bytes_append]
  simp only [masterPaths, List.getElem_map, List.getElem_range]

end Paths

/-! ### The loops -/

section Loops

variable {oflag : BitVec 32}

/-- Tries to open the paths in turn. -/
def tryEach (oflag : BitVec 32) (last : Openpt) : List CString → Openpt
  | [] => last
  | path :: paths => .asks path oflag (turn oflag (tryEach oflag last paths))

/-- Some paths, and then others. -/
theorem tryEach_append (last : Openpt) (as bs : List CString) :
    tryEach oflag last (as ++ bs) = tryEach oflag (tryEach oflag last bs) as := by
  induction as with
  | nil => rfl
  | cons path as ih => rw [List.cons_append, tryEach, tryEach, ih]

/-- The inner loop, from `q` on. Before it `s[1]` can be anything. -/
theorem seriesFrom_eq {rest : List UInt8 → Openpt} {last : Openpt} {p : UInt8}
    (hrest : ∀ y, rest (PATH_PTY ++ [p, y, 0]) = last) (qs : List UInt8) (y : UInt8) :
    seriesFrom oflag rest qs (PATH_PTY ++ [p, y, 0]) =
      tryEach oflag last (qs.map fun q => pathWith [p, q]) := by
  induction qs generalizing y with
  | nil => exact hrest y
  | cons q qs ih =>
      have hwrite : writeAt (PATH_PTY ++ [p, y, 0]) (PATH_PTY.length + 1) [q] =
          some (PATH_PTY ++ [p, q, 0]) := by
        have hover : writeAt ((PATH_PTY ++ [p]) ++ ([y] ++ [0])) (PATH_PTY ++ [p]).length [q] =
            some ((PATH_PTY ++ [p]) ++ ([q] ++ [0])) := writeAt_over (PATH_PTY ++ [p]) [y] [0] rfl
        simpa using hover
      have hread : readAt (PATH_PTY ++ [p, q, 0]) 0 = some (pathWith [p, q]) :=
        if_pos (by simp)
      rw [seriesFrom, hwrite, List.map_cons, tryEach]
      simp only [hread]
      rw [ih q]

/-- The outer loop, from `p` on. -/
theorem terminalsFrom_eq (ps : List UInt8) (x y : UInt8) :
    terminalsFrom oflag ps (PATH_PTY ++ [x, y, 0]) =
      tryEach oflag (.failed ENOENT) ((lettersFrom ps).map pathWith) := by
  induction ps generalizing x y with
  | nil => rfl
  | cons p ps ih =>
      have hwrite : writeAt (PATH_PTY ++ [x, y, 0]) PATH_PTY.length [p] =
          some (PATH_PTY ++ [p, y, 0]) := writeAt_over PATH_PTY [x] [y, 0] rfl
      rw [terminalsFrom, hwrite]
      show seriesFrom oflag (terminalsFrom oflag ps) libcPtyname2 (PATH_PTY ++ [p, y, 0]) = _
      have hletters : lettersFrom (p :: ps) =
          (libcPtyname2.map fun q => [p, q]) ++ lettersFrom ps := List.flatMap_cons
      rw [seriesFrom_eq (ih p), hletters, List.map_append, tryEach_append, List.map_map]
      rfl

/-- A call in front of the terminal `i`. -/
def openptFrom (oflag : BitVec 32) (i : Nat) : Openpt :=
  tryEach oflag (.failed ENOENT) (masterPaths.drop i)

/-- The loops try the paths of the masters. -/
theorem posixOpenpt_eq {stack : List UInt8} (hstack : stack.length = bufSize) :
    posixOpenpt oflag stack = openptFrom oflag 0 := by
  obtain ⟨front, back, rfl, hfront⟩ :
      ∃ front back, stack = front ++ back ∧ front.length = PATH_PTY.length :=
    ⟨_, _, (List.take_append_drop PATH_PTY.length stack).symm,
      List.length_take_of_le (by rw [hstack, bufSize]; omega)⟩
  obtain ⟨x, y, z, rfl⟩ : ∃ x y z, back = [x, y, z] := by
    refine List.length_eq_three.mp ?_
    rw [List.length_append, hfront, bufSize] at hstack
    omega
  have hprefix : writeAt (front ++ [x, y, z]) 0 PATH_PTY = some (PATH_PTY ++ [x, y, z]) :=
    writeAt_over [] front [x, y, z] hfront
  have hnul : writeAt (PATH_PTY ++ [x, y, z]) (PATH_PTY.length + 2) [0] =
      some (PATH_PTY ++ [x, y, 0]) := by
    have hover : writeAt ((PATH_PTY ++ [x, y]) ++ ([z] ++ [])) (PATH_PTY ++ [x, y]).length [0] =
        some ((PATH_PTY ++ [x, y]) ++ ([0] ++ [])) := writeAt_over (PATH_PTY ++ [x, y]) [z] [] rfl
    simpa using hover
  simp only [posixOpenpt, hprefix, hnul]
  rw [terminalsFrom_eq, openptFrom, List.drop_zero, ← map_pathWith_letters, letters]

/-- In front of a terminal the call asks for its path. -/
theorem openptFrom_of_lt {i : Nat} (hi : i < letters.length) :
    openptFrom oflag i = .asks (masterPath i) oflag (turn oflag (openptFrom oflag (i + 1))) := by
  rw [openptFrom, drop_masterPaths hi, tryEach]
  rfl

/-- Behind the last one it fails. -/
theorem openptFrom_of_le {i : Nat} (hi : letters.length ≤ i) :
    openptFrom oflag i = .failed ENOENT := by
  rw [openptFrom, List.drop_of_length_le (length_masterPaths.trans_le hi)]
  rfl

end Loops

/-! ### The steps -/

variable {Process : Type} [DecidableEq Process] {nodes : CString → Prop}
  {kernel : OpenKernel Process} {t t' : Terminals Process} {l : PtyStep Process} {p : Process}

/-- The path has the prefix of the masters. -/
def IsMaster (path : CString) : Prop := PATH_PTY <+: path.chars

/-- What is known of a kernel that has devices at `nodes`: it opens a master only while nobody has
it open, it gives each process a descriptor that the process does not have yet, and it says `ENOENT`
only of a path without a device. -/
structure Serves (nodes : CString → Prop) (kernel : OpenKernel Process) : Prop where
  node : ∀ {files p path oflag fd}, kernel files p path oflag (.opened fd) = true → nodes path
  exclusive : ∀ {files p path oflag fd}, kernel files p path oflag (.opened fd) = true →
    IsMaster path → ∀ f ∈ files, f.path ≠ path
  newFd : ∀ {files p path oflag fd}, kernel files p path oflag (.opened fd) = true →
    ∀ f ∈ files, f.process = p → f.fd ≠ fd
  noent : ∀ {files p path oflag}, kernel files p path oflag (.refused ENOENT) = true → ¬ nodes path

/-- What a step does. -/
theorem ptyStep_cases (h : ptyStep kernel l t = some t') :
    (∃ p oflag stack, l = .openpt p oflag stack ∧ t.call p = none ∧
      t' = t.goto p (some (openptFrom oflag 0))) ∨
    (∃ p answer path oflag next, l = .name p answer ∧ t.call p = some (.asks path oflag next) ∧
      kernel t.files p path oflag answer = true ∧
      t' = (t.take p path answer).goto p (some (next answer))) ∨
    (∃ p, l = .leave p ∧
      ((∃ fd ctty, t.call p = some (.opened fd ctty)) ∨ ∃ e, t.call p = some (.failed e)) ∧
      t' = t.goto p none) ∨
    (∃ p fd, l = .close p fd ∧ t.call p = none ∧ t' = t.close p fd) := by
  cases l with
  | openpt p oflag stack =>
      by_cases hok : (t.call p).isNone = true ∧ stack.length = bufSize
      · rw [ptyStep, if_pos hok, posixOpenpt_eq hok.2] at h
        exact .inl ⟨p, oflag, stack, rfl, Option.isNone_iff_eq_none.mp hok.1,
          (Option.some.inj h).symm⟩
      · rw [ptyStep, if_neg hok] at h
        exact nomatch h
  -- Only a call that asks for a path takes an answer.
  | name p answer =>
      cases hcall : t.call p with
      | none => simp [ptyStep, hcall] at h
      | some c =>
          cases c with
          | asks path oflag next =>
              simp only [ptyStep, hcall] at h
              by_cases hmay : kernel t.files p path oflag answer = true
              · rw [if_pos hmay] at h
                exact .inr (.inl ⟨p, answer, path, oflag, next, rfl, hcall, hmay,
                  (Option.some.inj h).symm⟩)
              · rw [if_neg hmay] at h
                exact nomatch h
          | opened fd ctty => simp [ptyStep, hcall] at h
          | failed e => simp [ptyStep, hcall] at h
          | fault => simp [ptyStep, hcall] at h
  -- Only a call that returned can be left.
  | leave p =>
      cases hcall : t.call p with
      | none => simp [ptyStep, hcall] at h
      | some c =>
          cases c with
          | opened fd ctty =>
              simp only [ptyStep, hcall] at h
              exact .inr (.inr (.inl ⟨p, rfl, .inl ⟨fd, ctty, hcall⟩, (Option.some.inj h).symm⟩))
          | failed e =>
              simp only [ptyStep, hcall] at h
              exact .inr (.inr (.inl ⟨p, rfl, .inr ⟨e, hcall⟩, (Option.some.inj h).symm⟩))
          | asks path oflag next => simp [ptyStep, hcall] at h
          | fault => simp [ptyStep, hcall] at h
  | close p fd =>
      by_cases hok : (t.call p).isNone = true
      · rw [ptyStep, if_pos hok] at h
        exact .inr (.inr (.inr ⟨p, fd, rfl, Option.isNone_iff_eq_none.mp hok,
          (Option.some.inj h).symm⟩))
      · rw [ptyStep, if_neg hok] at h
        exact nomatch h

/-- The process is there. -/
theorem goto_call_self (t : Terminals Process) (p : Process) (c : Option Openpt) :
    (t.goto p c).call p = c :=
  Function.update_self ..

/-- The others stay. -/
theorem goto_call_of_ne (t : Terminals Process) {p q : Process} (c : Option Openpt) (h : q ≠ p) :
    (t.goto p c).call q = t.call q :=
  Function.update_of_ne h ..

omit [DecidableEq Process] in
/-- An answer moves no process. -/
theorem take_call (t : Terminals Process) (p : Process) (path : CString) (answer : Answer) :
    (t.take p path answer).call = t.call := by
  cases answer <;> rfl

omit [DecidableEq Process] in
/-- Which files are open behind an answer. -/
theorem mem_take {f : OpenFile Process} {path : CString} {answer : Answer} :
    f ∈ (t.take p path answer).files ↔
      (∃ fd, answer = .opened fd ∧ f = ⟨path, p, fd⟩) ∨ f ∈ t.files := by
  cases answer with
  | refused errno => simp [Terminals.take]
  | opened fd => simp [Terminals.take]

/-- Closing a descriptor closes no other file. -/
theorem mem_close {f : OpenFile Process} {fd : Nat} :
    f ∈ (t.close p fd).files ↔ f ∈ t.files ∧ ¬ (f.process = p ∧ f.fd = fd) := by
  simp only [Terminals.close, List.mem_filter, Bool.not_eq_true', Bool.and_eq_false_imp,
    decide_eq_true_eq, decide_eq_false_iff_not, not_and]

/-- A step of another process leaves the call of the process, and its files. -/
theorem ptyStep_other (h : ptyStep kernel l t = some t') (hp : l.process ≠ p) :
    t'.call p = t.call p ∧
      ∀ f : OpenFile Process, f.process = p → (f ∈ t'.files ↔ f ∈ t.files) := by
  obtain ⟨q, oflag, stack, rfl, -, rfl⟩ | ⟨q, answer, path, oflag, next, rfl, -, -, rfl⟩ |
    ⟨q, rfl, -, rfl⟩ | ⟨q, fd, rfl, -, rfl⟩ := ptyStep_cases h
  · exact ⟨goto_call_of_ne t _ (Ne.symm hp), fun _ _ => Iff.rfl⟩
  · have hcall := goto_call_of_ne (t.take q path answer) (some (next answer)) (Ne.symm hp)
    refine ⟨hcall.trans (congrFun (take_call t q path answer) p), fun f hf => ?_⟩
    refine mem_take.trans ⟨?_, .inr⟩
    rintro (⟨fd, -, rfl⟩ | hold)
    · exact absurd hf hp
    · exact hold
  · exact ⟨goto_call_of_ne t _ (Ne.symm hp), fun _ _ => Iff.rfl⟩
  · refine ⟨rfl, fun f hf => mem_close.trans ⟨And.left, fun hold => ⟨hold, fun hboth => ?_⟩⟩⟩
    exact hp (hboth.1.symm.trans hf)

/-! ### What is open -/

section Files

omit [DecidableEq Process] in
/-- The paths of the masters have their prefix. -/
theorem isMaster_masterPath (i : Nat) : IsMaster (masterPath i) := ⟨lettersOf i, rfl⟩

/-- Where a call can be: in front of a terminal, or behind its result. -/
def Within (t : Terminals Process) (p : Process) (c : Openpt) : Prop :=
  (∃ oflag i, i < letters.length ∧ c = openptFrom oflag i) ∨ c = .failed ENOENT ∨
    ∃ fd ctty, c = .opened fd ctty ∧ ∃ f ∈ t.files, f.process = p ∧ f.fd = fd

omit [DecidableEq Process] in
/-- A call in front of a terminal, or behind all of them. -/
theorem within_openptFrom (t : Terminals Process) (p : Process) (oflag : BitVec 32) (i : Nat) :
    Within t p (openptFrom oflag i) := by
  by_cases hi : i < letters.length
  · exact .inl ⟨oflag, i, hi, rfl⟩
  · exact .inr (.inl (openptFrom_of_le (Nat.not_lt.mp hi)))

omit [DecidableEq Process] in
/-- A call that asks for a path is in front of a terminal. -/
theorem Within.asks {path : CString} {oflag : BitVec 32} {next : Answer → Openpt}
    (h : Within t p (.asks path oflag next)) : ∃ i < letters.length, path = masterPath i ∧
      next = turn oflag (openptFrom oflag (i + 1)) := by
  obtain ⟨oflag', i, hi, heq⟩ | heq | ⟨fd, ctty, heq, -⟩ := h
  · rw [openptFrom_of_lt hi] at heq
    cases heq
    exact ⟨i, hi, rfl, rfl⟩
  · exact nomatch heq
  · exact nomatch heq

/-- No two files have the same key. -/
def Distinct {κ : Type} (key : OpenFile Process → κ) (files : List (OpenFile Process)) : Prop :=
  ∀ f ∈ files, ∀ g ∈ files, key f = key g → f = g

omit [DecidableEq Process] in
/-- One more file, with a key of its own. -/
theorem Distinct.cons {κ : Type} {key : OpenFile Process → κ} {files : List (OpenFile Process)}
    {new : OpenFile Process} (h : Distinct key files) (hnew : ∀ f ∈ files, key f ≠ key new) :
    Distinct key (new :: files) := by
  intro f hf g hg heq
  obtain rfl | hfold := List.mem_cons.mp hf
  · obtain rfl | hgold := List.mem_cons.mp hg
    · rfl
    · exact absurd heq.symm (hnew g hgold)
  · obtain rfl | hgold := List.mem_cons.mp hg
    · exact absurd heq (hnew f hfold)
    · exact h f hfold g hgold heq

/-- Each file that is open is a master, no two are the same master, and no two have the same
descriptor. -/
structure Inv (nodes : CString → Prop) (t : Terminals Process) : Prop where
  master : ∀ f ∈ t.files, nodes f.path ∧ ∃ i < letters.length, f.path = masterPath i
  paths : Distinct OpenFile.path t.files
  fds : Distinct (fun f => (f.process, f.fd)) t.files
  call : ∀ p c, t.call p = some c → Within t p c

omit [DecidableEq Process] in
/-- What the kernel opens keeps the parts of the invariant that are about the files. -/
theorem Inv.take (hserves : Serves nodes kernel) (hI : Inv nodes t) {i : Nat}
    (hi : i < letters.length) {oflag : BitVec 32} {answer : Answer}
    (hmay : kernel t.files p (masterPath i) oflag answer = true) :
    (∀ f ∈ (t.take p (masterPath i) answer).files,
      nodes f.path ∧ ∃ i < letters.length, f.path = masterPath i) ∧
    Distinct OpenFile.path (t.take p (masterPath i) answer).files ∧
    Distinct (fun f => (f.process, f.fd)) (t.take p (masterPath i) answer).files := by
  cases answer with
  | refused errno => exact ⟨hI.master, hI.paths, hI.fds⟩
  | opened fd =>
      refine ⟨fun f hf => ?_, hI.paths.cons (hserves.exclusive hmay (isMaster_masterPath i)),
        hI.fds.cons fun f hf heq => ?_⟩
      · obtain rfl | hf := List.mem_cons.mp hf
        · exact ⟨hserves.node hmay, i, hi, rfl⟩
        · exact hI.master f hf
      · exact hserves.newFd hmay f hf (congrArg Prod.fst heq) (congrArg Prod.snd heq)

/-- Every step keeps the invariant. -/
theorem Inv.step (hserves : Serves nodes kernel) (hI : Inv nodes t)
    (h : ptyStep kernel l t = some t') : Inv nodes t' := by
  -- The other processes keep what they opened.
  have hcall : (∀ c, t'.call l.process = some c → Within t' l.process c) →
      ∀ p c, t'.call p = some c → Within t' p c := by
    intro hown p c hc
    by_cases hp : l.process = p
    · subst hp
      exact hown c hc
    · obtain ⟨hsame, hfiles⟩ := ptyStep_other h hp
      obtain htrying | hfailed | ⟨fd, ctty, hopened, f, hf, rfl, hfd⟩ :=
        hI.call p c (hsame ▸ hc)
      · exact .inl htrying
      · exact .inr (.inl hfailed)
      · exact .inr (.inr ⟨fd, ctty, hopened, f, (hfiles f rfl).mpr hf, rfl, hfd⟩)
  obtain ⟨p, oflag, stack, rfl, -, rfl⟩ | ⟨p, answer, path, oflag, next, rfl, hasks, hmay, rfl⟩ |
    ⟨p, rfl, -, rfl⟩ | ⟨p, fd, rfl, hnone, rfl⟩ := ptyStep_cases h
  · refine ⟨hI.master, hI.paths, hI.fds, hcall fun c hc => ?_⟩
    obtain rfl := Option.some.inj ((goto_call_self t p _).symm.trans hc)
    exact within_openptFrom _ p oflag 0
  · obtain ⟨i, hi, rfl, rfl⟩ := (hI.call p _ hasks).asks
    obtain ⟨hmaster, hpaths, hfds⟩ := hI.take hserves hi hmay
    refine ⟨hmaster, hpaths, hfds, hcall fun c hc => ?_⟩
    obtain rfl := Option.some.inj ((goto_call_self (t.take p _ answer) p _).symm.trans hc)
    cases answer with
    | opened fd => exact .inr (.inr ⟨fd, _, rfl, _, mem_take.mpr (.inl ⟨fd, rfl, rfl⟩), rfl, rfl⟩)
    | refused errno =>
        by_cases herrno : errno = ENOENT
        · exact .inr (.inl (by rw [turn, if_pos herrno, herrno]))
        · rw [turn, if_neg herrno]
          exact within_openptFrom _ p oflag (i + 1)
  · refine ⟨hI.master, hI.paths, hI.fds, hcall fun c hc => ?_⟩
    exact nomatch (goto_call_self t p none).symm.trans hc
  · have hold : ∀ {f}, f ∈ (t.close p fd).files → f ∈ t.files := fun hf => (mem_close.mp hf).1
    refine ⟨fun f hf => hI.master f (hold hf),
      fun f hf g hg => hI.paths f (hold hf) g (hold hg),
      fun f hf g hg => hI.fds f (hold hf) g (hold hg), hcall fun c hc => ?_⟩
    exact nomatch hnone.symm.trans hc

/-- It holds in every interleaving. -/
theorem inv_of_reachable (hserves : Serves nodes kernel) (h : (terminals kernel).Reachable t) :
    Inv nodes t := by
  refine h.invariant (fun t ht => ?_) fun _ _ _ hI _ hs => hI.step hserves hs
  subst ht
  exact ⟨nofun, nofun, nofun, nofun⟩

end Files

/-! ### Names -/

section Names

/-- Putting a `t` on the first character makes the slave's name of the master's. -/
theorem slaveOf_masterName (i : Nat) (behind : List UInt8) :
    slaveOf (masterName i) behind = slavePath i := by
  have htty : PATH_TTY = PATH_DEV ++ asciiChars "t" ++ asciiChars "ty" := by decide +kernel
  have hpty : asciiChars "pty" = 112 :: asciiChars "ty" := by decide +kernel
  have hname : (masterName i).chars = 112 :: (asciiChars "ty" ++ lettersOf i) := by
    rw [← List.cons_append, ← hpty]
    rfl
  have hne : (masterName i).chars ≠ [] := hname ▸ List.cons_ne_nil _ _
  ext1
  show PATH_DEV ++ asciiChars "t" ++ (slaveTail (masterName i) behind).chars =
    PATH_TTY ++ lettersOf i
  rw [slaveTail_of_ne hne, hname, List.tail_cons, htty, List.append_assoc _ (asciiChars "ty")]

/-- The static buffer has room for the path of a slave, and no more. -/
theorem length_slavePath {i : Nat} (hi : i < letters.length) :
    (slavePath i).bytes.length = slaveRoom := by
  have htwo : ∀ l ∈ letters, l.length = 2 := by decide +kernel
  have hletters : (lettersOf i).length = 2 := by
    rw [lettersOf_eq hi]
    exact htwo _ (List.getElem_mem hi)
  show (PATH_TTY ++ lettersOf i ++ [0]).length = slaveRoom
  rw [List.length_append, List.length_append, hletters]
  rfl

/-- The device of the terminal, as the kernel shows it to the holder of its master. -/
def ShowsTerminal (k : TtyKernel) (fd : Int) (i : Nat) : Prop :=
  IsNamed k fd (masterName i) ∧ IsDevice k (slavePath i)

/-- `ptsname` of a master. -/
theorem ptsname_master {k : TtyKernel} {fd : Int} {i : Nat} (hi : i < letters.length)
    (hk : ShowsTerminal k fd i) {buffer : List UInt8} (hbuffer : buffer.length = slaveRoom)
    (errno : Errno) : ptsname k fd buffer errno = some (some (slavePath i)) := by
  obtain ⟨hnamed, hdevice⟩ := hk
  have hpath : ∀ {path}, IsSlave k fd (behindT buffer) path → path = slavePath i := by
    rintro path ⟨name, hname, rfl⟩
    rw [hname.unique hnamed, slaveOf_masterName]
  have hslave : IsSlave k fd (behindT buffer) (slavePath i) :=
    ⟨_, hnamed, (slaveOf_masterName i _).symm⟩
  obtain ⟨hended, hreturned⟩ := ptsnameInternal_some k fd buffer errno
  -- The name of a master is not empty.
  have hsome : ptsnameInternal k fd (some buffer) buffer.length errno ≠ none := by
    intro hnone
    obtain ⟨-, -, name, hname, hnil⟩ := hended.mp hnone
    rw [hname.unique hnamed] at hnil
    exact absurd (List.append_eq_nil_iff.mp hnil).1 (by decide +kernel)
  obtain ⟨r, hr⟩ := Option.ne_none_iff_exists'.mp hsome
  have hzero : r.ret = 0 := (hreturned r hr).ret_eq_zero_iff.mpr
    ⟨_, hslave, hdevice, Nat.le_of_eq hbuffer.symm,
      Nat.le_of_eq ((length_slavePath hi).trans hbuffer.symm)⟩
  obtain ⟨-, path, hself, hread⟩ := (hreturned r hr).path hzero
  rw [hpath hself] at hread
  rw [hbuffer] at hr
  simp [ptsname, hr, hzero, hread]

/-- `unlockpt` of a master. -/
theorem unlockpt_master {k : TtyKernel} {fd : Int} {i : Nat} (hk : ShowsTerminal k fd i) :
    unlockpt k fd = .ok () := by
  obtain ⟨⟨st, hstat, hchr, -⟩, -⟩ := hk
  simp [unlockpt, hstat, hchr]

/-- No call goes outside its buffer, and a descriptor that was returned is open. Each file that is
open has the path of a master, that of no other file. `unlockpt` succeeds for its holder, and
`ptsname` gives the path of the holder's own slave. -/
theorem terminals_name (hserves : Serves nodes kernel) (ht : (terminals kernel).Reachable t)
    (k : Process → TtyKernel) (hk : ∀ f ∈ t.files, ∀ i < letters.length,
      f.path = masterPath i → ShowsTerminal (k f.process) f.fd i)
    (buffer : Process → List UInt8) (hbuffer : ∀ p, (buffer p).length = slaveRoom)
    (errno : Process → Errno) :
    (∀ p, t.call p ≠ some .fault) ∧
    (∀ p fd ctty, t.call p = some (.opened fd ctty) → ∃ f ∈ t.files, f.process = p ∧ f.fd = fd) ∧
    (∀ f ∈ t.files, nodes f.path ∧ (∀ g ∈ t.files, g.path = f.path → g = f) ∧
      ∃ i < letters.length, f.path = masterPath i ∧ unlockpt (k f.process) f.fd = .ok () ∧
        ptsname (k f.process) f.fd (buffer f.process) (errno f.process) =
          some (some (slavePath i))) ∧
    ∀ f ∈ t.files, ∀ g ∈ t.files,
      ptsname (k f.process) f.fd (buffer f.process) (errno f.process) =
          ptsname (k g.process) g.fd (buffer g.process) (errno g.process) ↔
        f.process = g.process ∧ f.fd = g.fd := by
  have hI := inv_of_reachable hserves ht
  have hname : ∀ f ∈ t.files, ∃ i < letters.length, f.path = masterPath i ∧
      unlockpt (k f.process) f.fd = .ok () ∧
      ptsname (k f.process) f.fd (buffer f.process) (errno f.process) =
        some (some (slavePath i)) := by
    intro f hf
    obtain ⟨-, i, hi, hpath⟩ := hI.master f hf
    have hshows := hk f hf i hi hpath
    exact ⟨i, hi, hpath, unlockpt_master hshows,
      ptsname_master hi hshows (hbuffer f.process) (errno f.process)⟩
  refine ⟨fun p hfault => ?_, fun p fd ctty hopened => ?_, fun f hf =>
    ⟨(hI.master f hf).1, fun g hg => hI.paths g hg f hf, hname f hf⟩, fun f hf g hg => ?_⟩
  · obtain ⟨oflag, i, hi, heq⟩ | heq | ⟨fd, ctty, heq, -⟩ := hI.call p _ hfault
    · rw [openptFrom_of_lt hi] at heq
      exact nomatch heq
    · exact nomatch heq
    · exact nomatch heq
  · obtain ⟨oflag, i, hi, heq⟩ | heq | ⟨fd', ctty', heq, hfile⟩ := hI.call p _ hopened
    · rw [openptFrom_of_lt hi] at heq
      exact nomatch heq
    · exact nomatch heq
    · cases heq
      exact hfile
  · -- The same path is that of the same master, which one file has.
    obtain ⟨i, hi, hpath, -, hf'⟩ := hname f hf
    obtain ⟨j, hj, hpath', -, hg'⟩ := hname g hg
    rw [hf', hg']
    constructor
    · intro heq
      have hij : i = j := withLetters_inj hi hj (Option.some.inj (Option.some.inj heq))
      subst hij
      rw [hI.paths f hf g hg (hpath.trans hpath'.symm)]
      exact ⟨rfl, rfl⟩
    · rintro ⟨hprocess, hfd⟩
      obtain rfl := hI.fds f hf g hg (Prod.ext hprocess hfd)
      rw [withLetters_inj hi hj (hpath.symm.trans hpath')]

end Names

/-! ### A call that a terminal waits for -/

section Progress

variable {i j fd : Nat} {oflag : BitVec 32}

end Progress

/-! ### Two processes -/

/-- A kernel with devices at `nodes` that opens each of them for one process at a time. -/
def oneHolder (nodes : CString → Bool) : OpenKernel Bool
  | files, p, path, _, .opened fd =>
      nodes path && files.all fun f => f.path ≠ path && (f.process, f.fd) ≠ (p, fd)
  | _, _, path, _, .refused errno => errno ≠ ENOENT || !nodes path

/-- It is a kernel of this kind. -/
theorem serves_oneHolder (nodes : CString → Bool) :
    Serves (fun path => nodes path = true) (oneHolder nodes) where
  node h := (Bool.and_eq_true_iff.mp h).1
  exclusive h _ f hf := by
    have hf := List.all_eq_true.mp (Bool.and_eq_true_iff.mp h).2 f hf
    exact of_decide_eq_true (Bool.and_eq_true_iff.mp hf).1
  newFd h f hf hprocess hfd := by
    have hf := List.all_eq_true.mp (Bool.and_eq_true_iff.mp h).2 f hf
    exact of_decide_eq_true (Bool.and_eq_true_iff.mp hf).2 (Prod.ext hprocess hfd)
  noent h hnode := by simp [oneHolder, hnode] at h

/-- The first process opens the first master, then the second process finds it taken and opens the
next one, and then the first process closes its master again. -/
def twoOpen : List (PtyStep Bool) :=
  [.openpt false O_RDWR (List.replicate bufSize 7), .name false (.opened 3),
    .openpt true O_NOCTTY (List.replicate bufSize 7), .name true (.refused 5), .leave false,
    .name true (.opened 7), .close false 3]

/-- A kernel that shows the second master as the descriptor 7. -/
def secondMaster : TtyKernel where
  fstat fd := if fd = 7 then .ok ⟨S_IFCHR, 1⟩ else .error ⟨EBADF, by decide⟩
  devname _ := .ok (masterName 1)
  stat path := if path = slavePath 1 then .ok ⟨S_IFCHR, 2⟩ else .error ⟨ENOENT, by decide⟩

/-- The second process holds the second master, and `ptsname` calls it `/dev/ttyp1`. -/
theorem terminals_name_second : ∃ t, (terminals (oneHolder fun _ => true)).run twoOpen
      ⟨[], fun _ => none⟩ = some t ∧ t.files = [⟨masterPath 1, true, 7⟩] ∧
    ptsname secondMaster 7 (List.replicate slaveRoom 0) 0 = some (some (slavePath 1)) := by
  obtain ⟨t, files, hrun, hpart, rfl⟩ := System.exists_of_run
    (S := terminals (oneHolder fun _ => true)) twoOpen ⟨[], fun _ => none⟩ (fun t => some t.files)
    (fun files => files = [⟨masterPath 1, true, 7⟩]) (by decide +kernel)
  have hfiles : t.files = [⟨masterPath 1, true, 7⟩] := Option.some.inj hpart
  have hreach : (terminals (oneHolder fun _ => true)).Reachable t :=
    .of_run (.init rfl) twoOpen hrun
  refine ⟨t, hrun, hfiles, ?_⟩
  -- The file that is open is the second master.
  have hsecond : (1 : Nat) < letters.length := by decide +kernel
  have hname := terminals_name (serves_oneHolder _) hreach (fun _ => secondMaster) ?_
    (fun _ => List.replicate slaveRoom 0) (fun _ => List.length_replicate) fun _ => 0
  · obtain ⟨-, -, i, hi, hpath, -, hptsname⟩ :=
      hname.2.2.1 ⟨masterPath 1, true, 7⟩ (hfiles ▸ List.mem_singleton_self _)
    obtain rfl := withLetters_inj hsecond hi hpath
    exact hptsname
  · intro f hf i hi hpath
    rw [hfiles] at hf
    obtain rfl := List.mem_singleton.mp hf
    obtain rfl := withLetters_inj hsecond hi hpath
    exact ⟨⟨⟨S_IFCHR, 1⟩, rfl, by decide, rfl⟩, ⟨S_IFCHR, 2⟩, by decide +kernel, by decide⟩

end GlibcPorts.Pty
