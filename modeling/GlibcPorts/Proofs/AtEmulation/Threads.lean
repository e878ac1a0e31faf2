import GlibcPorts.AtEmulation.Threads
import GlibcPorts.Lib.Probe
import GlibcPorts.Proofs.AtEmulation.SinglePath

/-!
# `GlibcPorts.Proofs.AtEmulation.Threads`: the threads agree on what the kernel has

`atThreads_settle`: however the threads of a process interleave, the calls of each one are some
that get no `ENOSYS`, then at most one that gets it and goes on with the emulation, and then ones
that make no `*at` system call. The variable is -1 exactly if some call got `ENOSYS`, and from then
on only a thread in the middle of a call tries once more.

Each function is such a call (`AtCall.tries`), and `Lib.Probe` is about all of them.
-/

set_option autoImplicit false

namespace GlibcPorts.AtEmulation

open Lib

/-- How a function uses `__have_atfcts`, on a kernel with these answers. -/
structure Tries (answerTo : MadeCall → Option CallResult) (ask : Int → AtAnswer × Int) : Prop where
  /-- The emulation makes no `*at` system call, and leaves the variable. -/
  emulated : (ask (-1)).2 = -1 ∧ ∀ c ∈ (ask (-1)).1.calls, c.isAt = false
  /-- One call that gets no `ENOSYS`, or one that does, in front of the emulation. -/
  tried : ((ask 0).2 = 0 ∧ (ask 0).1.calls.length ≤ 1 ∧ ¬ GotENOSYS answerTo (ask 0).1.calls) ∨
    ((ask 0).2 = -1 ∧ ∃ c, c.isAt = true ∧ (∃ result ∈ answerTo c, result.LacksCall) ∧
      (ask 0).1 = ⟨c :: (ask (-1)).1.calls, (ask (-1)).1.result⟩)

section Answers

variable {answerTo : MadeCall → Option CallResult} {calls : List MadeCall} {sys : MadeCall}
  {result : CallResult}

/-- Without a `*at` system call there is no `ENOSYS` for one. -/
theorem not_gotENOSYS_of_plain (h : ∀ c ∈ calls, c.isAt = false) : ¬ GotENOSYS answerTo calls := by
  rintro ⟨c, hc, hat, -⟩
  rw [h c hc] at hat
  cases hat

/-- Nor with only one call, if it gets another answer. -/
theorem not_gotENOSYS_of_answer (hanswer : answerTo sys = some result)
    (hresult : ¬ result.LacksCall) : ¬ GotENOSYS answerTo [sys] := by
  rintro ⟨c, hc, -, other, hother, hlacks⟩
  rw [List.mem_singleton.mp hc, hanswer] at hother
  cases hother
  exact hresult hlacks

end Answers

section Families

variable {H : Headers} {k : Kernel}

/-- No call of the emulation is a `*at` system call. -/
def Outcome.Plain (o : Outcome) : Prop := ∀ c ∈ o.calls, c.isAt = false

theorem Outcome.plain_error (errno : Errno) : (Outcome.error errno).Plain :=
  List.forall_mem_nil _

/-- A call at the end of the emulation. -/
theorem finish_plain {α : Type} {resolved : Exec α} {call : α → PathCall}
    (hcall : ∀ a, (call a).isAt = false) : (finish k resolved call).Plain := by
  cases resolved with
  | ok a => exact List.forall_mem_singleton.mpr (hcall a)
  | fail errno => exact List.forall_mem_nil _
  | fault => exact List.forall_mem_nil _
  | running => exact List.forall_mem_nil _

/-- A function with the attempt of `atSyscall`. -/
theorem atSyscall_tries {c : PathCall} {emulation : Outcome} (hc : c.isAt = true)
    (hplain : emulation.Plain) :
    Tries k.answerTo fun haveAtfcts => (atSyscall k haveAtfcts c emulation).answer where
  emulated := by
    have hask : (atSyscall k (-1) c emulation).answer =
        (⟨emulation.calls.map .path, emulation.result⟩, -1) := rfl
    rw [hask]
    exact ⟨rfl, List.forall_mem_map.mpr hplain⟩
  tried := by
    have hanswer : k.answerTo (.path c) = some (k.call c) := rfl
    by_cases hlacks : (k.call c).LacksCall
    · have hask : atSyscall k 0 c emulation = ⟨⟨c :: emulation.calls, emulation.result⟩, -1⟩ :=
        if_pos hlacks
      rw [hask]
      exact .inr ⟨rfl, .path c, hc, ⟨k.call c, hanswer, hlacks⟩, rfl⟩
    · have hask : atSyscall k 0 c emulation = ⟨.made k c, 0⟩ := if_neg hlacks
      rw [hask]
      exact .inl ⟨rfl, Nat.le_refl 1, not_gotENOSYS_of_answer hanswer hlacks⟩

/-- A function that fails without a call, whatever it reads. -/
theorem error_tries (errno : Errno) :
    Tries k.answerTo fun haveAtfcts => (AtResult.mk (.error errno) haveAtfcts).answer where
  emulated := ⟨rfl, List.forall_mem_nil _⟩
  tried := .inl ⟨rfl, Nat.zero_le 1, not_gotENOSYS_of_plain (List.forall_mem_nil _)⟩

/-- A function that fails only on the way to the system call. -/
theorem guarded_tries {c : PathCall} {emulation : Outcome} {bad : Prop} [Decidable bad]
    (errno : Errno) (hc : c.isAt = true) (hplain : emulation.Plain) :
    Tries k.answerTo fun haveAtfcts =>
      (if 0 ≤ haveAtfcts ∧ bad then AtResult.mk (.error errno) haveAtfcts
        else atSyscall k haveAtfcts c emulation).answer where
  emulated := (atSyscall_tries (k := k) hc hplain).emulated
  tried := by
    by_cases hbad : bad
    · simp only [hbad, and_self, if_true, Int.le_refl]
      exact .inl ⟨rfl, Nat.zero_le 1, not_gotENOSYS_of_plain (List.forall_mem_nil _)⟩
    · have htries := (atSyscall_tries (k := k) hc hplain).tried
      simp only [hbad, and_false, if_false]
      exact htries

/-- The block behind a test of the flags. -/
theorem plain_of_flags {flags : Prop} [Decidable flags] {errno : Errno} {emulation : Outcome}
    (hplain : emulation.Plain) : (if flags then Outcome.error errno else emulation).Plain := by
  split
  · exact Outcome.plain_error errno
  · exact hplain

/-- One of two calls. -/
theorem isAt_ite {flags : Prop} [Decidable flags] {c d : PathCall} {b : Bool} (hc : c.isAt = b)
    (hd : d.isAt = b) : (if flags then c else d).isAt = b := by
  split
  · exact hc
  · exact hd

/-- A function for one path. -/
theorem SinglePath.tries (f : SinglePath) (fd : Int) (file : CString) :
    Tries k.answerTo fun haveAtfcts => (f.run H k haveAtfcts fd file).answer := by
  cases f with
  | openatNocancel oflag mode => exact atSyscall_tries rfl (finish_plain fun _ => rfl)
  | openat oflag arg => exact atSyscall_tries rfl (finish_plain fun _ => rfl)
  | mkdirat mode => exact atSyscall_tries rfl (finish_plain fun _ => rfl)
  -- The flags are checked behind the system call.
  | unlinkat flag =>
      exact atSyscall_tries rfl (plain_of_flags (finish_plain fun _ => isAt_ite rfl rfl))
  | fchmodat mode flag =>
      exact atSyscall_tries rfl (plain_of_flags (finish_plain fun _ => isAt_ite rfl rfl))
  | fchownat owner group flag =>
      exact atSyscall_tries rfl (plain_of_flags (finish_plain fun _ => isAt_ite rfl rfl))
  | readlinkat buf len => exact atSyscall_tries rfl (finish_plain fun _ => rfl)
  | symlinkat fromPath => exact atSyscall_tries rfl (finish_plain fun _ => rfl)
  -- A wrong version fails whether the call is there or not.
  | xmknodat vers mode dev =>
      by_cases hvers : vers = H.MKNOD_VER
      · simp only [run, AtEmulation.xmknodat, ne_eq, hvers, not_true_eq_false, if_false]
        exact atSyscall_tries (isAt_ite rfl rfl) (finish_plain fun _ => rfl)
      · simp only [run, AtEmulation.xmknodat, ne_eq, hvers, not_false_eq_true, if_true]
        exact error_tries EINVAL
  | fxstatat buf16 vers st flag =>
      exact guarded_tries EINVAL rfl (plain_of_flags (finish_plain fun _ => isAt_ite rfl rfl))
  | fxstatat64 buf16 vers st flag =>
      exact guarded_tries EINVAL rfl (plain_of_flags (finish_plain fun _ => isAt_ite rfl rfl))

/-- `linkat`. -/
theorem linkat_tries (fromfd : Int) (fromPath : CString) (tofd : Int) (toPath : CString)
    (flags : BitVec 32) :
    Tries k.answerTo fun haveAtfcts =>
      (linkat H k haveAtfcts fromfd fromPath tofd toPath flags).answer := by
  exact atSyscall_tries rfl (plain_of_flags (finish_plain fun _ => rfl))

/-- `renameat`. -/
theorem renameat_tries (oldfd : Int) (old : CString) (newfd : Int) (new : CString) :
    Tries k.answerTo fun haveAtfcts => (renameat H k haveAtfcts oldfd old newfd new).answer := by
  exact atSyscall_tries rfl (finish_plain fun _ => rfl)

/-- The emulation of `futimesat` makes at most a call of `utimes`. -/
theorem emulatedFutimesat_plain (times : TimesCall → CallResult) (haveAtfcts fd : Int)
    (file : Option CString) (tvp : Addr) :
    (emulatedFutimesat H k times haveAtfcts fd file tvp).haveAtfcts = haveAtfcts ∧
      ∀ c ∈ (emulatedFutimesat H k times haveAtfcts fd file tvp).calls,
        (MadeCall.times c).isAt = false := by
  unfold emulatedFutimesat
  cases futimesatFile H k fd file with
  | ok path => exact ⟨rfl, List.forall_mem_singleton.mpr rfl⟩
  | fail errno => exact ⟨rfl, List.forall_mem_nil _⟩
  | fault => exact ⟨rfl, List.forall_mem_nil _⟩
  | running => exact ⟨rfl, List.forall_mem_nil _⟩

/-- The emulation of `fexecve` makes at most a call of `execve`. -/
theorem emulatedFexecve_plain (KF_VTYPE_VREG : Int) (exec : ExecCall → CallResult)
    (haveAtfcts fd : Int) (argv envp : Addr) :
    (emulatedFexecve H KF_VTYPE_VREG k exec haveAtfcts fd argv envp).haveAtfcts = haveAtfcts ∧
      ∀ c ∈ (emulatedFexecve H KF_VTYPE_VREG k exec haveAtfcts fd argv envp).calls,
        (MadeCall.exec c).isAt = false := by
  unfold emulatedFexecve
  cases execPath H KF_VTYPE_VREG k fd argv envp with
  | ok path => exact ⟨rfl, List.forall_mem_singleton.mpr rfl⟩
  | fail errno => exact ⟨rfl, List.forall_mem_nil _⟩
  | fault => exact ⟨rfl, List.forall_mem_nil _⟩
  | running => exact ⟨rfl, List.forall_mem_nil _⟩

/-- `futimesat`, whose emulation ends in `utimes`. -/
theorem futimesat_tries (KF_VTYPE_VREG : Int) (times : TimesCall → CallResult) (fd : Int)
    (file : Option CString) (tvp : Addr) :
    Tries (AtCall.futimesat k times fd file tvp).answerTo fun haveAtfcts =>
      (AtCall.futimesat k times fd file tvp).ask H KF_VTYPE_VREG haveAtfcts where
  emulated := by
    obtain ⟨hflag, hplain⟩ := emulatedFutimesat_plain (H := H) (k := k) times (-1) fd file tvp
    exact ⟨hflag, List.forall_mem_map.mpr hplain⟩
  tried := by
    cases file with
    | none =>
        -- A call about the descriptor goes to `futimes`.
        exact .inl ⟨rfl, Nat.le_refl 1,
          not_gotENOSYS_of_plain (List.forall_mem_singleton.mpr rfl)⟩
    | some path =>
        have hanswer : (AtCall.futimesat k times fd (some path) tvp).answerTo
            (.times (.futimesat fd path tvp)) = some (times (.futimesat fd path tvp)) := rfl
        by_cases hlacks : (times (.futimesat fd path tvp)).ret = -1 ∧
            (times (.futimesat fd path tvp)).errno = ENOSYS
        · refine .inr ?_
          have hflag := (emulatedFutimesat_plain (H := H) (k := k) times (-1) fd path tvp).1
          simp only [AtCall.ask, futimesat, if_pos hlacks, if_true, Int.le_refl]
          exact ⟨hflag, .times (.futimesat fd path tvp), rfl, ⟨_, hanswer, hlacks⟩, rfl⟩
        · refine .inl ?_
          simp only [AtCall.ask, futimesat, if_neg hlacks, if_true, Int.le_refl]
          exact ⟨trivial, Nat.le_refl 1, not_gotENOSYS_of_answer hanswer hlacks⟩

/-- `fexecve`, whose emulation ends in `execve`. -/
theorem fexecve_tries (KF_VTYPE_VREG : Int) (exec : ExecCall → CallResult) (fd : Int)
    (argv envp : Addr) :
    Tries (AtCall.fexecve k exec fd argv envp).answerTo fun haveAtfcts =>
      (AtCall.fexecve k exec fd argv envp).ask H KF_VTYPE_VREG haveAtfcts where
  emulated := by
    obtain ⟨hflag, hplain⟩ := emulatedFexecve_plain (H := H) (k := k) KF_VTYPE_VREG exec (-1) fd
      argv envp
    exact ⟨hflag, List.forall_mem_map.mpr hplain⟩
  tried := by
    have hanswer : (AtCall.fexecve k exec fd argv envp).answerTo (.exec (.fexecve fd argv envp)) =
        some (exec (.fexecve fd argv envp)) := rfl
    by_cases hlacks : (exec (.fexecve fd argv envp)).ret = -1 ∧
        (exec (.fexecve fd argv envp)).errno = ENOSYS
    · refine .inr ?_
      have hflag := (emulatedFexecve_plain (H := H) (k := k) KF_VTYPE_VREG exec (-1) fd argv
        envp).1
      simp only [AtCall.ask, fexecve, if_pos hlacks, if_true, Int.le_refl]
      exact ⟨hflag, .exec (.fexecve fd argv envp), rfl, ⟨_, hanswer, hlacks⟩, rfl⟩
    · refine .inl ?_
      simp only [AtCall.ask, fexecve, if_neg hlacks, if_true, Int.le_refl]
      exact ⟨trivial, Nat.le_refl 1, not_gotENOSYS_of_answer hanswer hlacks⟩

end Families

/-! ### All of them -/

section Threads

variable (H : Headers) (KF_VTYPE_VREG : Int)

/-- Every function is such a call. -/
theorem AtCall.tries (c : AtCall) :
    Tries c.answerTo fun haveAtfcts => c.ask H KF_VTYPE_VREG haveAtfcts := by
  cases c with
  | single k f fd file => exact f.tries fd file
  | linkat k fromfd fromPath tofd toPath flags =>
      exact linkat_tries fromfd fromPath tofd toPath flags
  | renameat k oldfd old newfd new => exact renameat_tries oldfd old newfd new
  | futimesat k times fd file tvp => exact futimesat_tries KF_VTYPE_VREG times fd file tvp
  | fexecve k exec fd argv envp => exact fexecve_tries KF_VTYPE_VREG exec fd argv envp

/-- The threads of a process with their calls of the `*at` functions. -/
def atProbe : Probe AtCall AtAnswer where
  ask haveAtfcts c := c.ask H KF_VTYPE_VREG haveAtfcts
  ask_zero c := (c.tries H KF_VTYPE_VREG).tried.imp And.left And.left
  ask_missing c := (c.tries H KF_VTYPE_VREG).emulated.1

variable {H} {KF_VTYPE_VREG} {Thread : Type} [DecidableEq Thread]
  {s s' : Probe.State Thread AtCall AtAnswer}

/-- A call that tries in vain is one that gets `ENOSYS`. -/
theorem failed_tried_iff (c : AtCall) :
    AtCall.Failed ((atProbe H KF_VTYPE_VREG).tried c) ↔ (atProbe H KF_VTYPE_VREG).Lacks c := by
  obtain ⟨hfound, -, hnot⟩ | ⟨hlacks, sys, hsys, hanswer, heq⟩ := (c.tries H KF_VTYPE_VREG).tried
  · refine iff_of_false hnot fun hlacks => ?_
    exact absurd (hfound.symm.trans hlacks) (by decide)
  · refine iff_of_true ⟨sys, ?_, hsys, hanswer⟩ hlacks
    show sys ∈ (c.ask H KF_VTYPE_VREG 0).1.calls
    rw [heq]
    exact List.mem_cons_self

/-- A call that falls back at once makes no `*at` system call. -/
theorem fellBack_plain (c : AtCall) :
    ∀ sys ∈ ((atProbe H KF_VTYPE_VREG).fellBack c).2.calls, sys.isAt = false :=
  (c.tries H KF_VTYPE_VREG).emulated.2

/-- The calls of a thread that ended, in three parts. -/
theorem phases_of_reachable (hs : (atProbe H KF_VTYPE_VREG).system.Reachable s) (t : Thread) :
    ∃ before first after, s.answered t = before ++ first ++ after ∧ first.length ≤ 1 ∧
      (∀ e ∈ before, e.2.calls.length ≤ 1 ∧ ¬ AtCall.Failed e) ∧
      (∀ e ∈ first, AtCall.Failed e ∧ ∃ sys, sys.isAt = true ∧
        e.2 = ⟨sys :: (e.1.ask H KF_VTYPE_VREG (-1)).1.calls,
          (e.1.ask H KF_VTYPE_VREG (-1)).1.result⟩) ∧
      ∀ e ∈ after, ∀ sys ∈ e.2.calls, sys.isAt = false := by
  obtain ⟨before, first, after, hphases, -⟩ := (Probe.inv_of_reachable hs).thread t
  refine ⟨_, _, _, hphases.eq, by simpa using hphases.once, ?_, ?_, ?_⟩
  · refine List.forall_mem_map.mpr fun c hc => ⟨?_, fun hfailed => ?_⟩
    · obtain ⟨-, hone, -⟩ | ⟨hlacks, -⟩ := (c.tries H KF_VTYPE_VREG).tried
      · exact hone
      · exact absurd hlacks (hphases.found c hc)
    · exact hphases.found c hc ((failed_tried_iff c).mp hfailed)
  · refine List.forall_mem_map.mpr fun c hc => ?_
    have hlacks := hphases.lacks c hc
    refine ⟨(failed_tried_iff c).mpr hlacks, ?_⟩
    obtain ⟨hfound, -⟩ | ⟨-, sys, hsys, -, heq⟩ := (c.tries H KF_VTYPE_VREG).tried
    · exact absurd (hfound.symm.trans hlacks) (by decide)
    · exact ⟨sys, hsys, heq⟩
  · exact List.forall_mem_map.mpr fun c _ => fellBack_plain c

/-- The variable is -1 exactly if some call that ended got `ENOSYS`. -/
theorem flag_iff (hs : (atProbe H KF_VTYPE_VREG).system.Reachable s) :
    s.flag = -1 ↔ ∃ t, ∃ e ∈ s.answered t, AtCall.Failed e := by
  rw [(Probe.inv_of_reachable hs).flag_iff]
  constructor
  · rintro ⟨t, c, hlacks, hmem⟩
    exact ⟨t, _, hmem, (failed_tried_iff c).mpr hlacks⟩
  · rintro ⟨t, e, hmem, hfailed⟩
    obtain ⟨before, first, after, hphases, -⟩ := (Probe.inv_of_reachable hs).thread t
    have hparts := hmem
    rw [hphases.eq, List.mem_append, List.mem_append] at hparts
    rcases hparts with (hpart | hpart) | hpart
    · obtain ⟨c, hc, rfl⟩ := List.mem_map.mp hpart
      exact absurd ((failed_tried_iff c).mp hfailed) (hphases.found c hc)
    · obtain ⟨c, hc, rfl⟩ := List.mem_map.mp hpart
      exact ⟨t, c, hphases.lacks c hc, hmem⟩
    · obtain ⟨c, -, rfl⟩ := List.mem_map.mp hpart
      exact absurd hfailed (not_gotENOSYS_of_plain (fellBack_plain c))

/-- In every interleaving of the threads, the calls of a thread that ended are some with at most
one system call each and without `ENOSYS`, then at most one that got `ENOSYS` and went on with the
emulation, and then ones that made no `*at` system call. `__have_atfcts` is -1 exactly if some call
got `ENOSYS`. Then it stays, and of the calls of a thread that end later only one that had begun
before can make its system call. -/
theorem atThreads_settle (hs : (atProbe H KF_VTYPE_VREG).system.Reachable s)
    (ls : List (Probe.Label Thread AtCall))
    (hrun : (atProbe H KF_VTYPE_VREG).system.run ls s = some s') :
    (∀ t, ∃ before first after, s.answered t = before ++ first ++ after ∧ first.length ≤ 1 ∧
      (∀ e ∈ before, e.2.calls.length ≤ 1 ∧ ¬ AtCall.Failed e) ∧
      (∀ e ∈ first, AtCall.Failed e ∧ ∃ sys, sys.isAt = true ∧
        e.2 = ⟨sys :: (e.1.ask H KF_VTYPE_VREG (-1)).1.calls,
          (e.1.ask H KF_VTYPE_VREG (-1)).1.result⟩) ∧
      ∀ e ∈ after, ∀ sys ∈ e.2.calls, sys.isAt = false) ∧
    (s.flag = -1 ↔ ∃ t, ∃ e ∈ s.answered t, AtCall.Failed e) ∧
    (s.flag = -1 → s'.flag = -1 ∧ ∀ t, ∃ begun after,
      s'.answered t = s.answered t ++ begun ++ after ∧ begun.length ≤ 1 ∧
      (∀ e ∈ begun, s.begun t = some (0, e.1)) ∧
      ∀ e ∈ after, ∀ sys ∈ e.2.calls, sys.isAt = false) := by
  refine ⟨phases_of_reachable hs, flag_iff hs, fun hflag => ?_⟩
  obtain ⟨hstays, hlater⟩ := Probe.later_of_run (Probe.inv_of_reachable hs) hflag ls hrun
  refine ⟨hstays, fun t => ?_⟩
  obtain ⟨after, hall | ⟨c, hbegun, hall⟩⟩ := hlater t
  · refine ⟨[], after.map (atProbe H KF_VTYPE_VREG).fellBack, by rw [hall, List.append_nil],
      Nat.zero_le 1, List.forall_mem_nil _, ?_⟩
    exact List.forall_mem_map.mpr fun c _ => fellBack_plain c
  · -- The call that had begun before comes first.
    refine ⟨[(atProbe H KF_VTYPE_VREG).tried c], after.map (atProbe H KF_VTYPE_VREG).fellBack,
      by rw [hall, List.append_assoc, List.singleton_append], Nat.le_refl 1,
      List.forall_mem_singleton.mpr hbegun, ?_⟩
    exact List.forall_mem_map.mpr fun c _ => fellBack_plain c

end Threads

/-! ### Two threads on a kernel without the calls -/

/-- A kernel without the `*at` calls, whose table of open files cannot be read. -/
def oldKernel : Kernel where
  call c := if c.isAt then ⟨-1, ENOSYS⟩ else ⟨0, 0⟩
  filedescLen := none
  filedesc _ := none
  filedesc_le := fun _ _ h => nomatch h
  stack _ n := List.replicate n 0
  length_stack _ _ := List.length_replicate

/-- `mkdirat (AT_FDCWD, "x", 0755)`. -/
def mkdirX : AtCall := .single oldKernel (.mkdirat 0o755) AT_FDCWD ⟨[120], by decide⟩

/-- What the variable and the threads hold when both threads began, and the first one ended. -/
def bothBegan : Option (Probe.State Bool AtCall AtAnswer) :=
  (atProbe kinfoHeaders 1).system.run [.begin false mkdirX, .begin true mkdirX, .finish false]
    ⟨0, fun _ => none, fun _ => []⟩

/-- The second thread tries too, although the variable is -1 by then. -/
theorem atThreads_settle_both : ∃ s s', bothBegan = some s ∧
    (atProbe kinfoHeaders 1).system.run [.finish true] s = some s' ∧ s'.flag = -1 ∧
    (s'.answered true).length = 1 ∧ ∃ t, ∃ e ∈ s.answered t, AtCall.Failed e := by
  refine ⟨_, _, rfl, rfl, ?_⟩
  have hreached : ∀ s, bothBegan = some s → (atProbe kinfoHeaders 1).system.Reachable s :=
    fun s hrun => System.ReachableVia.of_run (.init rfl) _ hrun
  obtain ⟨-, hiff, hlater⟩ := atThreads_settle (hreached _ rfl) [.finish true] rfl
  exact ⟨(hlater (by decide +kernel)).1, rfl, hiff.mp (by decide +kernel)⟩

end GlibcPorts.AtEmulation
