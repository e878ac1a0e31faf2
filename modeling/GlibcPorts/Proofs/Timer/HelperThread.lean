import GlibcPorts.Proofs.Timer.Calls
import GlibcPorts.Timer.HelperThread

/-!
# `GlibcPorts.Proofs.Timer.HelperThread`: when a helper thread is available

`helperSafe_iff`: in a run, every kernel timer for a helper thread was registered while that
thread ran in the same process, and every call that failed for lack of a helper thread had
failed to start one itself, exactly if each step of the run is `HelperKept`: no call comes to
the test of `__helper_tid` after the `pthread_create` of an earlier call of the process failed,
and none comes to `ktimer_create` after the helper thread was cancelled.

Both kinds of steps go wrong because `pthread_once` runs `__start_helper_thread` once in the
life of a process: a failed start is not tried again (`helper_start_not_retried`), and neither
is a helper thread that was cancelled replaced (`helper_not_replaced`). `reset_helper_control`
repairs both in the child of a `fork`, which is why the conditions speak of one process.
-/

set_option autoImplicit false

namespace GlibcPorts.Timer

open GlibcPorts.Lib (System)
open GlibcPorts.Lib.System (ReachableVia)

/-- What is promised about the calls of a process. -/
structure HelperSafe (hp : HelperProcess) : Prop where
  /-- A kernel timer is registered for the helper thread that runs in the process. -/
  registered : ∀ r ∈ hp.registered, r.running = some r.threadId
  /-- A call fails for lack of a helper thread only if it failed to start one itself. -/
  refused : ∀ started ∈ hp.refused, started = some false

/-- The outcome of the `pthread_create` that the call at this place attempted. -/
def HelperPc.attempted : HelperPc → Option Bool
  | .check _ started => started
  | .idle | .once _ | .alloc _ | .register _ => none

/-- The test of `__helper_tid` is not by a call that comes after a failed start of an earlier
call, and `ktimer_create` does not come after the end of the helper thread. -/
def HelperProcess.Kept (hp : HelperProcess) : HelperLabel → Prop
  | .check _ t => hp.startFailed = true → (hp.pc t).attempted = some false
  | .register _ _ (.ok _) => hp.cancelled = false
  | .register _ _ (.error _) | .call _ _ _ _ | .once _ _ _ | .alloc _ _ _ | .signal _ _
  | .fork _ _ _ => True

/-- The step meets the condition in the process in which it happens. -/
def HelperKept (l : HelperLabel) (procs : Nat → Option HelperProcess) : Prop :=
  ∀ hp ∈ procs l.process, hp.Kept l

/-! ### The steps -/

/-- What a step does, with one case for each way in which it can go. -/
inductive HelperProcess.Moves (hp : HelperProcess) : HelperLabel → HelperProcess → Prop
  | probed {p t : Nat} {ok : Bool} {c : CreateArgs} :
      hp.Moves (.call p t ok c) { hp with proc := hp.proc.probe ok }
  | called {p t : Nat} {ok : Bool} {c : CreateArgs} :
      hp.Moves (.call p t ok c) ({ hp with proc := hp.proc.probe ok }.goto t (.once c))
  | once {p t : Nat} {tid : Option Lwpid} {c : CreateArgs} (htid : ∀ n ∈ tid, 0 < n) :
      hp.Moves (.once p t tid) ((hp.callOnce tid).goto t (.check c (hp.attempt tid)))
  | refused {p t : Nat} {c : CreateArgs} {started : Option Bool}
      (hpc : hp.pc t = .check c started) (htid : hp.proc.helperTid = 0) :
      hp.Moves (.check p t) ({ hp with refused := started :: hp.refused }.goto t .idle)
  | checked {p t : Nat} {c : CreateArgs} {started : Option Bool}
      (hpc : hp.pc t = .check c started) (htid : hp.proc.helperTid ≠ 0) :
      hp.Moves (.check p t) (hp.goto t (.alloc c))
  | noMemory {p t : Nat} {block : Option (Addr × StructTimer)} {e : Errno} {proc : Process}
      (halloc : hp.proc.timerAlloc block = (.error e, proc)) :
      hp.Moves (.alloc p t block) ({ hp with proc := proc }.goto t .idle)
  | allocated {p t : Nat} {block : Option (Addr × StructTimer)} {c : CreateArgs} {newp : Addr}
      {proc : Process} (hpc : hp.pc t = .alloc c)
      (halloc : hp.proc.timerAlloc block = (.ok newp, proc)) :
      hp.Moves (.alloc p t block)
        ({ hp with proc := proc.fillThread c newp }.goto t (.register newp))
  | registered {p t : Nat} {newp : Addr} {k : KernelTimerT} (hpc : hp.pc t = .register newp) :
      hp.Moves (.register p t (.ok k)) ({ hp with
        proc := (hp.proc.registerThread newp (.ok k)).2
        registered := ⟨(threadSigevent newp hp.proc.helperTid).sigevNotifyThreadId,
          hp.proc.helper⟩ :: hp.registered }.goto t .idle)
  | failed {p t : Nat} {newp : Addr} {e : Errno} :
      hp.Moves (.register p t (.error e))
        ({ hp with proc := (hp.proc.registerThread newp (.error e)).2 }.goto t .idle)
  | cancelled {p : Nat} {siCode : Int} (hhelper : hp.proc.helper ≠ none) :
      hp.Moves (.signal p siCode)
        { hp with proc := { hp.proc with helper := none }, cancelled := true }
  | notified {p : Nat} {siCode : Int} : hp.Moves (.signal p siCode) hp
  | forked {p t child : Nat} : hp.Moves (.fork p t child) hp

/-- A step is one of these moves. -/
theorem HelperProcess.step_cases {hp hp' : HelperProcess} {l : HelperLabel}
    (hs : hp.step l = some hp') : hp.Moves l hp' := by
  cases l with
  | call p t ok c =>
      simp only [HelperProcess.step] at hs
      split at hs
      · split at hs
        · cases hs
          exact .called
        · cases hs
          exact .probed
      · cases hs
  | once p t tid =>
      simp only [HelperProcess.step] at hs
      split at hs
      · split at hs
        · next htid =>
          cases hs
          exact .once htid
        · cases hs
      · cases hs
  | check p t =>
      simp only [HelperProcess.step] at hs
      split at hs
      · next c started hpc =>
        split at hs
        · next htid =>
          cases hs
          exact .refused hpc htid
        · next htid =>
          cases hs
          exact .checked hpc htid
      · cases hs
  | alloc p t block =>
      simp only [HelperProcess.step] at hs
      split at hs
      · next c hpc =>
        split at hs
        · next e proc halloc =>
          cases hs
          exact .noMemory halloc
        · next newp proc halloc =>
          cases hs
          exact .allocated hpc halloc
      · cases hs
  | register p t res =>
      simp only [HelperProcess.step] at hs
      split at hs
      · next newp hpc =>
        cases res with
        | ok k =>
            cases hs
            exact .registered hpc
        | error e =>
            cases hs
            exact .failed
      · cases hs
  | signal p siCode =>
      simp only [HelperProcess.step] at hs
      split at hs
      · cases hs
      · next hhelper =>
        split at hs
        · cases hs
          exact .cancelled hhelper
        · cases hs
          exact .notified
  | fork p t child =>
      simp only [HelperProcess.step] at hs
      split at hs
      · cases hs
        exact .forked
      · cases hs

/-! ### The invariant -/

/-- What holds at a place of `timer_create`. -/
def HelperPc.Ok (proc : Process) : HelperPc → Prop
  | .idle | .once _ => True
  | .check _ _ => proc.helperOnce = true
  | .alloc _ | .register _ => proc.helperOnce = true ∧ proc.helperTid ≠ 0

/-- The once control, the recorded thread id and the life of the helper thread. -/
structure HelperInv (hp : HelperProcess) : Prop where
  unstarted : hp.proc.helperOnce = false → hp.proc.helperTid = 0 ∧ hp.proc.helper = none ∧
    hp.startFailed = false ∧ hp.cancelled = false
  atfork : hp.proc.helperOnce = true → hp.proc.atfork = true
  failed_iff : hp.proc.helperOnce = true → (hp.proc.helperTid = 0 ↔ hp.startFailed = true)
  running : hp.proc.helperTid ≠ 0 → hp.cancelled = false →
    hp.proc.helper = some hp.proc.helperTid
  gone : hp.cancelled = true → hp.proc.helper = none
  pc : ∀ t, (hp.pc t).Ok hp.proc

/-- The variables of the helper thread are the same. -/
structure SameHelper (proc proc' : Process) : Prop where
  helperOnce : proc'.helperOnce = proc.helperOnce
  helperTid : proc'.helperTid = proc.helperTid
  atfork : proc'.atfork = proc.atfork
  helper : proc'.helper = proc.helper

namespace SameHelper

/-- The probe of the kernel. -/
theorem probe (proc : Process) (ok : Bool) : SameHelper proc (proc.probe ok) := by
  unfold Process.probe
  split
  · exact ⟨rfl, rfl, rfl, rfl⟩
  · exact ⟨rfl, rfl, rfl, rfl⟩

/-- The allocation of a slot. -/
theorem timerAlloc (proc : Process) (block : Option (Addr × StructTimer)) :
    SameHelper proc (proc.timerAlloc block).2 := by
  cases halloc : proc.timerAlloc block with
  | mk res proc' =>
      cases res with
      | ok a =>
          obtain ⟨bytes, i, -, -, -, rfl⟩ := Process.timerAlloc_ok halloc
          exact ⟨rfl, rfl, rfl, rfl⟩
      | error e =>
          rcases Process.timerAlloc_error halloc with rfl | ⟨b, bytes, -, rfl⟩
          · exact ⟨rfl, rfl, rfl, rfl⟩
          · exact ⟨rfl, rfl, rfl, rfl⟩

/-- Filling the block. -/
theorem fillThread (proc : Process) (c : CreateArgs) (newp : Addr) :
    SameHelper proc (proc.fillThread c newp) := by
  unfold Process.fillThread
  split
  · exact ⟨rfl, rfl, rfl, rfl⟩
  · exact ⟨rfl, rfl, rfl, rfl⟩

/-- The call of the kernel. -/
theorem registerThread (proc : Process) (newp : Addr) (res : Except Errno KernelTimerT) :
    SameHelper proc (proc.registerThread newp res).2 := by
  cases res with
  | ok k => exact ⟨rfl, rfl, rfl, rfl⟩
  | error e => exact ⟨rfl, rfl, rfl, rfl⟩

/-- One after the other. -/
theorem trans {proc proc' proc'' : Process} (h : SameHelper proc proc')
    (h' : SameHelper proc' proc'') : SameHelper proc proc'' :=
  ⟨h'.helperOnce.trans h.helperOnce, h'.helperTid.trans h.helperTid, h'.atfork.trans h.atfork,
    h'.helper.trans h.helper⟩

/-- What a thread relies on stays. -/
theorem ok {proc proc' : Process} (h : SameHelper proc proc') {pc : HelperPc}
    (hpc : pc.Ok proc) : pc.Ok proc' := by
  cases pc with
  | idle | once c => trivial
  | check c started => exact h.helperOnce.trans hpc
  | alloc c | register newp => exact ⟨h.helperOnce.trans hpc.1, h.helperTid ▸ hpc.2⟩

end SameHelper

namespace HelperInv

variable {hp hp' : HelperProcess} {t : Nat}

/-- A step that keeps the variables of the helper thread, to a place whose assertion holds. -/
theorem move (h : HelperInv hp) {pc : HelperPc} (hsame : SameHelper hp.proc hp'.proc)
    (hfailed : hp'.startFailed = hp.startFailed) (hcancelled : hp'.cancelled = hp.cancelled)
    (hpc : hp'.pc = hp.pc) (hok : pc.Ok hp.proc) : HelperInv (hp'.goto t pc) := by
  constructor
  case unstarted =>
    intro honce
    change hp'.proc.helperOnce = false at honce
    rw [hsame.helperOnce] at honce
    obtain ⟨htid, hhelper, hf, hc⟩ := h.unstarted honce
    exact ⟨hsame.helperTid.trans htid, hsame.helper.trans hhelper, hfailed.trans hf,
      hcancelled.trans hc⟩
  case atfork =>
    intro honce
    change hp'.proc.helperOnce = true at honce
    rw [hsame.helperOnce] at honce
    exact hsame.atfork.trans (h.atfork honce)
  case failed_iff =>
    intro honce
    change hp'.proc.helperOnce = true at honce
    rw [hsame.helperOnce] at honce
    show hp'.proc.helperTid = 0 ↔ hp'.startFailed = true
    rw [hsame.helperTid, hfailed]
    exact h.failed_iff honce
  case running =>
    intro htid hc
    change hp'.proc.helperTid ≠ 0 at htid
    change hp'.cancelled = false at hc
    show hp'.proc.helper = some hp'.proc.helperTid
    rw [hsame.helperTid] at htid ⊢
    rw [hcancelled] at hc
    exact hsame.helper.trans (h.running htid hc)
  case gone =>
    intro hc
    change hp'.cancelled = true at hc
    rw [hcancelled] at hc
    exact hsame.helper.trans (h.gone hc)
  case pc =>
    intro u
    show (Function.update hp'.pc t pc u).Ok hp'.proc
    by_cases hu : u = t
    · subst hu
      rw [Function.update_self]
      exact hsame.ok hok
    · rw [Function.update_of_ne hu, hpc]
      exact hsame.ok (h.pc u)

/-- `pthread_once`: only its first call in a process starts a thread. -/
theorem once (h : HelperInv hp) {tid : Option Lwpid} (htid : ∀ n ∈ tid, 0 < n) (c : CreateArgs) :
    HelperInv ((hp.callOnce tid).goto t (.check c (hp.attempt tid))) := by
  cases honce : hp.proc.helperOnce with
  | true =>
      -- The initialisation was done, so the call does nothing, whatever came of it.
      have hsame : hp.proc.pthreadOnce tid = hp.proc := by
        unfold Process.pthreadOnce
        rw [if_pos honce]
      have hattempt : hp.attempt tid = none := by
        unfold HelperProcess.attempt
        rw [if_pos honce]
      refine h.move ?_ ?_ rfl rfl honce
      · show SameHelper hp.proc (hp.proc.pthreadOnce tid)
        rw [hsame]
        exact ⟨rfl, rfl, rfl, rfl⟩
      · simp [HelperProcess.callOnce, hattempt]
  | false =>
      obtain ⟨htid0, hhelper, hfailed, hcancelled⟩ := h.unstarted honce
      have hrun : hp.proc.pthreadOnce tid =
          { hp.proc.startHelperThread tid with helperOnce := true } := by
        unfold Process.pthreadOnce
        rw [honce, if_neg Bool.false_ne_true]
      -- No other thread was behind its `pthread_once`.
      have hpc : ∀ u, (hp.pc u).Ok (hp.proc.pthreadOnce tid) := by
        intro u
        have hu := h.pc u
        generalize hp.pc u = pc at hu
        cases pc with
        | idle | once c => trivial
        | check c started => exact absurd (honce.symm.trans hu) Bool.false_ne_true
        | alloc c | register newp => exact absurd (honce.symm.trans hu.1) Bool.false_ne_true
      have hcheck : ∀ u, (Function.update hp.pc t (.check c (hp.attempt tid)) u).Ok
          (hp.proc.pthreadOnce tid) := by
        intro u
        by_cases hu : u = t
        · subst hu
          rw [Function.update_self, hrun]
          rfl
        · rw [Function.update_of_ne hu]
          exact hpc u
      have hattempt : hp.attempt tid = some tid.isSome := by
        unfold HelperProcess.attempt
        rw [honce, if_neg Bool.false_ne_true]
      constructor
      case pc => exact hcheck
      all_goals simp only [HelperProcess.goto, HelperProcess.callOnce, hrun, hattempt, hfailed]
      all_goals cases tid with
        | none => simp [Process.startHelperThread, htid0, hcancelled]
        | some n =>
            have hn : n ≠ 0 := Int.ne_of_gt (htid n rfl)
            simp [Process.startHelperThread, hn, hcancelled]

/-- One step of a process. -/
theorem step (h : HelperInv hp) {l : HelperLabel} (hs : hp.step l = some hp') : HelperInv hp' := by
  have hrefl : SameHelper hp.proc hp.proc := ⟨rfl, rfl, rfl, rfl⟩
  cases HelperProcess.step_cases hs with
  | @probed p t ok c =>
      have hidle : HelperInv ({ hp with proc := hp.proc.probe ok }.goto t (hp.pc t)) :=
        h.move (.probe hp.proc ok) rfl rfl rfl (h.pc t)
      rwa [HelperProcess.goto, Function.update_eq_self] at hidle
  | @called p t ok c => exact h.move (.probe hp.proc ok) rfl rfl rfl trivial
  | @once p t tid c htid => exact h.once htid c
  | refused hpc htid => exact h.move hrefl rfl rfl rfl trivial
  | @checked p t c started hpc htid =>
      have hok := h.pc t
      rw [hpc] at hok
      exact h.move hrefl rfl rfl rfl ⟨hok, htid⟩
  | @noMemory p t block e proc halloc =>
      have hsame := SameHelper.timerAlloc hp.proc block
      rw [halloc] at hsame
      exact h.move hsame rfl rfl rfl trivial
  | @allocated p t block c newp proc hpc halloc =>
      have hok := h.pc t
      have hsame := SameHelper.timerAlloc hp.proc block
      rw [hpc] at hok
      rw [halloc] at hsame
      exact h.move (hsame.trans (.fillThread _ _ _)) rfl rfl rfl hok
  | @registered p t newp k hpc =>
      exact h.move (.registerThread hp.proc newp (.ok k)) rfl rfl rfl trivial
  | @failed p t newp e =>
      exact h.move (.registerThread hp.proc newp (.error e)) rfl rfl rfl trivial
  | cancelled hhelper =>
      -- A helper thread that runs was started by the initialisation.
      have honce : hp.proc.helperOnce = true := by
        by_contra hno
        exact hhelper (h.unstarted (Bool.not_eq_true _ ▸ hno)).2.1
      refine ⟨fun hno => ?_, h.atfork, h.failed_iff, fun _ hc => ?_, fun _ => rfl, h.pc⟩
      · exact absurd (honce.symm.trans hno) Bool.false_ne_true.symm
      · cases hc
  | notified => exact h
  | forked => exact h

/-- The child of a `fork` starts without a helper thread and without its traces: either
`reset_helper_control` runs, or it was not registered because nothing was started. -/
theorem fork (h : HelperInv hp) : HelperInv hp.fork := by
  have hreset : hp.fork.proc.helperOnce = false ∧ hp.fork.proc.helperTid = 0 ∧
      hp.fork.proc.helper = none := by
    unfold HelperProcess.fork Process.fork
    simp only
    split
    · exact ⟨rfl, rfl, rfl⟩
    · next hatfork =>
      have honce : hp.proc.helperOnce = false := by
        by_contra hno
        exact hatfork (h.atfork (Bool.not_eq_false _ ▸ hno))
      exact ⟨honce, (h.unstarted honce).1, rfl⟩
  obtain ⟨honce, htid, hhelper⟩ := hreset
  refine ⟨fun _ => ⟨htid, hhelper, rfl, rfl⟩, fun h => ?_, fun h => ?_, fun h => absurd htid h,
    nofun, fun _ => trivial⟩
  · exact absurd (honce.symm.trans h) Bool.false_ne_true
  · exact absurd (honce.symm.trans h) Bool.false_ne_true

/-! ### One step and the condition -/

/-- What a step adds to the record of the calls. -/
theorem step_records {l : HelperLabel} (hs : hp.step l = some hp') :
    hp'.registered = hp.registered ∧ hp'.refused = hp.refused ∨
      (∃ p t started, l = .check p t ∧ hp'.registered = hp.registered ∧
        hp'.refused = started :: hp.refused) ∨
      ∃ p t res r, l = .register p t res ∧ hp'.registered = r :: hp.registered ∧
        hp'.refused = hp.refused := by
  cases HelperProcess.step_cases hs with
  | @refused p t c started hpc htid => exact .inr (.inl ⟨p, t, started, rfl, rfl, rfl⟩)
  | @registered p t newp k hpc => exact .inr (.inr ⟨p, t, .ok k, _, rfl, rfl, rfl⟩)
  | probed | called | once _ | checked _ _ | noMemory _ | allocated _ _ | failed | cancelled _
  | notified | forked => exact .inl ⟨rfl, rfl⟩

/-- The record of the calls only grows. -/
theorem step_back {l : HelperLabel} (hs : hp.step l = some hp') (h : HelperSafe hp') :
    HelperSafe hp := by
  obtain ⟨hreg, href⟩ := h
  rcases step_records hs with ⟨h₁, h₂⟩ | ⟨p, t, started, -, h₁, h₂⟩ | ⟨p, t, res, r, -, h₁, h₂⟩
  · rw [h₁] at hreg
    rw [h₂] at href
    exact ⟨hreg, href⟩
  · rw [h₁] at hreg
    rw [h₂] at href
    exact ⟨hreg, fun st hst => href st (List.mem_cons_of_mem _ hst)⟩
  · rw [h₁] at hreg
    rw [h₂] at href
    exact ⟨fun r hr => hreg r (List.mem_cons_of_mem _ hr), href⟩

/-- A thread that tests `__helper_tid` is behind `pthread_once`. -/
theorem once_of_check (h : HelperInv hp) {c : CreateArgs} {started : Option Bool}
    (hpc : hp.pc t = .check c started) : hp.proc.helperOnce = true := by
  have hok := h.pc t
  rw [hpc] at hok
  exact hok

/-- A step of a process whose calls went well so far keeps this exactly if it meets the
condition. -/
theorem step_exact (h : HelperInv hp) (hsafe : HelperSafe hp) {l : HelperLabel}
    (hs : hp.step l = some hp') : HelperSafe hp' ↔ hp.Kept l := by
  cases HelperProcess.step_cases hs with
  | @refused p t c started hpc htid =>
      -- The call is refused. That is well if the failed start was its own.
      have hfailed : hp.startFailed = true := (h.failed_iff (h.once_of_check hpc)).mp htid
      have hkept : hp.Kept (.check p t) ↔ (hp.startFailed = true → started = some false) := by
        show (hp.startFailed = true → (hp.pc t).attempted = some false) ↔ _
        rw [hpc]
        rfl
      rw [hkept]
      constructor
      · exact fun hsafe' _ => hsafe'.refused started List.mem_cons_self
      · intro hstarted
        refine ⟨hsafe.registered, fun st hst => ?_⟩
        rcases List.mem_cons.mp hst with rfl | hst
        · exact hstarted hfailed
        · exact hsafe.refused st hst
  | @checked p t c started hpc htid =>
      have hfailed : hp.startFailed ≠ true := fun hf =>
        htid ((h.failed_iff (h.once_of_check hpc)).mpr hf)
      exact ⟨fun _ hf => absurd hf hfailed, fun _ => ⟨hsafe.registered, hsafe.refused⟩⟩
  | @registered p t newp k hpc =>
      have htid : hp.proc.helperTid ≠ 0 := by
        have hok := h.pc t
        rw [hpc] at hok
        exact hok.2
      constructor
      · intro hsafe'
        -- The timer is registered for the running thread, so that was not cancelled.
        have hrunning : hp.proc.helper = some hp.proc.helperTid :=
          hsafe'.registered _ List.mem_cons_self
        show hp.cancelled = false
        by_contra hc
        rw [h.gone (Bool.not_eq_false _ ▸ hc)] at hrunning
        cases hrunning
      · intro hc
        refine ⟨fun r hr => ?_, hsafe.refused⟩
        rcases List.mem_cons.mp hr with rfl | hr
        · exact h.running htid hc
        · exact hsafe.registered r hr
  | probed | called | once _ | noMemory _ | allocated _ _ | failed | cancelled _ | notified
  | forked => exact iff_of_true ⟨hsafe.registered, hsafe.refused⟩ trivial

end HelperInv

/-! ### Runs of all processes -/

/-- All processes meet `P`. -/
def AllProcesses (P : HelperProcess → Prop) (procs : Nat → Option HelperProcess) : Prop :=
  ∀ p hp, procs p = some hp → P hp

/-- A step is a step of one process, and a `fork` adds its child. -/
theorem stepAll_cases {l : HelperLabel} {procs procs' : Nat → Option HelperProcess}
    (hs : HelperProcess.stepAll l procs = some procs') :
    ∃ hp hp', procs l.process = some hp ∧ hp.step l = some hp' ∧
      (procs' = Function.update procs l.process (some hp') ∨
        ∃ child, procs child = none ∧ procs' =
          Function.update (Function.update procs l.process (some hp')) child (some hp'.fork)) := by
  unfold HelperProcess.stepAll at hs
  split at hs
  · cases hs
  · next hp hproc =>
    split at hs
    · cases hs
    · next hp' hstep =>
      refine ⟨hp, hp', hproc, hstep, ?_⟩
      cases l with
      | fork p t child =>
          simp only at hs
          split at hs
          · next hchild =>
            cases hs
            refine .inr ⟨child, ?_, rfl⟩
            change Function.update procs p (some hp') child = none at hchild
            by_cases hc : child = p
            · rw [hc, Function.update_self] at hchild
              cases hchild
            · rwa [Function.update_of_ne hc] at hchild
          · cases hs
      | call _ _ _ _ | once _ _ _ | check _ _ | alloc _ _ _ | register _ _ _ | signal _ _ =>
          cases hs
          exact .inl rfl

section
variable {P : HelperProcess → Prop} {procs procs' : Nat → Option HelperProcess} {l : HelperLabel}

/-- What all processes meet after a step, when the child of a `fork` meets it. -/
theorem allProcesses_step_iff {hp hp' : HelperProcess} (hproc : procs l.process = some hp)
    (hcases : procs' = Function.update procs l.process (some hp') ∨
      ∃ child, procs child = none ∧ procs' =
        Function.update (Function.update procs l.process (some hp')) child (some hp'.fork))
    (hfork : P hp' → P hp'.fork) :
    AllProcesses P procs' ↔ P hp' ∧ ∀ p hq, p ≠ l.process → procs p = some hq → P hq := by
  rcases hcases with rfl | ⟨child, hchild, rfl⟩
  · constructor
    · intro h
      refine ⟨h l.process hp' (Function.update_self _ _ _), fun p hq hp hq' => h p hq ?_⟩
      rw [Function.update_of_ne hp]
      exact hq'
    · rintro ⟨hP, hother⟩ p hq hp
      by_cases hpl : p = l.process
      · rw [hpl, Function.update_self] at hp
        cases hp
        exact hP
      · rw [Function.update_of_ne hpl] at hp
        exact hother p hq hpl hp
  · have hne : l.process ≠ child := by
      intro heq
      rw [heq, hchild] at hproc
      cases hproc
    constructor
    · intro h
      refine ⟨h l.process hp' ?_, fun p hq hp hq' => h p hq ?_⟩
      · rw [Function.update_of_ne hne, Function.update_self]
      · have hpc : p ≠ child := by
          rintro rfl
          rw [hchild] at hq'
          cases hq'
        rw [Function.update_of_ne hpc, Function.update_of_ne hp]
        exact hq'
    · rintro ⟨hP, hother⟩ p hq hp
      by_cases hpc : p = child
      · rw [hpc, Function.update_self] at hp
        cases hp
        exact hfork hP
      · rw [Function.update_of_ne hpc] at hp
        by_cases hpl : p = l.process
        · rw [hpl, Function.update_self] at hp
          cases hp
          exact hP
        · rw [Function.update_of_ne hpl] at hp
          exact hother p hq hpl hp

end

/-- The child has nothing that could be wrong. -/
theorem HelperSafe.fork (hp : HelperProcess) : HelperSafe hp.fork := ⟨nofun, nofun⟩

/-- Every step keeps the invariant of all processes. -/
theorem stepAll_inv {l : HelperLabel} {procs procs' : Nat → Option HelperProcess}
    (h : AllProcesses HelperInv procs) (hs : HelperProcess.stepAll l procs = some procs') :
    AllProcesses HelperInv procs' := by
  obtain ⟨hp, hp', hproc, hstep, hcases⟩ := stepAll_cases hs
  refine (allProcesses_step_iff hproc hcases HelperInv.fork).mpr ⟨?_, fun p hq _ => h p hq⟩
  exact (h _ hp hproc).step hstep

/-- A step keeps all calls well exactly if it meets the condition. -/
theorem stepAll_exact {l : HelperLabel} {procs procs' : Nat → Option HelperProcess}
    (h : AllProcesses HelperInv procs) (hsafe : AllProcesses HelperSafe procs)
    (hs : HelperProcess.stepAll l procs = some procs') :
    AllProcesses HelperSafe procs' ↔ HelperKept l procs := by
  obtain ⟨hp, hp', hproc, hstep, hcases⟩ := stepAll_cases hs
  have hexact := (h _ hp hproc).step_exact (hsafe _ hp hproc) hstep
  rw [allProcesses_step_iff hproc hcases fun _ => .fork hp']
  constructor
  · rintro ⟨hsafe', -⟩ hq hq'
    cases hproc.symm.trans hq'
    exact hexact.mp hsafe'
  · intro hkept
    exact ⟨hexact.mpr (hkept hp hproc), fun p hq _ => hsafe p hq⟩

/-- A call that went wrong stays on the record. -/
theorem stepAll_back {l : HelperLabel} {procs procs' : Nat → Option HelperProcess}
    (hs : HelperProcess.stepAll l procs = some procs') (h : AllProcesses HelperSafe procs') :
    AllProcesses HelperSafe procs := by
  obtain ⟨hp, hp', hproc, hstep, hcases⟩ := stepAll_cases hs
  obtain ⟨hsafe, hother⟩ := (allProcesses_step_iff hproc hcases fun _ => .fork hp').mp h
  intro p hq hpq
  by_cases hpl : p = l.process
  · subst hpl
    cases hproc.symm.trans hpq
    exact HelperInv.step_back hstep hsafe
  · exact hother p hq hpl hpq

/-- The invariant holds at the start. -/
theorem HelperProcess.Fresh.inv {hp : HelperProcess} (h : hp.Fresh) : HelperInv hp where
  unstarted _ := ⟨h.helperTid, h.helper, h.startFailed, h.cancelled⟩
  atfork honce := absurd (h.helperOnce.symm.trans honce) Bool.false_ne_true
  failed_iff honce := absurd (h.helperOnce.symm.trans honce) Bool.false_ne_true
  running htid := absurd h.helperTid htid
  gone hc := absurd (h.cancelled.symm.trans hc) Bool.false_ne_true
  pc t := by
    rw [h.pc t]
    trivial

/-- No timer is registered at the start. -/
theorem HelperProcess.Fresh.safe {hp : HelperProcess} (h : hp.Fresh) : HelperSafe hp where
  registered r hr := by simp [h.registered] at hr
  refused st hst := by simp [h.refused] at hst

/-- In a run, the calls of all processes find their helper threads exactly if each step meets
the condition. -/
theorem helperSafe_iff {procs₀ procs : Nat → Option HelperProcess} {ls : List HelperLabel}
    (hinit : helperProcesses.init procs₀) (hrun : helperProcesses.run ls procs₀ = some procs) :
    AllProcesses HelperSafe procs ↔ helperProcesses.Via HelperKept ls procs₀ := by
  obtain ⟨p, hp, rfl, hfresh⟩ := hinit
  -- At the start there is one process, and it is fresh.
  have hone : ∀ P : HelperProcess → Prop, P hp →
      AllProcesses P (Function.update (fun _ => none) p (some hp)) := by
    intro P hP q hq hpq
    by_cases hqp : q = p
    · subst hqp
      rw [Function.update_self] at hpq
      cases hpq
      exact hP
    · rw [Function.update_of_ne hqp] at hpq
      cases hpq
  refine System.run_iff_via (I := AllProcesses HelperInv) (fun l s s' => ?_) (fun l s s' => ?_)
    (fun l s s' => ?_) ls (hone _ hfresh.inv) (hone _ hfresh.safe) hrun
  · exact stepAll_inv
  · exact stepAll_exact
  · exact stepAll_back

/-- One process that has made no timer call. -/
def oneHelperProcess : Nat → Option HelperProcess :=
  Function.update (fun _ => none) 0 (some ⟨freshProcess, fun _ => .idle, false, false, [], []⟩)

/-- It is a start of the system. -/
theorem oneHelperProcess_init : helperProcesses.init oneHelperProcess :=
  ⟨0, _, rfl, rfl, rfl, rfl, fun _ => rfl, rfl, rfl, rfl, rfl⟩

/-- The steps of a `timer_create` for a `SIGEV_THREAD` timer by thread 0 of process 0, with the
thread that `pthread_create` would start. -/
def helperCreate (tid : Option Lwpid) (a : Addr) (k : KernelTimerT) : List HelperLabel :=
  [.call 0 0 true ⟨0, some ⟨SIGEV_THREAD, 0, 0, 0, 100, none⟩⟩, .once 0 0 tid, .check 0 0,
    .alloc 0 0 (some (a, ⟨0, 0, 0, 0, {}, none⟩)), .register 0 0 (.ok k)]

/-- A process that starts its helper thread at the first try and creates two timers. -/
theorem helperSafe_iff_two_timers :
    ∃ procs, helperProcesses.run (helperCreate (some 5) 7 0 ++ helperCreate none 9 1)
        oneHelperProcess = some procs ∧
      (AllProcesses HelperSafe procs ↔ helperProcesses.Via HelperKept
        (helperCreate (some 5) 7 0 ++ helperCreate none 9 1) oneHelperProcess) := by
  have hrun : (helperProcesses.run (helperCreate (some 5) 7 0 ++ helperCreate none 9 1)
      oneHelperProcess).isSome = true := by decide +kernel
  obtain ⟨procs, hprocs⟩ := Option.isSome_iff_exists.mp hrun
  exact ⟨procs, hprocs, helperSafe_iff oneHelperProcess_init hprocs⟩

/-- A state of process 0 that a run reaches. -/
theorem exists_of_helper_run (ls : List HelperLabel) (P : HelperProcess → Prop) [DecidablePred P]
    (h : ((helperProcesses.run ls oneHelperProcess).bind (· 0)).any (fun hp => P hp) = true) :
    ∃ procs hp, helperProcesses.Reachable procs ∧ procs 0 = some hp ∧ P hp := by
  obtain ⟨procs, hp, hprocs, hp0, hP⟩ := System.exists_of_run (S := helperProcesses) ls _ (· 0) P h
  exact ⟨procs, hp, .of_run (.init oneHelperProcess_init) ls hprocs, hp0, hP⟩

/-- The `pthread_create` of the first call fails. The second call does not try again, and
fails too. -/
theorem helper_start_not_retried :
    ¬ ∀ procs, helperProcesses.Reachable procs → AllProcesses HelperSafe procs := by
  intro h
  let ls : List HelperLabel := [.call 0 0 true ⟨0, some ⟨SIGEV_THREAD, 0, 0, 0, 100, none⟩⟩,
    .once 0 0 none, .check 0 0, .call 0 0 true ⟨0, some ⟨SIGEV_THREAD, 0, 0, 0, 100, none⟩⟩,
    .once 0 0 (some 5), .check 0 0]
  obtain ⟨procs, hp, hreach, hproc, hrefused⟩ :=
    exists_of_helper_run ls (fun hp => none ∈ hp.refused) (by decide +kernel)
  cases (h procs hreach 0 hp hproc).refused none hrefused

/-- A signal with the code `SI_USER` ends the helper thread. The next kernel timer is
registered for the thread that no longer exists. -/
theorem helper_not_replaced :
    ∃ procs hp, helperProcesses.Reachable procs ∧ procs 0 = some hp ∧
      ⟨5, none⟩ ∈ hp.registered :=
  exists_of_helper_run (helperCreate (some 5) 7 0 ++ [.signal 0 SI_USER] ++
    helperCreate (some 6) 9 1) (fun hp => ⟨5, none⟩ ∈ hp.registered) (by decide +kernel)

end GlibcPorts.Timer
