import GlibcPorts.Timer.Processes

/-!
# `GlibcPorts.Proofs.Timer.Processes`: what holds of every process

A step of `processes` gives one process a new state. `forall_of_reachable` is the induction rule
that follows: what holds of a process before its first call and is kept by every call and by `fork`
holds of every process in every state reached.
-/

set_option autoImplicit false

namespace GlibcPorts.Timer

open GlibcPorts.Lib (System)
open GlibcPorts.Lib.System (ReachableVia)

variable {ok : ProcessLabel → Processes → Prop} {P : Process → Prop}

/-- What every call keeps. -/
structure KeptByCalls (ok : ProcessLabel → Processes → Prop) (P : Process → Prop) : Prop where
  create : ∀ proc env c, P proc → CreateEnv.Possible env proc → P (proc.timerCreate env c).2
  delete : ∀ proc res id r proc', P proc → proc.timerDelete res id = some (r, proc') → P proc'
  ktimerCall : ∀ proc call res id, P proc → P (proc.ktimerCall call res id).2.2
  fork : ∀ procs p child proc, ok (.fork p child) procs → procs p = some proc → P proc →
    P proc.fork

/-- One step keeps what holds of every process. -/
theorem KeptByCalls.step (hkept : KeptByCalls ok P) {l : ProcessLabel} {procs procs' : Processes}
    (h : ∀ p proc, procs p = some proc → P proc) (hok : ok l procs)
    (hs : Processes.step l procs = some procs') (p : Nat) (proc : Process)
    (hp : procs' p = some proc) : P proc := by
  -- A step gives one process a new state.
  have hupdate : ∀ q proc', procs' = Function.update procs q (some proc') → P proc' → P proc := by
    rintro q proc' rfl hnew
    by_cases hq : p = q
    · subst hq
      rw [Function.update_self] at hp
      cases hp
      exact hnew
    · rw [Function.update_of_ne hq] at hp
      exact h p proc hp
  cases l with
  | create q env c =>
      simp only [Processes.step] at hs
      split at hs
      · cases hs
      · next proc₀ hq =>
        split at hs
        · next henv =>
          cases hs
          exact hupdate q _ rfl (hkept.create proc₀ env c (h q proc₀ hq) henv)
        · cases hs
  | delete q res id =>
      simp only [Processes.step] at hs
      split at hs
      · cases hs
      · next proc₀ hq =>
        split at hs
        · obtain ⟨⟨r, proc'⟩, hdelete, rfl⟩ := Option.map_eq_some_iff.mp hs
          exact hupdate q proc' rfl (hkept.delete proc₀ res id r proc' (h q proc₀ hq) hdelete)
        · cases hs
  | ktimerCall q call res id =>
      simp only [Processes.step] at hs
      split at hs
      · cases hs
      · next proc₀ hq =>
        cases hs
        exact hupdate q _ rfl (hkept.ktimerCall proc₀ call res id (h q proc₀ hq))
  | fork q child =>
      simp only [Processes.step] at hs
      split at hs
      · next proc₀ hq _ =>
        cases hs
        exact hupdate child _ rfl (hkept.fork procs q child proc₀ hok hq (h q proc₀ hq))
      · cases hs

/-- What holds of a process before its first call and is kept by every call holds of every process
in every state reached. -/
theorem KeptByCalls.forall_of_reachable (hkept : KeptByCalls ok P)
    (hfresh : ∀ proc, Process.Fresh proc → P proc) {procs : Processes}
    (h : processes.ReachableVia ok procs) : ∀ p proc, procs p = some proc → P proc := by
  refine ReachableVia.invariant (I := fun procs => ∀ p proc, procs p = some proc → P proc) ?_ ?_ h
  · rintro procs ⟨q, proc₀, rfl, hq₀⟩ p proc hp
    by_cases hq : p = q
    · subst hq
      rw [Function.update_self] at hp
      cases hp
      exact hfresh _ hq₀
    · rw [Function.update_of_ne hq] at hp
      cases hp
  · exact fun l procs procs' hinv hok hs => hkept.step hinv hok hs

/-! ### One process -/

/-- The outcomes of a successful `timer_create`, with the block and the kernel timer. -/
def createOk (a : Addr) (k : KernelTimerT) : CreateEnv where
  clockGetres := true
  pthreadCreate := none
  malloc := some (a, ⟨0, 0, 0, 0, {}, none⟩)
  ktimerCreate := .ok k

/-- One process that has made no timer call. -/
def oneProcess : Processes := Function.update (fun _ => none) 0 (some freshProcess)

/-- It is one. -/
theorem freshProcess_fresh : freshProcess.Fresh :=
  ⟨rfl, fun _ => rfl, rfl, rfl, rfl, rfl, rfl⟩

/-- It is a start of the system. -/
theorem oneProcess_initial : processes.init oneProcess :=
  ⟨0, freshProcess, rfl, freshProcess_fresh⟩

end GlibcPorts.Timer
