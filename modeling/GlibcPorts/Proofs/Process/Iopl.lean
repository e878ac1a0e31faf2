import GlibcPorts.Process.Iopl
import Mathlib.Tactic.Common

/-!
# `GlibcPorts.Proofs.Process.Iopl`: access to the I/O ports, once

`iopl_phases`: a process never had access to the I/O ports, or has it since its one successful
`iopl (3)`, or lost it for good with the next `iopl (0)`. From then on `iopl (3)` returns 0 and does
nothing, and `iopl (0)` closes whatever the program has open under the old number.
-/

set_option autoImplicit false

namespace GlibcPorts.Process

open Lib

/-- A call that opened and closed nothing, while `__iopl_fd` was -1. -/
def IoEvent.Idle : IoEvent → Prop
  | .raise ret _ opened => ret = -1 ∧ opened = none
  | .drop ret closed => ret = 0 ∧ closed = none
  | .invalid => True

/-- A call that did nothing, while `__iopl_fd` was not -1. -/
def IoEvent.Empty : IoEvent → Prop
  | .raise ret errno opened => ret = 0 ∧ errno = none ∧ opened = none
  | .drop _ _ => False
  | .invalid => True

/-- A call after the access was lost. -/
def IoEvent.Stale (fd : Nat) : IoEvent → Prop
  | .drop ret closed => (closed = some (fd, none) ∧ ret = 1) ∨ closed = some (fd, some .other)
  | e => e.Empty

/-- The process never had access. -/
structure Never (s : IoState) : Prop where
  ioplFd : s.ioplFd = none
  fds : ∀ n, s.fds n ≠ some .devIo
  log : ∀ e ∈ s.log, e.Idle

/-- The process has access since one of its calls. -/
structure Held (s : IoState) (fd : Nat) : Prop where
  ioplFd : s.ioplFd = some fd
  fds : ∀ n, s.fds n = some .devIo ↔ n = fd
  log : ∃ before after, s.log = before ++ .raise 0 none (some fd) :: after ∧
    (∀ e ∈ before, e.Idle) ∧ ∀ e ∈ after, e.Empty

/-- The process lost its access with the first `iopl (0)` behind that call. -/
structure Lost (s : IoState) (fd : Nat) : Prop where
  ioplFd : s.ioplFd = some fd
  fds : ∀ n, s.fds n ≠ some .devIo
  log : ∃ before between ret after, s.log = before ++ .raise 0 none (some fd) ::
      (between ++ .drop ret (some (fd, some .devIo)) :: after) ∧
    (∀ e ∈ before, e.Idle) ∧ (∀ e ∈ between, e.Empty) ∧ ∀ e ∈ after, e.Stale fd

/-- A process is in one of the three phases. -/
def Phase (s : IoState) : Prop := Never s ∨ ∃ fd, Held s fd ∨ Lost s fd

variable {s s' : IoState} {fd : Nat}

/-! ### The descriptors of the program -/

/-- The program opens or closes a file of its own, and `__iopl_fd` and the calls stay. -/
structure Elsewhere (s s' : IoState) : Prop where
  ioplFd : s'.ioplFd = s.ioplFd
  log : s'.log = s.log
  fds : ∀ n, s'.fds n = some .devIo ↔ s.fds n = some .devIo

/-- What the program does with its own files keeps the phase. -/
theorem Phase.elsewhere (h : Phase s) (hs : Elsewhere s s') : Phase s' := by
  obtain hnever | ⟨fd, hheld | hlost⟩ := h
  · refine .inl ⟨hs.ioplFd.trans hnever.ioplFd, fun n hn => ?_, hs.log ▸ hnever.log⟩
    exact hnever.fds n ((hs.fds n).mp hn)
  · exact .inr ⟨fd, .inl ⟨hs.ioplFd.trans hheld.ioplFd, fun n => (hs.fds n).trans (hheld.fds n),
      hs.log ▸ hheld.log⟩⟩
  · refine .inr ⟨fd, .inr ⟨hs.ioplFd.trans hlost.ioplFd, fun n hn => ?_, hs.log ▸ hlost.log⟩⟩
    exact hlost.fds n ((hs.fds n).mp hn)

/-- A number that is not that of `/dev/io` becomes another file, or nothing. -/
theorem elsewhere_update {file : Option IoFile} (hold : s.fds fd ≠ some .devIo)
    (hnew : file ≠ some .devIo) : Elsewhere s { s with fds := Function.update s.fds fd file } := by
  refine ⟨rfl, rfl, fun n => ?_⟩
  show Function.update s.fds fd file n = some .devIo ↔ _
  by_cases hn : n = fd
  · subst hn
    rw [Function.update_self]
    exact ⟨fun h => absurd h hnew, fun h => absurd h hold⟩
  · rw [Function.update_of_ne hn]

/-! ### Calls -/

/-- A call that did nothing. -/
theorem Phase.record {e : IoEvent} (h : Phase s) (hidle : s.ioplFd = none → e.Idle)
    (hempty : ∀ fd, s.ioplFd = some fd → e.Empty) : Phase (s.record e) := by
  obtain hnever | ⟨fd, hheld | hlost⟩ := h
  · refine .inl ⟨hnever.ioplFd, hnever.fds, ?_⟩
    exact List.forall_mem_append.mpr
      ⟨hnever.log, List.forall_mem_singleton.mpr (hidle hnever.ioplFd)⟩
  · obtain ⟨before, after, hlog, hbefore, hafter⟩ := hheld.log
    refine .inr ⟨fd, .inl ⟨hheld.ioplFd, hheld.fds, before, after ++ [e], ?_, hbefore, ?_⟩⟩
    · show s.log ++ [e] = _
      rw [hlog]
      simp
    · exact List.forall_mem_append.mpr
        ⟨hafter, List.forall_mem_singleton.mpr (hempty fd hheld.ioplFd)⟩
  · obtain ⟨before, between, ret, after, hlog, hbefore, hbetween, hafter⟩ := hlost.log
    have he : e.Empty := hempty fd hlost.ioplFd
    have hstale : e.Stale fd := by
      cases e with
      | raise ret errno opened => exact he
      | drop ret closed => exact he.elim
      | invalid => trivial
    refine .inr ⟨fd, .inr ⟨hlost.ioplFd, hlost.fds, before, between, ret, after ++ [e], ?_, hbefore,
      hbetween, List.forall_mem_append.mpr ⟨hafter, List.forall_mem_singleton.mpr hstale⟩⟩⟩
    show s.log ++ [e] = _
    rw [hlog]
    simp

/-- `iopl (3)` starts the second phase, or keeps what there is. -/
theorem Phase.raise (h : Phase s) {opens : Except Errno Nat} (hs : ioplRaise s opens = some s') :
    Phase s' := by
  cases hfd : s.ioplFd with
  -- The device is open already, and nothing happens.
  | some fd =>
      simp only [ioplRaise, hfd, ne_eq, reduceCtorEq, not_false_eq_true, if_true,
        Option.some.injEq] at hs
      subst hs
      exact h.record (fun hnone => nomatch hfd.symm.trans hnone) fun _ _ => ⟨rfl, rfl, rfl⟩
  | none =>
      simp only [ioplRaise, hfd, ne_eq, not_true_eq_false, if_false] at hs
      cases opens with
      | error e =>
          obtain rfl := Option.some.inj hs
          exact h.record (fun _ => ⟨rfl, rfl⟩) fun fd hsome => nomatch hfd.symm.trans hsome
      | ok fd =>
          by_cases hfree : s.fds fd = none
          · -- The one call that opens the device.
            simp only [hfree, not_true_eq_false, if_false, Option.some.injEq] at hs
            subst hs
            obtain hnever | ⟨n, hheld | hlost⟩ := h
            · refine .inr ⟨fd, .inl ⟨rfl, fun n => ?_, s.log, [], rfl, hnever.log,
                List.forall_mem_nil _⟩⟩
              show Function.update s.fds fd (some .devIo) n = some .devIo ↔ n = fd
              by_cases hn : n = fd
              · subst hn
                simp
              · rw [Function.update_of_ne hn]
                exact ⟨fun hdev => absurd hdev (hnever.fds n), fun h => absurd h hn⟩
            · exact nomatch hfd.symm.trans hheld.ioplFd
            · exact nomatch hfd.symm.trans hlost.ioplFd
          · simp [hfree] at hs

/-- `iopl (0)` ends the second phase. -/
theorem Phase.drop (h : Phase s) (closeFails : Bool) : Phase (ioplDrop s closeFails) := by
  cases hfd : s.ioplFd with
  | none =>
      simp only [ioplDrop, hfd]
      exact h.record (fun _ => ⟨rfl, rfl⟩) fun fd hsome => nomatch hfd.symm.trans hsome
  | some fd =>
      obtain hnever | ⟨n, hheld | hlost⟩ := h
      · exact nomatch hfd.symm.trans hnever.ioplFd
      · -- The first call behind the successful one closes the device.
        obtain rfl := Option.some.inj (hfd.symm.trans hheld.ioplFd)
        have hdev : s.fds fd = some .devIo := (hheld.fds fd).mpr rfl
        obtain ⟨before, after, hlog, hbefore, hafter⟩ := hheld.log
        simp only [ioplDrop, hfd, hdev]
        refine .inr ⟨fd, .inr ⟨hfd, fun n hn => ?_, before, after, if closeFails then 1 else 0, [],
          ?_, hbefore, hafter, List.forall_mem_nil _⟩⟩
        · have hupdate : Function.update s.fds fd none n = some .devIo := hn
          by_cases hself : n = fd
          · subst hself
            rw [Function.update_self] at hupdate
            exact nomatch hupdate
          · rw [Function.update_of_ne hself] at hupdate
            exact hself ((hheld.fds n).mp hupdate)
        · show s.log ++ [_] = _
          rw [hlog]
          simp
      · obtain rfl := Option.some.inj (hfd.symm.trans hlost.ioplFd)
        obtain ⟨before, between, ret, after, hlog, hbefore, hbetween, hafter⟩ := hlost.log
        -- Every later call closes the number again, whatever it is by now.
        have hlast : ∀ {e : IoEvent} {fds : Nat → Option IoFile}, e.Stale fd →
            (∀ n, fds n ≠ some .devIo) → Phase { (s.record e) with fds := fds } := by
          intro e fds he hfds
          refine .inr ⟨fd, .inr ⟨hfd, hfds, before, between, ret, after ++ [e], ?_, hbefore,
            hbetween, List.forall_mem_append.mpr ⟨hafter, List.forall_mem_singleton.mpr he⟩⟩⟩
          show s.log ++ [e] = _
          rw [hlog]
          simp
        cases hfile : s.fds fd with
        | none =>
            simp only [ioplDrop, hfd, hfile]
            exact hlast (.inl ⟨rfl, rfl⟩) hlost.fds
        | some file =>
            have hother : file = .other := by
              cases file with
              | other => rfl
              | devIo => exact absurd hfile (hlost.fds fd)
            subst hother
            simp only [ioplDrop, hfd, hfile]
            refine hlast (.inr rfl) fun n hn => ?_
            by_cases hself : n = fd
            · subst hself
              rw [Function.update_self] at hn
              exact nomatch hn
            · rw [Function.update_of_ne hself] at hn
              exact hlost.fds n hn

/-- Each step leads to a phase. -/
theorem Phase.step (h : Phase s) {l : IoStep} (hs : ioStep l s = some s') : Phase s' := by
  cases l with
  | iopl level opens closeFails =>
      by_cases hraise : level = 3
      · rw [ioStep, if_pos hraise] at hs
        exact h.raise hs
      -- Any other level is refused.
      by_cases hdrop : level = 0
      · rw [ioStep, if_neg hraise, if_pos hdrop] at hs
        obtain rfl := Option.some.inj hs
        exact h.drop closeFails
      · rw [ioStep, if_neg hraise, if_neg hdrop] at hs
        obtain rfl := Option.some.inj hs
        exact h.record (fun _ => trivial) fun _ _ => trivial
  | openFile fd =>
      by_cases hfree : s.fds fd = none
      · rw [ioStep, if_pos hfree] at hs
        obtain rfl := Option.some.inj hs
        exact h.elsewhere (elsewhere_update (by simp [hfree]) (by simp))
      · rw [ioStep, if_neg hfree] at hs
        exact nomatch hs
  | closeFile fd =>
      by_cases hown : s.fds fd = some .other
      · rw [ioStep, if_pos hown] at hs
        obtain rfl := Option.some.inj hs
        exact h.elsewhere (elsewhere_update (by simp [hown]) (by simp))
      · rw [ioStep, if_neg hown] at hs
        exact nomatch hs

/-- In every run a process never had access to the I/O ports, or has it since its one successful
`iopl (3)`, or lost it for good with the first `iopl (0)` behind that. -/
theorem iopl_phases (h : ioSystem.Reachable s) : Never s ∨ ∃ fd, Held s fd ∨ Lost s fd := by
  refine h.invariant (I := Phase) (fun s hs => ?_) fun _ _ _ hphase _ hs => hphase.step hs
  obtain ⟨hfds, hnone, hlog⟩ := hs
  exact .inl ⟨hnone, hfds, hlog ▸ List.forall_mem_nil _⟩

/-- A process that raises its level, drops it, opens a file, and does both again. -/
def twice : List IoStep :=
  [.iopl 3 (.ok 4) false, .iopl 0 (.ok 0) false, .openFile 4, .iopl 3 (.ok 0) false,
    .iopl 0 (.ok 0) false]

/-- The second `iopl (0)` closes the file of the program. -/
theorem iopl_phases_twice : ∃ s, ioSystem.run twice ⟨fun _ => none, none, []⟩ = some s ∧
    s.log = [.raise 0 none (some 4), .drop 0 (some (4, some .devIo)), .raise 0 none none,
      .drop 0 (some (4, some .other))] ∧
    (Never s ∨ ∃ fd, Held s fd ∨ Lost s fd) := by
  have hstart : ioSystem.init ⟨fun _ => none, none, []⟩ :=
    ⟨fun _ h => (nomatch (show none = some IoFile.devIo from h)), rfl, rfl⟩
  have hreach : ∀ s, ioSystem.run twice ⟨fun _ => none, none, []⟩ = some s →
      ioSystem.Reachable s := fun s hrun => .of_run (.init hstart) twice hrun
  exact ⟨_, rfl, rfl, iopl_phases (hreach _ rfl)⟩

end GlibcPorts.Process
