import GlibcPorts.Proofs.Timer.Attribution
import GlibcPorts.Proofs.Timer.TableAndList

/-!
# `GlibcPorts.Proofs.Timer.Notifications`: the threads started for notifications

`notifications_attributed`: in a run without reuse (`NoReuse`), every thread that the helper
starts has the function and the value of the timer that generated the notification, and a
notification starts one thread at most.

The helper looks up the address of a notification only after it took the notification from
the queue, and before it has the lock. In between, the timer can be deleted and its memory
can come back from `malloc` for another timer, which is then pushed at the same address.
Then the lookup succeeds and the helper starts the other timer's function
(`notifications_misattributed`), although the comment at the lookup says that it checks that
the timer "is still used". `NoReuse` says that no push happens at such a moment.
-/

set_option autoImplicit false

namespace GlibcPorts.Timer

open GlibcPorts.Lib (System)
open GlibcPorts.Lib.System (ReachableVia)

/-- The address that is on the active list once the step from this place is taken. -/
def Pc.pushes : Pc → Option Addr
  | .pushUnlock a => some a
  | _ => none

/-- The notification that the helper thread has dequeued and not yet locked the list for. -/
def Pc.dequeued : Pc → Option Note
  | .helperLock note => some note
  | _ => none

/-- The step is not the end of a push at an address that the helper thread has dequeued in a
notification of another timer, and is about to look up. -/
def NoReuse : Label → State → Prop
  | .go act, s => ∀ a ∈ (s.pc act).pushes, ∀ note ∈ (s.pc .helper).dequeued,
      note.ptr = a → s.timerAt a = note.inst
  | _, _ => True

instance : ∀ l s, Decidable (NoReuse l s)
  | .go act, s => inferInstanceAs (Decidable (∀ a ∈ (s.pc act).pushes,
      ∀ note ∈ (s.pc .helper).dequeued, note.ptr = a → s.timerAt a = note.inst))
  | .callCreate _ _, _ | .callDelete _ _, _ | .callLookup _ _, _ | .helper _ _, _
  | .malloc _ _, _ | .ktimerCreate _ _, _ | .ktimerDelete _ _, _ | .dequeue _ _, _
  | .start _ _, _ | .expire _, _ | .send _, _ => .isTrue trivial

/-- Every thread that was started has the function and the value of the timer that generated
the notification, and no notification started two threads. -/
structure NotificationsAttributed (s : State) : Prop where
  params : ∀ st ∈ s.started, st.thrfunc = st.note.inst.thrfunc ∧ st.sival = st.note.inst.sival
  once : (s.started.map fun st => st.note.seq).Nodup

/-- A step of the actor that keeps the attribution, to a place whose assertion holds. -/
def AttrMoves (act : Actor) (s s' : State) : Prop :=
  ∃ s₁ p, s' = s₁.goto act p ∧ AttrKeeps act s s₁ ∧ s₁.pc = s.pc ∧ AttrOk s₁ act p

section
variable {s s' s₁ : State} {act : Actor} {p : Pc}

/-- A move that changes nothing the invariant is about. -/
theorem AttrMoves.of_same (hA : AttrInv s) (h : SameAttr s s₁) (hpc : s₁.pc = s.pc)
    (hp : AttrOk s act p) : AttrMoves act s (s₁.goto act p) :=
  ⟨s₁, p, rfl, h.keeps hA act, hpc, h.attrOk hp⟩

/-- The table, the list's head and lock, the availability of the system calls and the places of
the actors are no part of the attribution. -/
theorem SameAttr.of_parts (s : State) (n : Int) (t : AllTimers) (head : Option Addr)
    (lock : Option Actor) (pc : Actor → Pc) :
    SameAttr s { s with
      noPosixTimers := n
      allTimers := t
      activeTimerSigevThread := head
      lock := lock
      pc := pc } :=
  ⟨rfl, rfl, rfl, rfl, rfl, rfl, fun _ => ⟨rfl, rfl, rfl⟩, fun _ h => h⟩

/-- Nothing changed. -/
theorem SameAttr.refl (s : State) : SameAttr s s := .of_parts s _ _ _ _ _

/-- A move that only goes on. -/
theorem AttrMoves.goto (hA : AttrInv s) (hp : AttrOk s act p) : AttrMoves act s (s.goto act p) :=
  .of_same hA (.refl s) rfl hp

/-- A move that keeps what the others rely on. -/
theorem AttrMoves.of_keeps (h : AttrKeeps act s s₁) (hpc : s₁.pc = s.pc) (hp : AttrOk s₁ act p) :
    AttrMoves act s (s₁.goto act p) :=
  ⟨s₁, p, rfl, h, hpc, hp⟩

/-- The owner of a struct changes, but the struct is not given back. -/
theorem SameAttr.setOwner {a : Addr} {o : Owner} (ho : o ≠ .free) :
    SameAttr s (s.setOwner a o) := by
  refine ⟨rfl, rfl, rfl, rfl, rfl, rfl, fun _ => ⟨rfl, rfl, rfl⟩, fun b hb => ?_⟩
  show Function.update s.owner a o b ≠ .free
  rw [Function.update_apply]
  split
  · exact ho
  · exact hb

/-- The `next` field is not a parameter of the thread. -/
theorem SameAttr.storeNext {a : Addr} {q : Option Addr} : SameAttr s (s.storeNext a q) := by
  refine ⟨rfl, rfl, rfl, rfl, rfl, rfl, fun b => ?_, fun _ h => h⟩
  by_cases hb : b = a
  · subst hb
    simp [State.storeNext, State.store]
  · simp [State.storeNext, State.store, hb]

/-- A store to a struct changes nothing elsewhere. -/
theorem AwayFrom.store {a : Addr} {timer : StructTimer} {n : Int} :
    AwayFrom a s ({ s with noPosixTimers := n }.store a timer) where
  ktimers := rfl
  queue := rfl
  history := rfl
  started := rfl
  seq := rfl
  timerAt _ _ := rfl
  heap _ hb := Function.update_of_ne hb _ _
  owner _ _ h := h

/-- The compare-and-exchange on slot `i`, and the end of a scan of a full table. -/
theorem go_scan_attr {c : CreateArgs} {timer : Option Addr} {i : Nat}
    (h : go act s (.scan c timer i) = some s') (hA : AttrInv s)
    (ha : AttrOk s act (.scan c timer i)) : AttrMoves act s s' := by
  simp only [go] at h
  split at h
  · split at h
    · cases h
      refine .of_same hA (.of_parts s _ _ _ _ _) rfl ?_
      cases timer with
      | none => trivial
      | some newp =>
          obtain ⟨hcall, hno⟩ := ha newp rfl
          show AttrOk s act (if wantsThread c.evp then .fill c newp else .ktimerCreate c newp)
          split
          · exact ⟨hcall, hno⟩
          · next hc => exact ⟨hcall, hno, fun h => absurd h hc⟩
    · cases h
      exact .goto hA ha
  · cases timer with
    | none =>
        cases h
        exact .goto hA trivial
    | some a =>
        cases h
        exact .of_same hA (.setOwner (by simp)) rfl trivial

/-- The stores of the thread parameters: they are those of the call. -/
theorem go_fill_attr {c : CreateArgs} {a : Addr} (h : go act s (.fill c a) = some s')
    (hA : AttrInv s) (hp : PcOk s act (.fill c a)) (ha : AttrOk s act (.fill c a)) :
    AttrMoves act s s' := by
  obtain ⟨⟨ho, -⟩, hl⟩ := hp
  obtain ⟨⟨n, hn⟩, hno⟩ := ha
  cases h
  refine .of_keeps (.away hA .store hl hno (eq_of_held ho)) rfl ⟨⟨n, hn⟩, hno, fun hc => ?_⟩
  -- What was stored is what the event of the call says, and the timer at `a` is the call's.
  show (Function.update s.heap a _ a).thrfunc = (s.timerAt a).thrfunc ∧
    (Function.update s.heap a _ a).sival = (s.timerAt a).sival
  rw [Function.update_self, hn]
  cases hevp : c.evp with
  | none => simp [hevp, wantsThread] at hc
  | some ev => simp [StructTimer.withThreadParams, CreateArgs.inst, hevp]

/-- A step that nothing but the state decides. The hypothesis is about the end of a push. -/
theorem go_attr (h : go act s p = some s') (hI : Inv s) (hA : AttrInv s) (hp : PcOk s act p)
    (ha : AttrOk s act p)
    (hok : ∀ a, p = .pushUnlock a → ∀ i, i ≠ act → ∀ note, Carries (s.pc i) note →
      note.ptr = a → s.timerAt a = note.inst) : AttrMoves act s s' := by
  have hposix : SameAttr s { s with noPosixTimers := 1 } := .of_parts s _ _ _ _ _
  have hlock : ∀ o, SameAttr s { s with lock := o } := fun _ => .of_parts s _ _ _ _ _
  have hhead : ∀ o, SameAttr s { s with activeTimerSigevThread := o } :=
    fun _ => .of_parts s _ _ _ _ _
  cases p with
  | createStart c =>
      simp only [go, if_pos hI.posix] at h
      cases h
      split
      · exact .goto hA trivial
      · exact .goto hA trivial
  | createProbe c =>
      simp only [go] at h
      split at h
      · cases h
        exact .of_same hA hposix rfl trivial
      · split at h
        · cases h
          exact .goto hA trivial
        · cases h
  | scan c timer i => exact go_scan_attr h hA ha
  | fill c a => exact go_fill_attr h hA hp ha
  | created c a k =>
      obtain ⟨⟨ho, -⟩, hl, -⟩ := hp
      cases h
      exact .of_keeps (.away hA .store hl ha (eq_of_held ho)) rfl trivial
  | pushLock a =>
      simp only [go] at h
      split at h
      · cases h
        exact .of_same hA (hlock _) rfl ha
      · cases h
  | pushNext a =>
      cases h
      exact .of_same hA .storeNext rfl ha
  | pushHead a =>
      cases h
      exact .of_same hA (hhead _) rfl ha
  | pushUnlock a =>
      cases h
      exact .of_keeps (.push hA ha (hok a rfl)) rfl trivial
  | ptr2id use a i =>
      simp only [go] at h
      split at h
      · split at h
        · cases h
          cases use with
          | create => exact .goto hA trivial
          | free => exact .goto hA ha
        · cases h
          cases use with
          | create => exact .goto hA trivial
          | free => exact .goto hA ha
      · cases h
        cases use with
        | create => exact .goto hA trivial
        | free => exact .goto hA ha
  | ptr2idDone use a id =>
      cases use with
      | create =>
          cases h
          exact .of_same hA (.setOwner (by simp)) rfl trivial
      | free =>
          obtain ⟨-, hid, -⟩ := hp
          simp only [go, if_pos (id2ptr_range hid).1] at h
          cases h
          exact .of_same hA (.of_parts s _ _ _ _ _) rfl ha
  | free a =>
      obtain ⟨ho, -, hl⟩ := hp
      cases h
      refine .of_keeps (.away hA ?_ hl ha (eq_of_held ho)) rfl trivial
      refine ⟨rfl, rfl, rfl, rfl, rfl, fun _ _ => rfl, fun _ _ => rfl, fun b hb hfree => ?_⟩
      show Function.update s.owner a .free b ≠ .free
      rw [Function.update_of_ne hb]
      exact hfree
  | deleteLookup id a =>
      obtain ⟨-, hid, -⟩ := hp
      simp only [go, hid] at h
      cases h
      exact .goto hA trivial
  | deleted kt =>
      cases h
      split
      · exact .goto hA ha
      · exact .goto hA ha
  | unlinkLock kt =>
      simp only [go] at h
      split at h
      · cases h
        exact .of_same hA (hlock _) rfl ha
      · cases h
  | unlinkHead kt =>
      simp only [go] at h
      split at h
      · cases h
        exact .of_same hA (hhead _) rfl ha
      · cases h
        exact .goto hA ha
  | unlinkWalk kt prevp =>
      obtain ⟨-, -, -, b, -, rfl, -⟩ := hp
      simp only [go] at h
      split at h
      · cases h
        exact .goto hA ha
      · split at h
        · cases h
          exact .of_same hA .storeNext rfl ha
        · cases h
          exact .goto hA ha
  | unlinkUnlock kt =>
      cases h
      exact .of_keeps (.unlink hA) rfl ha
  | unlinked kt =>
      cases h
      exact .of_same hA hposix rfl ha
  | lookup id =>
      simp only [go] at h
      split at h
      · cases h
        exact .goto hA trivial
      · cases h
        exact .goto hA trivial
  | lookupDone kt =>
      cases h
      exact .of_same hA hposix rfl trivial
  | helperLock note =>
      simp only [go] at h
      split at h
      · cases h
        exact .of_same hA (hlock _) rfl ha
      · cases h
  | helperSearch note runp =>
      cases runp with
      | none =>
          cases h
          exact .goto hA ha.1
      | some r =>
          simp only [go] at h
          split at h
          · cases h
            exact .goto hA ha
          · cases h
            exact .goto hA ha
  | helperUnlock =>
      cases h
      exact .of_same hA (hlock _) rfl ha
  | idle | createHelper c | malloc c | ktimerCreate c a | ktimerDelete id kt | sigtimedwait
  | helperFound note | helperStart note f v | helperExited => cases h

/-- `malloc` returns. A block that was free is in no kernel timer. -/
theorem step_malloc_attr {block : Option (Addr × StructTimer)}
    (h : step (.malloc act block) s = some s') (hI : Inv s) (hA : AttrInv s) :
    AttrMoves act s s' := by
  simp only [step] at h
  split at h
  · next c _ =>
    cases block with
    | none =>
        cases h
        exact .goto hA fun _ hnone => by cases hnone
    | some b =>
        obtain ⟨a, bytes⟩ := b
        simp only at h
        split at h
        · next hfree =>
          cases h
          -- A kernel timer that carries the address would keep the struct allocated.
          have hl : ¬ Listed s a := fun hm => (hI.listed a hm).1 hfree
          have hno : NoKernel s a := by
            rintro k kt hk hto rfl
            exact (hA.kernel k kt hk hto).1 hfree
          refine .of_keeps (.away hA ?_ hl hno ?_) rfl fun b hb => ?_
          · refine ⟨rfl, rfl, rfl, rfl, rfl, fun b hb => Function.update_of_ne hb _ _,
              fun b hb => Function.update_of_ne hb _ _, fun b hb ho => ?_⟩
            show Function.update s.owner a (.held act) b ≠ .free
            rw [Function.update_of_ne hb]
            exact ho
          · intro i hi
            rw [hfree] at hi
            cases hi
          · cases hb
            exact ⟨⟨s.serial, Function.update_self _ _ _⟩, hno⟩
        · cases h
  · cases h

/-- `ktimer_create` returns. The new kernel timer stands for the timer of the call. -/
theorem step_ktimerCreate_attr {res : Except Errno KernelTimerT}
    (h : step (.ktimerCreate act res) s = some s') (hA : AttrInv s)
    (hp : PcOk s act (s.pc act)) (ha : AttrOk s act (s.pc act)) : AttrMoves act s s' := by
  simp only [step] at h
  split at h
  · next c a hpc =>
    rw [hpc] at hp ha
    obtain ⟨⟨ho, -⟩, hl, -⟩ := hp
    obtain ⟨-, hno, hparams⟩ := ha
    cases res with
    | ok k =>
        simp only at h
        split at h
        · next hk =>
          split at h
          · next hc =>
            cases h
            -- First the id is stored, then the kernel timer exists.
            let s₁ : State := s.store a { s.heap a with ktimerid := k }
            have k₁ : AttrKeeps act s s₁ := .away hA .store hl hno (eq_of_held ho)
            have hptr : (s.newKTimer c a).event.sigevValue = a := by
              simp [State.newKTimer, createEvent, hc, threadSigevent]
            have k₂ : AttrKeeps act s₁
                { s₁ with ktimers := Function.update s₁.ktimers k (s.newKTimer c a) } := by
              refine .addKernel k₁.inv hk fun _ => ?_
              rw [hptr]
              exact ⟨ho, rfl, by simp [s₁, State.store]⟩
            refine .of_keeps (k₁.trans k₂ rfl rfl) rfl ?_
            show (Function.update s.heap a _ a).thrfunc = _ ∧
              (Function.update s.heap a _ a).sival = _
            rw [Function.update_self]
            exact hparams hc
          · next hc =>
            cases h
            -- A kernel timer that is not for the helper carries no address that it looks up.
            refine .of_keeps (.addKernel hA hk fun hto => absurd hto hc) rfl fun j kt hj hto => ?_
            change Function.update s.ktimers k (some (s.newKTimer c a)) j = some kt at hj
            by_cases hjk : j = k
            · subst hjk
              rw [Function.update_self] at hj
              cases hj
              exact absurd hto hc
            · rw [Function.update_of_ne hjk] at hj
              exact hno j kt hj hto
        · cases h
    | error e =>
        simp only at h
        split at h
        · cases h
        · split at h
          · cases h
            exact .goto hA hno
          · cases h
            exact .of_same hA (.of_parts s _ _ _ _ _) rfl hno
  · cases h

/-- `ktimer_delete` returns. After a success no kernel timer carries the address. -/
theorem step_ktimerDelete_attr {res : Except Errno Unit}
    (h : step (.ktimerDelete act res) s = some s') (hA : AttrInv s) : AttrMoves act s s' := by
  simp only [step] at h
  split at h
  · next id kt hpc =>
    cases res with
    | ok u =>
        simp only at h
        split at h
        · cases h
        · cases h
          refine .of_keeps (.removeKernel hA (s.heap kt).ktimerid List.filter_sublist
            fun j note hm => ?_) rfl ?_
          · simpa using (List.mem_filter.mp hm).2
          · intro j kt' hj hto heq
            change Function.update s.ktimers (s.heap kt).ktimerid none j = some kt' at hj
            by_cases hjk : j = (s.heap kt).ktimerid
            · rw [hjk, Function.update_self] at hj
              cases hj
            · rw [Function.update_of_ne hjk] at hj
              -- A kernel timer that carries the address has the id that was deleted.
              obtain ⟨-, -, hid⟩ := hA.kernel j kt' hj hto
              rw [heq] at hid
              exact hjk hid.symm
    | error e =>
        simp only at h
        split at h
        · cases h
        · cases h
          have h₁ : SameAttr s ({ s with noPosixTimers := 1 }.setOwner kt (.live id)) := by
            have h₂ : SameAttr s (s.setOwner kt (.live id)) := .setOwner (by simp)
            exact ⟨rfl, rfl, rfl, rfl, rfl, rfl, h₂.heap, h₂.owner⟩
          exact .of_same hA h₁ rfl trivial
  · cases h

end

/-- A step of an actor, in a run without reuse. -/
theorem step_attr {l : Label} {s s' : State} {act : Actor} (h : step l s = some s')
    (hact : l.actor = some act) (hok : NoReuse l s) (hI : Inv s) (hA : AttrInv s)
    (hp : ∀ i, PcOk s i (s.pc i)) (ha : ∀ i, AttrOk s i (s.pc i)) : AttrMoves act s s' := by
  cases l with
  | callCreate t c =>
      cases hact
      simp only [step] at h
      split at h
      · cases h
        exact .goto hA trivial
      · cases h
  | callDelete t a =>
      cases hact
      simp only [step] at h
      split at h
      · cases h
        exact .of_same hA (.setOwner (by simp)) rfl trivial
      · cases h
  | callLookup t id =>
      cases hact
      simp only [step] at h
      split at h
      · cases h
        exact .goto hA trivial
      · cases h
  | helper act' ok =>
      cases hact
      simp only [step] at h
      split at h
      · cases h
        refine .goto hA ?_
        split <;> trivial
      · cases h
  | malloc act' block =>
      cases hact
      exact step_malloc_attr h hI hA
  | ktimerCreate act' res =>
      cases hact
      exact step_ktimerCreate_attr h hA (hp act) (ha act)
  | ktimerDelete act' res =>
      cases hact
      exact step_ktimerDelete_attr h hA
  | dequeue act' n =>
      cases hact
      have ha := ha act
      have hk : AttrKeeps act s { s with queue := s.queue.eraseIdx n } :=
        .dequeue hA (List.eraseIdx_sublist s.queue n)
      simp only [step] at h
      split at h
      · next hpc =>
        rw [hpc] at ha
        split at h
        · cases h
        · next k note hn =>
          cases h
          refine .of_keeps hk rfl ⟨ha, hA.fresh_of_dequeue hn, fun _ => ?_⟩
          -- The notification was queued, so its kernel timer still exists.
          obtain ⟨kt, hkt, hto, hptr, hinst⟩ := hA.queue k note (List.mem_of_getElem? hn)
          obtain ⟨-, ht, -⟩ := hA.kernel k kt hkt hto
          show s.timerAt note.ptr = note.inst
          rw [hptr, ht, hinst]
        · cases h
          refine .of_keeps hk rfl ?_
          split
          · exact ha
          · exact ha
      · cases h
  | start act' ok =>
      cases hact
      have hp := hp act
      have ha := ha act
      simp only [step] at h
      split at h
      · next note hpc =>
        rw [hpc] at hp ha
        cases h
        refine .goto hA ?_
        split
        · -- The address is on the list, so the struct there is the right timer's.
          obtain ⟨hf, hv⟩ := hA.params note.ptr hp.2
          have hinst : s.timerAt note.ptr = note.inst := ha.2.2 hp.2
          refine ⟨ha.1, ha.2.1, ?_, ?_⟩
          · rw [hf, hinst]
          · rw [hv, hinst]
        · exact ha.1
      · next note f v hpc =>
        rw [hpc] at ha
        obtain ⟨hact, hn, hf, hv⟩ := ha
        cases ok with
        | false =>
            cases h
            exact .goto hA hact
        | true =>
            cases h
            subst hact
            exact .of_keeps (.addStarted hA hn hf hv) rfl rfl
      · cases h
  | go act' =>
      cases hact
      refine go_attr h hI hA (hp act) (ha act) ?_
      rintro a hpc i hi note hc hptr
      -- Only the end of a push asks for `NoReuse`, and there the actor has the lock.
      have hlock : s.lock = some act := by
        have hp := hp act
        rw [hpc] at hp
        exact hp.2.2.2.1
      have hp := hp i
      have ha := ha i
      rcases hc with hc | ⟨runp, hc⟩ | hc
      · rw [hc] at ha
        obtain ⟨rfl, -⟩ := ha
        exact hok a (by rw [hpc]; rfl) note (by rw [hc]; rfl) hptr
      -- At the other two places the helper has the lock.
      · rw [hc] at hp
        exact absurd (Option.some.inj (hp.1.1.symm.trans hlock)) hi
      · rw [hc] at hp
        exact absurd (Option.some.inj (hp.1.1.symm.trans hlock)) hi
  | expire k => cases hact
  | send siCode => cases hact

/-- The kernel queues notifications of existing kernel timers only. -/
theorem step_kernel_attr {l : Label} {s s' : State} (h : step l s = some s')
    (hact : l.actor = none) (hA : AttrInv s) : (∀ act, AttrKeeps act s s') ∧ s'.pc = s.pc := by
  cases l with
  | expire k =>
      simp only [step] at h
      split at h
      · cases h
      · next kt hkt =>
        split at h
        · next hto =>
          cases h
          exact ⟨fun act => .expire hA hkt hto, rfl⟩
        · cases h
  | send siCode =>
      simp only [step] at h
      split at h
      · cases h
      · cases h
        exact ⟨fun act => .send hA siCode, rfl⟩
  | callCreate t c | callDelete t a | callLookup t id | helper act ok | malloc act block
  | ktimerCreate act res | ktimerDelete act res | dequeue act n | start act ok | go act =>
      cases hact

/-- The invariant holds at the start. -/
theorem attrInv_of_initial {s : State} (h : Initial s) : AttrInv s where
  kernel k kt hk := by simp [h.ktimers k] at hk
  queue k note hm := by simp [h.queue] at hm
  params a ha := by simp [Listed, h.history, activeList] at ha
  started st hst := by simp [h.started] at hst
  nodup := by simp [noteSeqs, h.started, h.queue]
  lt n hn := by simp [noteSeqs, h.started, h.queue] at hn

/-- So does what each actor relies on. -/
theorem attrOk_of_initial {s : State} (h : Initial s) (act : Actor) : AttrOk s act (s.pc act) := by
  cases act with
  | thread t =>
      rw [h.thread t]
      trivial
  | helper =>
      rw [h.helper]
      rfl

/-- The attribution in every state that a run without reuse reaches. -/
theorem reachable_attr {s : State} (h : machine.ReachableVia NoReuse s) :
    AttrInv s ∧ ∀ act, AttrOk s act (s.pc act) := by
  induction h with
  | init h => exact ⟨attrInv_of_initial h, attrOk_of_initial h⟩
  | step l hreach hok hs ih =>
      rename_i s s'
      obtain ⟨hI, hp⟩ := reachable_inv hreach
      obtain ⟨hA, ha⟩ := ih
      cases hact : l.actor with
      | some act =>
          obtain ⟨s₁, p, rfl, hk, hpc, hown⟩ := step_attr hs hact hok hI hA hp ha
          refine ⟨((SameAttr.of_parts s₁ _ _ _ _ _).keeps hk.inv act).inv, fun i => ?_⟩
          -- The actor that moved is at `p`; the others are where they were.
          rw [attrOk_goto]
          show AttrOk s₁ i (Function.update s₁.pc act p i)
          by_cases hi : i = act
          · subst hi
            rw [Function.update_self]
            exact hown
          · rw [Function.update_of_ne hi, hpc]
            exact .frame (hk.frame i hi) (hp i) (ha i)
      | none =>
          obtain ⟨hk, hpc⟩ := step_kernel_attr hs hact hA
          refine ⟨(hk .helper).inv, fun i => ?_⟩
          rw [hpc]
          obtain ⟨act, hne⟩ := i.exists_ne
          exact .frame ((hk act).frame i hne) (hp i) (ha i)

/-- In a run without reuse, the notifications are attributed to the right timers. -/
theorem notifications_attributed {s : State} (h : machine.ReachableVia NoReuse s) :
    NotificationsAttributed s := by
  obtain ⟨hA, -⟩ := reachable_attr h
  constructor
  case params => exact hA.started
  -- The numbers of the served notifications come first in `noteSeqs`.
  case once => exact (List.nodup_append.mp hA.nodup).1

/-- The helper thread serves the notification at the head of the queue. -/
def serve : List Label :=
  [.go .helper, .go .helper, .start .helper true, .start .helper true, .go .helper]

/-- The steps of a `timer_delete` of the newest timer, by thread 0, when it is at `a` and has
the first slot. -/
def deleteNewest (a : Addr) : List Label :=
  [.callDelete 0 a, .go (.thread 0), .ktimerDelete (.thread 0) (.ok ())] ++
    List.replicate 8 (.go (.thread 0))

/-- A timer with the function 100 and the value 5 expires once, and its function is run. -/
theorem notifications_attributed_one_timer :
    ∃ s, machine.ReachableVia NoReuse s ∧ s.started = [⟨⟨0, 7, ⟨0, 100, 5⟩⟩, 100, 5⟩] ∧
      NotificationsAttributed s := by
  let ls := createThread 100 5 7 3 ++ [.expire 3, .dequeue .helper 0] ++ serve
  have hvia : machine.Via NoReuse ls emptyProcess := by decide
  obtain ⟨s, hrun, hs⟩ : ∃ s, machine.run ls emptyProcess = some s ∧
      s.started = [⟨⟨0, 7, ⟨0, 100, 5⟩⟩, 100, 5⟩] := by
    refine exists_of_run ls (fun s => s.started = _) ?_
    decide
  have hreach : machine.ReachableVia NoReuse s :=
    .of_runVia (.init emptyProcess_initial) ls hvia hrun
  exact ⟨s, hreach, hs, notifications_attributed hreach⟩

/-- Without the condition a notification can start another timer's function: the timer at 7
expires and the helper dequeues the notification; the timer is deleted, and its memory is used
again for a timer with the function 200; the helper then finds the address on the list. -/
theorem notifications_misattributed :
    ¬ ∀ s, machine.Reachable s → NotificationsAttributed s := by
  intro h
  let ls := createThread 100 5 7 3 ++ [.expire 3, .dequeue .helper 0] ++ deleteNewest 7 ++
    createThread 200 6 7 3 ++ serve
  obtain ⟨s, hrun, hs⟩ : ∃ s, machine.run ls emptyProcess = some s ∧
      s.started = [⟨⟨0, 7, ⟨0, 100, 5⟩⟩, 200, 6⟩] := by
    refine exists_of_run ls (fun s => s.started = _) ?_
    decide
  have hp := (h s (.of_run (.init emptyProcess_initial) ls hrun)).params
  rw [hs] at hp
  exact absurd (hp _ List.mem_cons_self).1 (by decide)

end GlibcPorts.Timer
