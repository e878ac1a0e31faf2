import GlibcPorts.Proofs.Timer.Updates

/-!
# `GlibcPorts.Proofs.Timer.Steps`: every step keeps the invariant

`go_moves` and `step_moves` go through the places of the code: a step of an actor from a
place whose assertion holds is an update that `Keeps` allows, and it ends at a place whose
assertion holds (`Moves`). `reachable_inv` is the invariant over whole runs, by the rule for
threads.
-/

set_option autoImplicit false

namespace GlibcPorts.Timer

open GlibcPorts.Lib (Linked System)
open GlibcPorts.Lib.System (ReachableVia)

/-- A step of the actor: an update that `Keeps` allows, to a place whose assertion holds. -/
def Moves (act : Actor) (s s' : State) : Prop :=
  ∃ s₁ p, s' = s₁.goto act p ∧ Keeps act s s₁ ∧ s₁.pc = s.pc ∧ PcOk s₁ act p

section
variable {s s' s₁ : State} {act : Actor} {p : Pc}

/-- A step that only goes to another place. -/
theorem Moves.goto (hI : Inv s) (hp : PcOk s act p) : Moves act s (s.goto act p) :=
  ⟨s, p, rfl, .of_eq hI hI.posix rfl rfl rfl rfl rfl rfl rfl, rfl, hp⟩

theorem Moves.of_keeps (h : Keeps act s s₁) (hpc : s₁.pc = s.pc) (hp : PcOk s₁ act p) :
    Moves act s (s₁.goto act p) :=
  ⟨s₁, p, rfl, h, hpc, hp⟩

/-! ### The steps on the table -/

/-- A struct that is in the table from slot `i` on, but not at slot `i`, is there from the
next slot on. -/
theorem SlottedFrom.succ {a : Addr} {i : Nat} (h : SlottedFrom s a i)
    (hi : s.allTimers i ≠ some a) : SlottedFrom s a (i + 1) := by
  obtain ⟨j, hij, hj, hja⟩ := h
  refine ⟨j, ?_, hj, hja⟩
  rcases Nat.lt_or_eq_of_le hij with hlt | rfl
  · exact hlt
  · exact absurd hja hi

theorem SlottedFrom.lt {a : Addr} {i : Nat} (h : SlottedFrom s a i) : i < TIMER_MAX := by
  obtain ⟨j, hij, hj, -⟩ := h
  exact Nat.lt_of_le_of_lt hij hj

theorem slottedFrom_zero {a : Addr} (h : Slotted s a) : SlottedFrom s a 0 := by
  obtain ⟨j, hj, hja⟩ := h
  exact ⟨j, Nat.zero_le j, hj, hja⟩

/-- The compare-and-exchange on slot `i`, and the end of a scan of a full table. -/
theorem go_scan {c : CreateArgs} {timer : Option Addr} {i : Nat}
    (h : go act s (.scan c timer i) = some s') (hI : Inv s) (hp : PcOk s act (.scan c timer i)) :
    Moves act s s' := by
  simp only [go] at h
  split at h
  · next hi =>
    split at h
    · next hnone =>
      cases h
      have hk : Keeps act s (s.setSlot i timer) :=
        .setSlot hI hi (by simp [hnone]) fun b hb => ⟨(hp b hb).1, (hp b hb).2.1⟩
      refine .of_keeps hk rfl ?_
      cases timer with
      | none => exact trivial
      | some newp =>
          obtain ⟨ho, -, hl⟩ := hp newp rfl
          have hs : HoldsSlotted (s.setSlot i (some newp)) act newp :=
            ⟨ho, i, hi, Function.update_self _ _ _⟩
          -- A timer without a thread goes to the system call without more stores.
          show PcOk _ act (if wantsThread c.evp then .fill c newp else .ktimerCreate c newp)
          split
          · exact ⟨hs, hl⟩
          · next hc => exact ⟨hs, hl, fun h => absurd h hc⟩
    · cases h
      exact .goto hI hp
  · -- The table is full: the block stays allocated, and nobody uses it.
    cases timer with
    | none =>
        cases h
        exact .goto hI trivial
    | some a =>
        cases h
        obtain ⟨ho, -, -⟩ := hp a rfl
        exact .of_keeps (.setOwner hI (eq_of_held ho) nofun nofun) rfl trivial

/-- One load of the search for a pointer. -/
theorem go_ptr2id {use : IdUse} {a : Addr} {i : Nat} (h : go act s (.ptr2id use a i) = some s')
    (hI : Inv s) (hp : PcOk s act (.ptr2id use a i)) : Moves act s s' := by
  -- The struct is at slot `i` or later, so the loop does not run past the table.
  have hfrom : SlottedFrom s a i := by
    cases use with
    | create => exact hp.2.1
    | free => exact hp.2.1
  simp only [go, if_pos hfrom.lt] at h
  split at h
  · next hia =>
    cases h
    have hid : s.id2ptr (i : Int) = some a := (id2ptr_natCast s hfrom.lt).trans hia
    cases use with
    | create => exact .goto hI ⟨hp.1, hid, hp.2.2⟩
    | free => exact .goto hI ⟨hp.1, hid, hp.2.2⟩
  · next hia =>
    cases h
    cases use with
    | create => exact .goto hI ⟨hp.1, hfrom.succ hia, hp.2.2⟩
    | free => exact .goto hI ⟨hp.1, hfrom.succ hia, hp.2.2⟩

/-- `*timerid = id`: the struct becomes a timer of the program. -/
theorem go_return {a : Addr} {id : TimerT} (h : go act s (.ptr2idDone .create a id) = some s')
    (hI : Inv s) (hp : PcOk s act (.ptr2idDone .create a id)) : Moves act s s' := by
  obtain ⟨ho, hid, hl⟩ := hp
  cases h
  refine .of_keeps (.setOwner hI (eq_of_held ho) (fun id' hid' => ?_) nofun) rfl trivial
  cases hid'
  exact ⟨hid, hl⟩

/-- `__all_timers[id] = NULL`: the id found is an index, and its slot has the struct. -/
theorem go_clear {a : Addr} {id : TimerT} (h : go act s (.ptr2idDone .free a id) = some s')
    (hI : Inv s) (hp : PcOk s act (.ptr2idDone .free a id)) : Moves act s s' := by
  obtain ⟨ho, hid, hl⟩ := hp
  obtain ⟨j, hj, rfl, hja⟩ := id2ptr_eq_some hid
  simp only [go, if_pos (Int.natCast_nonneg j), Int.toNat_natCast] at h
  cases h
  have hk : Keeps act s (s.setSlot j none) := by
    refine .setSlot hI hj (fun b hb => ?_) nofun
    rw [hja] at hb
    cases hb
    exact ho
  refine .of_keeps hk rfl ⟨ho, ?_, hl⟩
  -- The struct was in no other slot.
  intro k hk
  by_cases hkj : k = j
  · subst hkj
    simp [State.setSlot] at hk
  · have hka : s.allTimers k = some a := by simpa [State.setSlot, hkj] using hk
    exact hkj (hI.inj k j a hka hja)

/-- `free (ptr)`. -/
theorem go_free {a : Addr} (h : go act s (.free a) = some s') (hI : Inv s)
    (hp : PcOk s act (.free a)) : Moves act s s' := by
  obtain ⟨ho, hu, hl⟩ := hp
  cases h
  exact .of_keeps (.setOwner hI (eq_of_held ho) nofun fun _ => ⟨hu, hl⟩) rfl trivial

/-! ### The steps of `timer_create` on the new struct -/

/-- The stores of the thread parameters. -/
theorem go_fill {c : CreateArgs} {a : Addr} (h : go act s (.fill c a) = some s') (hI : Inv s)
    (hp : PcOk s act (.fill c a)) : Moves act s s' := by
  obtain ⟨⟨ho, hs⟩, hl⟩ := hp
  cases h
  refine .of_keeps (.store hI hl (.inl ho)) rfl ⟨⟨ho, hs⟩, hl, fun hc => ?_⟩
  show (Function.update s.heap a _ a).sigevNotify = SIGEV_THREAD
  rw [Function.update_self]
  cases hevp : c.evp with
  | none => simp [hevp, wantsThread] at hc
  | some ev => rfl

/-- The stores of `sigev_notify` and `ktimerid`. -/
theorem go_created {c : CreateArgs} {a : Addr} {k : KernelTimerT}
    (h : go act s (.created c a k) = some s') (hI : Inv s) (hp : PcOk s act (.created c a k)) :
    Moves act s s' := by
  obtain ⟨⟨ho, hs⟩, hl, hc⟩ := hp
  cases h
  have hposix : Keeps act s { s with noPosixTimers := 1 } := .posix hI
  refine .of_keeps (hposix.trans (.store hposix.inv hl (.inl ho))) rfl
    ⟨ho, slottedFrom_zero hs, ?_⟩
  -- The struct is not on the list, and its event does not ask for a thread.
  have hne : (c.evp.getD (defaultSigevent a)).sigevNotify ≠ SIGEV_THREAD := by
    cases hevp : c.evp with
    | none => simp [defaultSigevent, SIGEV_SIGNAL, SIGEV_THREAD]
    | some ev => simpa [hevp, wantsThread] using hc
  refine ⟨fun hm => absurd hm hl, fun hn => absurd ?_ hne⟩
  simpa [State.store] using hn

/-! ### The steps on the active list -/

/-- `newp->next = __active_timer_sigev_thread`. -/
theorem go_pushNext {a : Addr} (h : go act s (.pushNext a) = some s') (hI : Inv s)
    (hp : PcOk s act (.pushNext a)) : Moves act s s' := by
  obtain ⟨⟨ho, hs⟩, hl, hn, hlock, hlist⟩ := hp
  cases h
  have hk : Keeps act s (s.storeNext a s.activeTimerSigevThread) := .storeNext hI hlock _
  refine .of_keeps hk rfl ⟨⟨ho, hs⟩, hl, ?_, ⟨hlock, ?_⟩, ?_⟩
  · simpa [State.storeNext, State.store] using hn
  · -- The new struct is not on the list yet, so the list does not see the store.
    refine hlist.congr fun b hb => ?_
    have hba : b ≠ a := by
      rintro rfl
      exact hl hb
    simp [State.storeNext, State.store, hba]
  · simp [State.storeNext, State.store]

/-- `__active_timer_sigev_thread = newp`. -/
theorem go_pushHead {a : Addr} (h : go act s (.pushHead a) = some s') (hI : Inv s)
    (hp : PcOk s act (.pushHead a)) : Moves act s s' := by
  obtain ⟨hs, hl, hn, ⟨hlock, hlist⟩, hnext⟩ := hp
  cases h
  exact .of_keeps (.setHead hI hlock _) rfl ⟨hs, hl, hn, hlock, hlist.push hnext⟩

/-- The end of the critical section of `timer_create`. -/
theorem go_pushUnlock {a : Addr} (h : go act s (.pushUnlock a) = some s') (hI : Inv s)
    (hp : PcOk s act (.pushUnlock a)) : Moves act s s' := by
  obtain ⟨⟨ho, hs⟩, hl, hn, hlock, hlist⟩ := hp
  cases h
  refine .of_keeps (.push hI ho hl hn hlock hlist) rfl ⟨ho, slottedFrom_zero hs, ?_⟩
  exact ⟨fun _ => hn, fun _ => List.mem_cons_self⟩

/-- The test of the head of the list: the struct is the head, or the walk starts there. -/
theorem go_unlinkHead {kt : Addr} (h : go act s (.unlinkHead kt) = some s') (hI : Inv s)
    (hp : PcOk s act (.unlinkHead kt)) : Moves act s s' := by
  obtain ⟨hs, hl, hlock, hlist⟩ := hp
  simp only [go] at h
  split at h
  · next hhead =>
    cases h
    refine .of_keeps (.setHead hI hlock _) rfl ⟨hs, hl, hlock, ?_⟩
    have hlist' : Linked (fun b => (s.heap b).next) (some kt) (activeList s.history) := by
      rw [← hhead]
      exact hlist
    exact hlist'.unlink_head
  · next hhead =>
    cases h
    refine .goto hI ⟨hs, ⟨hlock, hlist⟩, ?_⟩
    -- The list has the struct and does not start with it, so it has a node before it.
    obtain ⟨l₁, l₂, heq⟩ := List.append_of_mem hl
    cases l₁ with
    | nil =>
        unfold ListAt at hlist
        rw [heq] at hlist
        exact absurd hlist.1 hhead
    | cons b l₁ =>
        refine ⟨[], b, l₁ ++ kt :: l₂, ?_, heq, by simp⟩
        unfold ListAt at hlist
        rw [heq] at hlist
        exact hlist.1

/-- One step of the walk: the node behind `prevp` is the struct, or the walk goes there. -/
theorem go_unlinkWalk {kt : Addr} {prevp : Option Addr}
    (h : go act s (.unlinkWalk kt prevp) = some s') (hI : Inv s)
    (hp : PcOk s act (.unlinkWalk kt prevp)) : Moves act s s' := by
  obtain ⟨hs, ⟨hlock, hlist⟩, l₁, b, l₂, rfl, heq, hkt⟩ := hp
  have hl : Listed s kt := by
    unfold Listed
    rw [heq]
    simp [hkt]
  have hlist' : Linked (fun b => (s.heap b).next) s.activeTimerSigevThread (l₁ ++ b :: l₂) := by
    rw [← heq]
    exact hlist
  -- `kt` is behind the node `b`, so `b` is not the last node and its `next` is not `NULL`.
  cases l₂ with
  | nil => cases hkt
  | cons q l₂ =>
      have hnext : (s.heap b).next = some q := hlist'.next_eq_head
      simp only [go, hnext] at h
      split at h
      · next hq =>
        subst hq
        cases h
        refine .of_keeps (.storeNext hI hlock _) rfl ⟨hs, hl, hlock, ?_⟩
        -- Without `kt` the list goes on from `b` to the node behind it.
        have hun := hlist'.unlink_after
        rw [← heq] at hun
        refine hun.congr fun c _ => ?_
        by_cases hc : c = b
        · subst hc
          simp [State.storeNext, State.store]
        · simp [State.storeNext, State.store, hc]
      · next hq =>
        cases h
        have hkt' : kt ∈ l₂ := (List.mem_cons.mp hkt).resolve_left fun h => hq h.symm
        exact .goto hI ⟨hs, ⟨hlock, hlist⟩, l₁ ++ [b], q, l₂, rfl, by simp [heq], hkt'⟩

/-- The end of the critical section of `timer_delete`. -/
theorem go_unlinkUnlock {kt : Addr} (h : go act s (.unlinkUnlock kt) = some s') (hI : Inv s)
    (hp : PcOk s act (.unlinkUnlock kt)) : Moves act s s' := by
  obtain ⟨hs, -, hlock, hlist⟩ := hp
  cases h
  exact .of_keeps (.unlink hI hs.1 hlock hlist) rfl ⟨hs, hI.nodup.not_mem_erase⟩

/-- One step of the helper's search. -/
theorem go_helperSearch {note : Note} {runp : Option Addr}
    (h : go act s (.helperSearch note runp) = some s') (hI : Inv s)
    (hp : PcOk s act (.helperSearch note runp)) : Moves act s s' := by
  obtain ⟨hsec, hr⟩ := hp
  cases runp with
  | none =>
      -- The end of the list, still inside the critical section.
      cases h
      exact .goto hI hsec
  | some r =>
      have hl : Listed s r := hr r rfl
      simp only [go] at h
      split at h
      · next heq =>
        cases h
        exact .goto hI ⟨hsec, heq ▸ hl⟩
      · cases h
        refine .goto hI ⟨hsec, fun r' hr' => ?_⟩
        -- The node behind `r` is on the list too.
        obtain ⟨l₁, l₂, heq⟩ := List.append_of_mem hl
        have hlist := hsec.2
        unfold ListAt at hlist
        rw [heq] at hlist
        have hhead : l₂.head? = some r' := hlist.next_eq_head.symm.trans hr'
        unfold Listed
        rw [heq]
        exact List.mem_append_right _ (List.mem_cons_of_mem _ (List.mem_of_mem_head? hhead))

/-! ### All steps -/

/-- A step that nothing but the state decides. -/
theorem go_moves (h : go act s p = some s') (hI : Inv s) (hp : PcOk s act p) :
    Moves act s s' := by
  have hposix : Keeps act s { s with noPosixTimers := 1 } := .posix hI
  cases p with
  | createStart c =>
      simp only [go, if_pos hI.posix] at h
      cases h
      split
      · exact .goto hI trivial
      · exact .goto hI trivial
  | createProbe c =>
      simp only [go] at h
      split at h
      · cases h
        exact .of_keeps hposix rfl trivial
      · split at h
        · cases h
          exact .goto hI trivial
        · cases h
  | scan c timer i => exact go_scan h hI hp
  | fill c a => exact go_fill h hI hp
  | created c a k => exact go_created h hI hp
  | pushLock a =>
      obtain ⟨hs, hl, hn⟩ := hp
      simp only [go] at h
      split at h
      · next hlock =>
        cases h
        exact .of_keeps (.acquire hI hlock) rfl ⟨hs, hl, hn, rfl, hI.list hlock⟩
      · cases h
  | pushNext a => exact go_pushNext h hI hp
  | pushHead a => exact go_pushHead h hI hp
  | pushUnlock a => exact go_pushUnlock h hI hp
  | ptr2id use a i => exact go_ptr2id h hI hp
  | ptr2idDone use a id =>
      cases use with
      | create => exact go_return h hI hp
      | free => exact go_clear h hI hp
  | free a => exact go_free h hI hp
  | deleteLookup id a =>
      obtain ⟨ho, hid, hl⟩ := hp
      simp only [go, hid] at h
      cases h
      exact .goto hI ⟨ho, hid, hl⟩
  | deleted kt =>
      obtain ⟨hs, hl⟩ := hp
      cases h
      split
      · next hn => exact .goto hI ⟨hs, hl.mpr hn⟩
      · next hn => exact .goto hI ⟨hs, fun hm => hn (hl.mp hm)⟩
  | unlinkLock kt =>
      obtain ⟨hs, hl⟩ := hp
      simp only [go] at h
      split at h
      · next hlock =>
        cases h
        exact .of_keeps (.acquire hI hlock) rfl ⟨hs, hl, rfl, hI.list hlock⟩
      · cases h
  | unlinkHead kt => exact go_unlinkHead h hI hp
  | unlinkWalk kt prevp => exact go_unlinkWalk h hI hp
  | unlinkUnlock kt => exact go_unlinkUnlock h hI hp
  | unlinked kt =>
      obtain ⟨hs, hl⟩ := hp
      cases h
      exact .of_keeps hposix rfl ⟨hs.1, slottedFrom_zero hs.2, hl⟩
  | lookup id =>
      simp only [go] at h
      split at h
      · cases h
        exact .goto hI trivial
      · cases h
        exact .goto hI trivial
  | lookupDone kt =>
      cases h
      exact .of_keeps hposix rfl trivial
  | helperLock note =>
      simp only [go] at h
      split at h
      · next hlock =>
        cases h
        have hlist : ListAt s (activeList s.history) := hI.list hlock
        refine .of_keeps (.acquire hI hlock) rfl ⟨⟨rfl, hlist⟩, fun r hr => ?_⟩
        unfold ListAt at hlist
        rw [hr] at hlist
        obtain ⟨t, ht, -⟩ := hlist.exists_of_some
        show r ∈ activeList s.history
        rw [ht]
        exact List.mem_cons_self
      · cases h
  | helperSearch note runp => exact go_helperSearch h hI hp
  | helperUnlock =>
      cases h
      exact .of_keeps (.release hI hp) rfl trivial
  | idle | createHelper c | malloc c | ktimerCreate c a | ktimerDelete id kt | sigtimedwait
  | helperFound note | helperStart note f v | helperExited => cases h

/-- `malloc` returns. A new block is in neither the table nor the list, since both have
only allocated structs. -/
theorem step_malloc {block : Option (Addr × StructTimer)} (h : step (.malloc act block) s = some s')
    (hI : Inv s) : Moves act s s' := by
  simp only [step] at h
  split at h
  · next c _ =>
    cases block with
    | none =>
        cases h
        exact .goto hI nofun
    | some b =>
        obtain ⟨a, bytes⟩ := b
        simp only at h
        split at h
        · next hfree =>
          cases h
          have hu : Unslotted s a := fun j hj => hI.owned j a hj hfree
          have hl : ¬ Listed s a := fun hm => (hI.listed a hm).1 hfree
          let s₁ : State := { s with
            timerAt := Function.update s.timerAt a (c.inst s.serial)
            serial := s.serial + 1 }
          have k₁ : Keeps act s s₁ := .of_eq hI hI.posix rfl rfl rfl rfl rfl rfl rfl
          have k₂ : Keeps act s₁ (s₁.store a bytes) := .store k₁.inv hl (.inr hfree)
          have k₃ : Keeps act (s₁.store a bytes) ((s₁.store a bytes).setOwner a (.held act)) := by
            refine .setOwner k₂.inv (fun i hi => ?_) nofun nofun
            change s.owner a = .held i at hi
            rw [hfree] at hi
            cases hi
          refine .of_keeps (k₁.trans (k₂.trans k₃)) rfl fun b hb => ?_
          cases hb
          exact ⟨Function.update_self _ _ _, hu, hl⟩
        · cases h
  · cases h

/-- `ktimer_create` returns. -/
theorem step_ktimerCreate {res : Except Errno KernelTimerT}
    (h : step (.ktimerCreate act res) s = some s') (hI : Inv s)
    (hp : PcOk s act (s.pc act)) : Moves act s s' := by
  simp only [step] at h
  split at h
  · next c a hpc =>
    rw [hpc] at hp
    obtain ⟨⟨ho, hs⟩, hl, hn⟩ := hp
    cases res with
    | ok k =>
        simp only at h
        split at h
        · let s₁ : State := { s with
            ktimers := Function.update s.ktimers k (s.newKTimer c a) }
          have k₁ : Keeps act s s₁ := .of_eq hI hI.posix rfl rfl rfl rfl rfl rfl rfl
          split at h
          · next hc =>
            cases h
            have k₂ : Keeps act s₁ (s₁.store a { s₁.heap a with ktimerid := k }) :=
              .store k₁.inv hl (.inl ho)
            refine .of_keeps (k₁.trans k₂) rfl ⟨⟨ho, hs⟩, hl, ?_⟩
            simpa [State.store] using hn hc
          · next hc =>
            cases h
            exact .of_keeps k₁ rfl ⟨⟨ho, hs⟩, hl, by simpa using hc⟩
        · cases h
    | error e =>
        simp only at h
        split at h
        · cases h
        · split at h
          · cases h
            exact .goto hI ⟨ho, slottedFrom_zero hs, hl⟩
          · cases h
            exact .of_keeps (.posix hI) rfl ⟨ho, slottedFrom_zero hs, hl⟩
  · cases h

/-- `ktimer_delete` returns. After an error the timer is the program's again. -/
theorem step_ktimerDelete {res : Except Errno Unit}
    (h : step (.ktimerDelete act res) s = some s') (hI : Inv s)
    (hp : PcOk s act (s.pc act)) : Moves act s s' := by
  simp only [step] at h
  split at h
  · next id kt hpc =>
    rw [hpc] at hp
    obtain ⟨ho, hid, hl⟩ := hp
    cases res with
    | ok u =>
        simp only at h
        split at h
        · cases h
        · cases h
          refine .of_keeps ?_ rfl ⟨⟨ho, slotted_of_id2ptr hid⟩, hl⟩
          exact .of_eq hI hI.posix rfl rfl rfl rfl rfl rfl rfl
    | error e =>
        simp only at h
        split at h
        · cases h
        · cases h
          have k₁ : Keeps act s { s with noPosixTimers := 1 } := .posix hI
          have k₂ : Keeps act { s with noPosixTimers := 1 }
              ({ s with noPosixTimers := 1 }.setOwner kt (.live id)) := by
            refine .setOwner k₁.inv (eq_of_held ho) (fun id' hid' => ?_) nofun
            cases hid'
            exact ⟨hid, hl⟩
          exact .of_keeps (k₁.trans k₂) rfl trivial
  · cases h

end

/-- No actor is alone. -/
theorem Actor.exists_ne (i : Actor) : ∃ act, i ≠ act := by
  cases i with
  | thread t => exact ⟨.helper, nofun⟩
  | helper => exact ⟨.thread 0, nofun⟩

/-- The actor that takes a step. -/
def Label.actor : Label → Option Actor
  | .callCreate t _ | .callDelete t _ | .callLookup t _ => some (.thread t)
  | .helper act _ | .malloc act _ | .ktimerCreate act _ | .ktimerDelete act _ | .dequeue act _
  | .start act _ | .go act => some act
  | .expire _ | .send _ => none

/-- A step of an actor. -/
theorem step_moves {l : Label} {s s' : State} {act : Actor} (h : step l s = some s')
    (hact : l.actor = some act) (hI : Inv s) (hp : PcOk s act (s.pc act)) : Moves act s s' := by
  cases l with
  | callCreate t c =>
      cases hact
      simp only [step] at h
      split at h
      · cases h
        exact .goto hI trivial
      · cases h
  | callDelete t a =>
      cases hact
      simp only [step] at h
      split at h
      · next id _ hlive =>
        cases h
        obtain ⟨hid, hl⟩ := hI.live a id hlive
        refine .of_keeps (.setOwner hI (fun i hi => ?_) nofun nofun) rfl
          ⟨Function.update_self _ _ _, hid, hl⟩
        rw [hlive] at hi
        cases hi
      · cases h
  | callLookup t id =>
      cases hact
      simp only [step] at h
      split at h
      · cases h
        exact .goto hI trivial
      · cases h
  | helper act' ok =>
      cases hact
      simp only [step] at h
      split at h
      · cases h
        refine .goto hI ?_
        split <;> trivial
      · cases h
  | malloc act' block =>
      cases hact
      exact step_malloc h hI
  | ktimerCreate act' res =>
      cases hact
      exact step_ktimerCreate h hI hp
  | ktimerDelete act' res =>
      cases hact
      exact step_ktimerDelete h hI hp
  | dequeue act' n =>
      cases hact
      simp only [step] at h
      have hk : Keeps act s { s with queue := s.queue.eraseIdx n } :=
        .of_eq hI hI.posix rfl rfl rfl rfl rfl rfl rfl
      split at h
      · split at h
        · cases h
        · cases h
          exact .of_keeps hk rfl trivial
        · cases h
          refine .of_keeps hk rfl ?_
          split <;> trivial
      · cases h
  | start act' ok =>
      cases hact
      simp only [step] at h
      split at h
      · next note hpc =>
        rw [hpc] at hp
        cases h
        refine .goto hI ?_
        split
        · exact hp.1
        · exact hp.1
      · next note f v hpc =>
        rw [hpc] at hp
        cases h
        refine .of_keeps (.of_eq hI ?_ ?_ ?_ ?_ ?_ ?_ ?_ ?_) ?_ ?_
        all_goals cases ok
        case refine_1.false | refine_1.true => exact hI.posix
        case refine_10.false | refine_10.true => exact hp
        all_goals rfl
      · cases h
  | go act' =>
      cases hact
      exact go_moves h hI hp
  | expire k => cases hact
  | send c => cases hact

/-- The kernel and the senders of signals only add to the queue, which no actor notices. -/
theorem step_kernel {l : Label} {s s' : State} (h : step l s = some s') (hact : l.actor = none)
    (hI : Inv s) : (∀ act, Keeps act s s') ∧ s'.pc = s.pc := by
  cases l with
  | expire k =>
      simp only [step] at h
      split at h
      · cases h
      · split at h
        · cases h
          exact ⟨fun act => .of_eq hI hI.posix rfl rfl rfl rfl rfl rfl rfl, rfl⟩
        · cases h
  | send siCode =>
      simp only [step] at h
      split at h
      · cases h
      · cases h
        exact ⟨fun act => .of_eq hI hI.posix rfl rfl rfl rfl rfl rfl rfl, rfl⟩
  | callCreate t c | callDelete t a | callLookup t id | helper act ok | malloc act block
  | ktimerCreate act res | ktimerDelete act res | dequeue act n | start act ok | go act =>
      cases hact

/-! ### The invariant over runs -/

theorem inv_of_initial {s : State} (h : Initial s) : Inv s where
  posix := by simp [h.noPosixTimers]
  fault := h.fault
  inj i j a hi := by simp [h.allTimers i] at hi
  lt i a hi := by simp [h.allTimers i] at hi
  owned i a hi := by simp [h.allTimers i] at hi
  live a id ha := by simp [h.owner a] at ha
  listed a ha := by simp [Listed, h.history, activeList] at ha
  nodup := by simp [h.history, activeList]
  list _ := by
    unfold ListAt
    rw [h.history, h.activeTimerSigevThread]
    rfl

theorem pcOk_of_initial {s : State} (h : Initial s) (act : Actor) : PcOk s act (s.pc act) := by
  cases act with
  | thread t =>
      rw [h.thread t]
      trivial
  | helper =>
      rw [h.helper]
      trivial

/-- The invariant and the assertions of all actors hold in every state that a run reaches. -/
theorem reachable_inv {ok : Label → State → Prop} {s : State} (h : machine.ReachableVia ok s) :
    Inv s ∧ ∀ act, PcOk s act (s.pc act) := by
  refine ReachableVia.outline (I := Inv) (A := fun act s => PcOk s act (s.pc act)) Label.actor
    ?_ ?_ ?_ ?_ h
  · exact fun s hs => ⟨inv_of_initial hs, pcOk_of_initial hs⟩
  · intro l s s' hI hA _ hs
    cases hact : l.actor with
    | some act =>
        obtain ⟨s₁, p, rfl, hk, -, -⟩ := step_moves hs hact hI (hA act)
        have hgoto : Keeps act s₁ (s₁.goto act p) := .goto hk.inv act p
        exact hgoto.inv
    | none => exact ((step_kernel hs hact hI).1 .helper).inv
  · -- The actor that moves ends where its assertion holds.
    intro l s s' act hact hI hA _ hs
    obtain ⟨s₁, p, rfl, -, -, hp⟩ := step_moves hs hact hI (hA act)
    rw [pcOk_goto]
    show PcOk s₁ act (Function.update s₁.pc act p act)
    rw [Function.update_self]
    exact hp
  · -- The assertion of an actor that does not move.
    intro l s s' i hi hI hA _ hs
    cases hact : l.actor with
    | some act =>
        obtain ⟨s₁, p, rfl, hk, hpc, -⟩ := step_moves hs hact hI (hA act)
        have hne : i ≠ act := by
          rintro rfl
          exact hi hact
        rw [pcOk_goto]
        show PcOk s₁ i (Function.update s₁.pc act p i)
        rw [Function.update_of_ne hne, hpc]
        exact (hA i).frame (hk.frame i hne)
    | none =>
        obtain ⟨hk, hpc⟩ := step_kernel hs hact hI
        rw [hpc]
        -- `i` does not notice the step of any other actor, so neither this one.
        obtain ⟨act, hne⟩ := i.exists_ne
        exact (hA i).frame ((hk act).frame i hne)

end GlibcPorts.Timer
