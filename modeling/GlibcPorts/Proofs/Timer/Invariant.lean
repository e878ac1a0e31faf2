import GlibcPorts.Lib.LinkedList
import GlibcPorts.Proofs.Timer.Table
import GlibcPorts.Timer.Machine

/-!
# `GlibcPorts.Proofs.Timer.Invariant`: the invariant of the timer calls

The invariant has a shared part `Inv` and, for each actor, an assertion `PcOk` about the
place where it is. The assertions speak only of what an actor has to itself: the struct it
holds (`Owner.held`), and the active list while it has the lock. So a step of another actor
keeps them (`PcOk.frame`) when it keeps these things, which `Frame` collects.
-/

set_option autoImplicit false

namespace GlibcPorts.Timer

open GlibcPorts.Lib (Linked)

/-! ### What the assertions speak of -/

section
variable (s : State) (act : Actor) (a : Addr)

/-- `a` is in the table. -/
def Slotted : Prop := ∃ j < TIMER_MAX, s.allTimers j = some a

/-- `a` is in the table at slot `i` or later. -/
def SlottedFrom (i : Nat) : Prop := ∃ j, i ≤ j ∧ j < TIMER_MAX ∧ s.allTimers j = some a

/-- `a` is not in the table. -/
def Unslotted : Prop := ∀ j, s.allTimers j ≠ some a

/-- The ends of the critical sections so far leave `a` on the active list. -/
def Listed : Prop := a ∈ activeList s.history

/-- `a` is on the active list exactly when it is a `SIGEV_THREAD` timer. -/
def ListedIffThread : Prop := Listed s a ↔ (s.heap a).sigevNotify = SIGEV_THREAD

/-- The list in memory has the nodes `l`. -/
def ListAt (l : List Addr) : Prop :=
  Linked (fun b => (s.heap b).next) s.activeTimerSigevThread l

/-- The actor has the lock and the list in memory is as the last critical section left it. -/
def InSection : Prop := s.lock = some act ∧ ListAt s (activeList s.history)

/-- The actor holds `a`, which is in the table. -/
def HoldsSlotted : Prop := s.owner a = .held act ∧ Slotted s a

end

/-- The walk of `timer_delete` stands before `kt` in the active list. -/
def WalkBefore (s : State) (kt : Addr) (prevp : Option Addr) : Prop :=
  ∃ l₁ p l₂, prevp = some p ∧ activeList s.history = l₁ ++ p :: l₂ ∧ kt ∈ l₂

/-- What holds while the actor is at a place. -/
def PcOk (s : State) (act : Actor) : Pc → Prop
  | .scan _ timer _ => ∀ a, timer = some a → s.owner a = .held act ∧ Unslotted s a ∧ ¬ Listed s a
  | .fill _ a => HoldsSlotted s act a ∧ ¬ Listed s a
  | .ktimerCreate c a =>
      HoldsSlotted s act a ∧ ¬ Listed s a ∧
        (wantsThread c.evp = true → (s.heap a).sigevNotify = SIGEV_THREAD)
  | .created c a _ => HoldsSlotted s act a ∧ ¬ Listed s a ∧ wantsThread c.evp = false
  | .pushLock a =>
      HoldsSlotted s act a ∧ ¬ Listed s a ∧ (s.heap a).sigevNotify = SIGEV_THREAD
  | .pushNext a =>
      HoldsSlotted s act a ∧ ¬ Listed s a ∧ (s.heap a).sigevNotify = SIGEV_THREAD ∧
        InSection s act
  | .pushHead a =>
      HoldsSlotted s act a ∧ ¬ Listed s a ∧ (s.heap a).sigevNotify = SIGEV_THREAD ∧
        InSection s act ∧ (s.heap a).next = s.activeTimerSigevThread
  | .pushUnlock a =>
      HoldsSlotted s act a ∧ ¬ Listed s a ∧ (s.heap a).sigevNotify = SIGEV_THREAD ∧
        s.lock = some act ∧ ListAt s (a :: activeList s.history)
  | .ptr2id .create a i =>
      s.owner a = .held act ∧ SlottedFrom s a i ∧ ListedIffThread s a
  | .ptr2idDone .create a id =>
      s.owner a = .held act ∧ s.id2ptr id = some a ∧ ListedIffThread s a
  | .ptr2id .free a i => s.owner a = .held act ∧ SlottedFrom s a i ∧ ¬ Listed s a
  | .ptr2idDone .free a id =>
      s.owner a = .held act ∧ s.id2ptr id = some a ∧ ¬ Listed s a
  | .free a => s.owner a = .held act ∧ Unslotted s a ∧ ¬ Listed s a
  | .deleteLookup id a | .ktimerDelete id a =>
      s.owner a = .held act ∧ s.id2ptr id = some a ∧ ListedIffThread s a
  | .deleted kt => HoldsSlotted s act kt ∧ ListedIffThread s kt
  | .unlinkLock kt => HoldsSlotted s act kt ∧ Listed s kt
  | .unlinkHead kt => HoldsSlotted s act kt ∧ Listed s kt ∧ InSection s act
  | .unlinkWalk kt prevp =>
      HoldsSlotted s act kt ∧ InSection s act ∧ WalkBefore s kt prevp
  | .unlinkUnlock kt =>
      HoldsSlotted s act kt ∧ Listed s kt ∧ s.lock = some act ∧
        ListAt s ((activeList s.history).erase kt)
  | .unlinked kt => HoldsSlotted s act kt ∧ ¬ Listed s kt
  | .helperSearch _ runp => InSection s act ∧ ∀ r, runp = some r → Listed s r
  | .helperFound note => InSection s act ∧ Listed s note.ptr
  | .helperStart _ _ _ | .helperUnlock => InSection s act
  | .idle | .createStart _ | .createProbe _ | .createHelper _ | .malloc _ | .lookup _
  | .lookupDone _ | .sigtimedwait | .helperLock _ | .helperExited => True

/-- What holds in every reachable state of the shared part. -/
structure Inv (s : State) : Prop where
  posix : 0 ≤ s.noPosixTimers
  fault : s.fault = none
  inj : ∀ i j a, s.allTimers i = some a → s.allTimers j = some a → i = j
  lt : ∀ i a, s.allTimers i = some a → i < TIMER_MAX
  owned : ∀ i a, s.allTimers i = some a → s.owner a ≠ .free
  live : ∀ a id, s.owner a = .live id → s.id2ptr id = some a ∧ ListedIffThread s a
  listed : ∀ a, Listed s a → s.owner a ≠ .free ∧ (s.heap a).sigevNotify = SIGEV_THREAD
  nodup : (activeList s.history).Nodup
  list : s.lock = none → ListAt s (activeList s.history)

/-- A step that keeps what the actor `i` has to itself: its place, the structs it holds, and
the active list while it has the lock. -/
structure Frame (i : Actor) (s s' : State) : Prop where
  owner : ∀ a, s.owner a = .held i → s'.owner a = .held i
  slot : ∀ a, s.owner a = .held i → ∀ j, s'.allTimers j = some a ↔ s.allTimers j = some a
  notify : ∀ a, s.owner a = .held i → (s'.heap a).sigevNotify = (s.heap a).sigevNotify
  listed : ∀ a, s.owner a = .held i → (Listed s' a ↔ Listed s a)
  lock : s.lock = some i → s'.lock = some i
  head : s.lock = some i → s'.activeTimerSigevThread = s.activeTimerSigevThread
  history : s.lock = some i → s'.history = s.history
  next : s.lock = some i → ∀ a, s.owner a = .held i ∨ Listed s a →
    (s'.heap a).next = (s.heap a).next

/-- The id of a slot yields what is in the slot. -/
theorem id2ptr_natCast (s : State) {j : Nat} (hj : j < TIMER_MAX) :
    s.id2ptr (j : Int) = s.allTimers j :=
  kfreebsdTimerId2ptr_natCast hj

/-- An id that yields a timer is the index of its slot. -/
theorem id2ptr_eq_some {s : State} {id : TimerT} {a : Addr} (h : s.id2ptr id = some a) :
    ∃ j < TIMER_MAX, id = (j : Int) ∧ s.allTimers j = some a :=
  kfreebsdTimerId2ptr_eq_some h

/-- A struct that an id leads to has a slot. -/
theorem slotted_of_id2ptr {s : State} {id : TimerT} {a : Addr} (h : s.id2ptr id = some a) :
    Slotted s a := by
  obtain ⟨j, hj, -, ha⟩ := id2ptr_eq_some h
  exact ⟨j, hj, ha⟩

/-! ### The assertions do not see the steps of other actors -/

namespace Frame

variable {i : Actor} {s s' : State} {a : Addr}

/-- A struct that the thread holds keeps its slot. -/
theorem slotted (h : Frame i s s') (ha : s.owner a = .held i) (hs : Slotted s a) :
    Slotted s' a := by
  obtain ⟨j, hj, hja⟩ := hs
  exact ⟨j, hj, (h.slot a ha j).mpr hja⟩

/-- It keeps a slot from some index on. -/
theorem slottedFrom (h : Frame i s s') (ha : s.owner a = .held i) {n : Nat}
    (hs : SlottedFrom s a n) : SlottedFrom s' a n := by
  obtain ⟨j, hn, hj, hja⟩ := hs
  exact ⟨j, hn, hj, (h.slot a ha j).mpr hja⟩

/-- It stays without a slot. -/
theorem unslotted (h : Frame i s s') (ha : s.owner a = .held i) (hs : Unslotted s a) :
    Unslotted s' a :=
  fun j hj => hs j ((h.slot a ha j).mp hj)

/-- An id still leads to it. -/
theorem id2ptr (h : Frame i s s') (ha : s.owner a = .held i) {id : TimerT}
    (hs : s.id2ptr id = some a) : s'.id2ptr id = some a := by
  obtain ⟨j, hj, rfl, hja⟩ := id2ptr_eq_some hs
  rw [id2ptr_natCast s' hj]
  exact (h.slot a ha j).mpr hja

/-- The thread still holds a struct with a slot. -/
theorem holdsSlotted (h : Frame i s s') (hs : HoldsSlotted s i a) : HoldsSlotted s' i a :=
  ⟨h.owner a hs.1, h.slotted hs.1 hs.2⟩

/-- The struct is on the list as before. -/
theorem listedIffThread (h : Frame i s s') (ha : s.owner a = .held i)
    (hs : ListedIffThread s a) : ListedIffThread s' a := by
  unfold ListedIffThread
  rw [h.listed a ha, h.notify a ha]
  exact hs

/-- The list of an actor that has the lock, when its nodes are those of the active list and
the actor's own. -/
theorem listAt (h : Frame i s s') (hlock : s.lock = some i) {l : List Addr} (hl : ListAt s l)
    (hnode : ∀ b ∈ l, s.owner b = .held i ∨ Listed s b) : ListAt s' l := by
  unfold ListAt
  rw [h.head hlock]
  exact hl.congr fun b hb => h.next hlock b (hnode b hb)

/-- The thread is still in the critical section. -/
theorem inSection (h : Frame i s s') (hs : InSection s i) : InSection s' i := by
  refine ⟨h.lock hs.1, ?_⟩
  rw [h.history hs.1]
  exact h.listAt hs.1 hs.2 fun b hb => .inr hb

end Frame

/-- A step of another actor keeps the assertion of the actor `i`. -/
theorem PcOk.frame {i : Actor} {s s' : State} (h : Frame i s s') {p : Pc} (hp : PcOk s i p) :
    PcOk s' i p := by
  cases p with
  | scan c timer n =>
      intro a hta
      obtain ⟨ha, hu, hl⟩ := hp a hta
      exact ⟨h.owner a ha, h.unslotted ha hu, (h.listed a ha).not.mpr hl⟩
  | fill c a => exact ⟨h.holdsSlotted hp.1, (h.listed a hp.1.1).not.mpr hp.2⟩
  | ktimerCreate c a =>
      refine ⟨h.holdsSlotted hp.1, (h.listed a hp.1.1).not.mpr hp.2.1, fun hc => ?_⟩
      rw [h.notify a hp.1.1]
      exact hp.2.2 hc
  | created c a k =>
      exact ⟨h.holdsSlotted hp.1, (h.listed a hp.1.1).not.mpr hp.2.1, hp.2.2⟩
  | pushLock a =>
      exact ⟨h.holdsSlotted hp.1, (h.listed a hp.1.1).not.mpr hp.2.1,
        (h.notify a hp.1.1).trans hp.2.2⟩
  | pushNext a =>
      exact ⟨h.holdsSlotted hp.1, (h.listed a hp.1.1).not.mpr hp.2.1,
        (h.notify a hp.1.1).trans hp.2.2.1, h.inSection hp.2.2.2⟩
  | pushHead a =>
      obtain ⟨ha, hl, hn, hsec, hnext⟩ := hp
      refine ⟨h.holdsSlotted ha, (h.listed a ha.1).not.mpr hl, (h.notify a ha.1).trans hn,
        h.inSection hsec, ?_⟩
      rw [h.next hsec.1 a (.inl ha.1), h.head hsec.1]
      exact hnext
  | pushUnlock a =>
      obtain ⟨ha, hl, hn, hlock, hlist⟩ := hp
      refine ⟨h.holdsSlotted ha, (h.listed a ha.1).not.mpr hl, (h.notify a ha.1).trans hn,
        h.lock hlock, ?_⟩
      rw [h.history hlock]
      -- The new head is the actor's own, the rest is the active list.
      refine h.listAt hlock hlist fun b hb => ?_
      rcases List.mem_cons.mp hb with rfl | hb
      · exact .inl ha.1
      · exact .inr hb
  | ptr2id use a n =>
      cases use with
      | create => exact ⟨h.owner a hp.1, h.slottedFrom hp.1 hp.2.1, h.listedIffThread hp.1 hp.2.2⟩
      | free => exact ⟨h.owner a hp.1, h.slottedFrom hp.1 hp.2.1, (h.listed a hp.1).not.mpr hp.2.2⟩
  | ptr2idDone use a id =>
      cases use with
      | create => exact ⟨h.owner a hp.1, h.id2ptr hp.1 hp.2.1, h.listedIffThread hp.1 hp.2.2⟩
      | free => exact ⟨h.owner a hp.1, h.id2ptr hp.1 hp.2.1, (h.listed a hp.1).not.mpr hp.2.2⟩
  | free a => exact ⟨h.owner a hp.1, h.unslotted hp.1 hp.2.1, (h.listed a hp.1).not.mpr hp.2.2⟩
  | deleteLookup id a | ktimerDelete id a =>
      exact ⟨h.owner a hp.1, h.id2ptr hp.1 hp.2.1, h.listedIffThread hp.1 hp.2.2⟩
  | deleted kt => exact ⟨h.holdsSlotted hp.1, h.listedIffThread hp.1.1 hp.2⟩
  | unlinkLock kt => exact ⟨h.holdsSlotted hp.1, (h.listed kt hp.1.1).mpr hp.2⟩
  | unlinkHead kt =>
      exact ⟨h.holdsSlotted hp.1, (h.listed kt hp.1.1).mpr hp.2.1, h.inSection hp.2.2⟩
  | unlinkWalk kt prevp =>
      -- The walk is about the list of the last critical section, which the lock protects.
      refine ⟨h.holdsSlotted hp.1, h.inSection hp.2.1, ?_⟩
      unfold WalkBefore
      rw [h.history hp.2.1.1]
      exact hp.2.2
  | unlinkUnlock kt =>
      obtain ⟨ha, hl, hlock, hlist⟩ := hp
      refine ⟨h.holdsSlotted ha, (h.listed kt ha.1).mpr hl, h.lock hlock, ?_⟩
      rw [h.history hlock]
      exact h.listAt hlock hlist fun b hb => .inr (List.mem_of_mem_erase hb)
  | unlinked kt => exact ⟨h.holdsSlotted hp.1, (h.listed kt hp.1.1).not.mpr hp.2⟩
  | helperSearch note runp =>
      refine ⟨h.inSection hp.1, fun r hr => ?_⟩
      unfold Listed
      rw [h.history hp.1.1]
      exact hp.2 r hr
  | helperFound note =>
      refine ⟨h.inSection hp.1, ?_⟩
      unfold Listed
      rw [h.history hp.1.1]
      exact hp.2
  | helperStart note f v => exact h.inSection hp
  | helperUnlock => exact h.inSection hp
  | idle | createStart _ | createProbe _ | createHelper _ | malloc _ | lookup _ | lookupDone _
  | sigtimedwait | helperLock _ | helperExited => trivial

/-- The assertions do not speak of the places. -/
theorem pcOk_goto (s : State) (act act' : Actor) (p q : Pc) :
    PcOk (s.goto act' q) act p ↔ PcOk s act p := by
  cases p with
  | ptr2id use a n => cases use <;> exact Iff.rfl
  | ptr2idDone use a id => cases use <;> exact Iff.rfl
  | _ => exact Iff.rfl

end GlibcPorts.Timer
