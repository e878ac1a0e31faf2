import Mathlib.Data.List.Perm.Basic
import GlibcPorts.Proofs.Timer.Steps

/-!
# `GlibcPorts.Proofs.Timer.Attribution`: whose notification the helper thread serves

The helper thread looks the address that a notification carries up in the active list. So
the thread that it starts is the right one as long as the timer that lives at that address
is the one that generated the notification.

`AttrInv` and `AttrOk` say this on top of `Inv` and `PcOk`: kernel timers for the helper
thread belong to the timer that lives at their address, queued notifications to an existing
kernel timer, and the notification in the helper's hands (`NoteOk`) to the timer at its
address, if that is on the list. `AttrKeeps` is what an update keeps of this. All updates
keep it but one: the push of a new timer at an address that the helper has taken from the
queue and not yet looked up (`AttrKeeps.push`).

No notification is served twice: the numbers of the notifications that are queued or were
served are distinct, and the one in the helper's hands is neither (`Fresh`).
-/

set_option autoImplicit false

namespace GlibcPorts.Timer

open GlibcPorts.Lib (System)

/-- The number of a timer's notification. -/
def Signal.noteSeq : Signal → Option Nat
  | .timer _ note => some note.seq
  | .other _ => none

/-- The numbers of the notifications that a thread was started for or that are queued. -/
def noteSeqs (s : State) : List Nat :=
  s.started.map (fun st => st.note.seq) ++ s.queue.filterMap Signal.noteSeq

/-- The number was given to a notification that is neither queued nor served. -/
def Fresh (s : State) (n : Nat) : Prop := n < s.seq ∧ n ∉ noteSeqs s

section
variable (s : State) (a : Addr)

/-- No kernel timer for the helper thread carries the address `a`. -/
def NoKernel : Prop :=
  ∀ k kt, s.ktimers k = some kt → kt.toHelper = true → kt.event.sigevValue ≠ a

/-- The struct at `a` has the function and the value of the timer that lives there. -/
def Params : Prop :=
  (s.heap a).thrfunc = (s.timerAt a).thrfunc ∧ (s.heap a).sival = (s.timerAt a).sival

/-- The timer that lives at `a` is the one of the call with the arguments `c`. -/
def FromCall (c : CreateArgs) : Prop := ∃ n, s.timerAt a = c.inst n

/-- If the address of the notification is on the list, the timer that generated the
notification lives there. -/
def NoteOk (note : Note) : Prop := Listed s note.ptr → s.timerAt note.ptr = note.inst

end

/-- The actor at this place has taken the notification and may still look it up. -/
def Carries (p : Pc) (note : Note) : Prop :=
  p = .helperLock note ∨ (∃ runp, p = .helperSearch note runp) ∨ p = .helperFound note

/-- What holds while the actor is at a place, beyond `PcOk`. -/
def AttrOk (s : State) (act : Actor) : Pc → Prop
  | .scan c timer _ => ∀ a, timer = some a → FromCall s a c ∧ NoKernel s a
  | .fill c a => FromCall s a c ∧ NoKernel s a
  | .ktimerCreate c a =>
      FromCall s a c ∧ NoKernel s a ∧ (wantsThread c.evp = true → Params s a)
  | .pushLock a | .pushNext a | .pushHead a | .pushUnlock a => Params s a
  | .created _ a _ | .ptr2id .free a _ | .ptr2idDone .free a _ | .free a | .deleted a
  | .unlinkLock a | .unlinkHead a | .unlinkWalk a _ | .unlinkUnlock a | .unlinked a =>
      NoKernel s a
  | .helperLock note | .helperSearch note _ | .helperFound note =>
      act = .helper ∧ Fresh s note.seq ∧ NoteOk s note
  | .helperStart note thrfunc sival =>
      act = .helper ∧ Fresh s note.seq ∧ thrfunc = note.inst.thrfunc ∧ sival = note.inst.sival
  | .sigtimedwait | .helperUnlock | .helperExited => act = .helper
  | .idle | .createStart _ | .createProbe _ | .createHelper _ | .malloc _ | .ptr2id .create _ _
  | .ptr2idDone .create _ _ | .deleteLookup _ _ | .ktimerDelete _ _ | .lookup _
  | .lookupDone _ => True

/-- What holds in every reachable state of the shared part, beyond `Inv`. -/
structure AttrInv (s : State) : Prop where
  kernel : ∀ k kt, s.ktimers k = some kt → kt.toHelper = true →
    s.owner kt.event.sigevValue ≠ .free ∧ s.timerAt kt.event.sigevValue = kt.inst ∧
      (s.heap kt.event.sigevValue).ktimerid = k
  queue : ∀ k note, .timer k note ∈ s.queue → ∃ kt, s.ktimers k = some kt ∧
    kt.toHelper = true ∧ note.ptr = kt.event.sigevValue ∧ note.inst = kt.inst
  params : ∀ a, Listed s a → Params s a
  started : ∀ st ∈ s.started, st.thrfunc = st.note.inst.thrfunc ∧ st.sival = st.note.inst.sival
  nodup : (noteSeqs s).Nodup
  lt : ∀ n ∈ noteSeqs s, n < s.seq

/-- A step that keeps what the actor `i` relies on: the structs it holds, and the
notification in its hands. -/
structure AttrFrame (i : Actor) (s s' : State) : Prop where
  timerAt : ∀ a, s.owner a = .held i → s'.timerAt a = s.timerAt a
  params : ∀ a, s.owner a = .held i →
    (s'.heap a).thrfunc = (s.heap a).thrfunc ∧ (s'.heap a).sival = (s.heap a).sival
  kernel : ∀ a, s.owner a = .held i → NoKernel s a → NoKernel s' a
  note : ∀ note, Carries (s.pc i) note → NoteOk s note → NoteOk s' note
  fresh : i = .helper → ∀ n, Fresh s n → Fresh s' n

/-- The update keeps the invariant, and what each actor but `act` relies on. -/
structure AttrKeeps (act : Actor) (s s' : State) : Prop where
  inv : AttrInv s'
  frame : ∀ i, i ≠ act → AttrFrame i s s'

/-- A step of another actor keeps the assertion of the actor `i`. -/
theorem AttrOk.frame {i : Actor} {s s' : State} (h : AttrFrame i s s')
    (hp : PcOk s i (s.pc i)) (ha : AttrOk s i (s.pc i)) : AttrOk s' i (s.pc i) := by
  have hcall : ∀ {a c}, s.owner a = .held i → FromCall s a c → FromCall s' a c := by
    rintro a c ho ⟨n, hn⟩
    exact ⟨n, (h.timerAt a ho).trans hn⟩
  have hparams : ∀ {a}, s.owner a = .held i → Params s a → Params s' a := by
    rintro a ho ⟨hf, hv⟩
    unfold Params
    rw [h.timerAt a ho, (h.params a ho).1, (h.params a ho).2]
    exact ⟨hf, hv⟩
  have hnote := h.note
  generalize s.pc i = p at hp ha hnote
  cases p with
  | scan c timer n =>
      intro a hta
      have ho := (hp a hta).1
      exact ⟨hcall ho (ha a hta).1, h.kernel a ho (ha a hta).2⟩
  | fill c a => exact ⟨hcall hp.1.1 ha.1, h.kernel a hp.1.1 ha.2⟩
  | ktimerCreate c a =>
      exact ⟨hcall hp.1.1 ha.1, h.kernel a hp.1.1 ha.2.1, fun hc => hparams hp.1.1 (ha.2.2 hc)⟩
  | pushLock a | pushNext a | pushHead a | pushUnlock a => exact hparams hp.1.1 ha
  | created c a k | deleted a | unlinkLock a | unlinkHead a | unlinkWalk a _ | unlinkUnlock a
  | unlinked a => exact h.kernel a hp.1.1 ha
  | ptr2id use a n =>
      cases use with
      | create => trivial
      | free => exact h.kernel a hp.1 ha
  | ptr2idDone use a id =>
      cases use with
      | create => trivial
      | free => exact h.kernel a hp.1 ha
  | free a => exact h.kernel a hp.1 ha
  | helperLock note =>
      exact ⟨ha.1, h.fresh ha.1 _ ha.2.1, hnote note (.inl rfl) ha.2.2⟩
  | helperSearch note runp =>
      exact ⟨ha.1, h.fresh ha.1 _ ha.2.1, hnote note (.inr (.inl ⟨runp, rfl⟩)) ha.2.2⟩
  | helperFound note =>
      exact ⟨ha.1, h.fresh ha.1 _ ha.2.1, hnote note (.inr (.inr rfl)) ha.2.2⟩
  | helperStart note f v => exact ⟨ha.1, h.fresh ha.1 _ ha.2.1, ha.2.2⟩
  | sigtimedwait | helperUnlock | helperExited => exact ha
  | idle | createStart _ | createProbe _ | createHelper _ | malloc _ | deleteLookup _ _
  | ktimerDelete _ _ | lookup _ | lookupDone _ => trivial

/-- The assertions do not speak of the places. -/
theorem attrOk_goto (s : State) (act act' : Actor) (p q : Pc) :
    AttrOk (s.goto act' q) act p ↔ AttrOk s act p := by
  cases p with
  | ptr2id use a n => cases use <;> exact Iff.rfl
  | ptr2idDone use a id => cases use <;> exact Iff.rfl
  | _ => exact Iff.rfl

/-- The parts of the state that the attribution rests on are the same. -/
structure SameAttr (s s' : State) : Prop where
  ktimers : s'.ktimers = s.ktimers
  queue : s'.queue = s.queue
  timerAt : s'.timerAt = s.timerAt
  history : s'.history = s.history
  started : s'.started = s.started
  seq : s'.seq = s.seq
  heap : ∀ a, (s'.heap a).thrfunc = (s.heap a).thrfunc ∧ (s'.heap a).sival = (s.heap a).sival ∧
    (s'.heap a).ktimerid = (s.heap a).ktimerid
  owner : ∀ a, s.owner a ≠ .free → s'.owner a ≠ .free

namespace SameAttr

variable {s s' : State} {a : Addr}

/-- The same blocks are in the list. -/
theorem listed (h : SameAttr s s') : Listed s' a ↔ Listed s a := by
  unfold Listed
  rw [h.history]

/-- The same blocks have no kernel timer. -/
theorem noKernel (h : SameAttr s s') : NoKernel s' a ↔ NoKernel s a := by
  unfold NoKernel
  rw [h.ktimers]

/-- The same blocks have their parameters. -/
theorem params (h : SameAttr s s') : Params s' a ↔ Params s a := by
  unfold Params
  rw [h.timerAt, (h.heap a).1, (h.heap a).2.1]

/-- A notification stays right. -/
theorem noteOk (h : SameAttr s s') {note : Note} : NoteOk s' note ↔ NoteOk s note := by
  unfold NoteOk
  rw [h.listed, h.timerAt]

/-- The numbers of the notifications stay. -/
theorem noteSeqs (h : SameAttr s s') : noteSeqs s' = noteSeqs s := by
  unfold Timer.noteSeqs
  rw [h.started, h.queue]

/-- The same numbers are new. -/
theorem fresh (h : SameAttr s s') {n : Nat} : Fresh s' n ↔ Fresh s n := by
  unfold Fresh
  rw [h.noteSeqs, h.seq]

/-- What an actor relies on stays. -/
theorem attrOk (h : SameAttr s s') {act : Actor} {p : Pc} (hp : AttrOk s act p) :
    AttrOk s' act p := by
  cases p with
  | ptr2id use a n =>
      cases use with
      | create => trivial
      | free => exact h.noKernel.mpr hp
  | ptr2idDone use a id =>
      cases use with
      | create => trivial
      | free => exact h.noKernel.mpr hp
  | _ => first
    | exact hp
    | exact h.params.mpr hp
    | exact h.noKernel.mpr hp
    | exact ⟨hp.1, h.fresh.mpr hp.2.1, h.noteOk.mpr hp.2.2⟩
    | exact ⟨hp.1, h.fresh.mpr hp.2.1, hp.2.2⟩
    | simpa only [AttrOk, FromCall, h.timerAt, h.noKernel, h.params] using hp

/-- So everything is kept. -/
theorem keeps (h : SameAttr s s') (hI : AttrInv s) (act : Actor) : AttrKeeps act s s' := by
  constructor
  case inv =>
    constructor
    case kernel =>
      intro k kt hk hto
      rw [h.ktimers] at hk
      obtain ⟨ho, ht, hid⟩ := hI.kernel k kt hk hto
      exact ⟨h.owner _ ho, by rw [h.timerAt, ht], by rw [(h.heap _).2.2, hid]⟩
    case queue =>
      rw [h.queue, h.ktimers]
      exact hI.queue
    case params => exact fun a ha => h.params.mpr (hI.params a (h.listed.mp ha))
    case started =>
      rw [h.started]
      exact hI.started
    case nodup =>
      rw [h.noteSeqs]
      exact hI.nodup
    case lt =>
      rw [h.noteSeqs, h.seq]
      exact hI.lt
  case frame =>
    intro i _
    exact ⟨fun a _ => by rw [h.timerAt], fun a _ => ⟨(h.heap a).1, (h.heap a).2.1⟩,
      fun a _ => h.noKernel.mpr, fun note _ => h.noteOk.mpr, fun _ _ => h.fresh.mpr⟩

end SameAttr

/-! ### The updates that the attribution notices -/

/-- Only the struct at `a`, its timer and its owner differ. -/
structure AwayFrom (a : Addr) (s s' : State) : Prop where
  ktimers : s'.ktimers = s.ktimers
  queue : s'.queue = s.queue
  history : s'.history = s.history
  started : s'.started = s.started
  seq : s'.seq = s.seq
  timerAt : ∀ b, b ≠ a → s'.timerAt b = s.timerAt b
  heap : ∀ b, b ≠ a → s'.heap b = s.heap b
  owner : ∀ b, b ≠ a → s.owner b ≠ .free → s'.owner b ≠ .free

/-- A notification that is taken from the queue is no longer queued, and was not served. -/
theorem AttrInv.fresh_of_dequeue {s : State} (hI : AttrInv s) {n : Nat} {k : KernelTimerT}
    {note : Note} (hn : s.queue[n]? = some (.timer k note)) :
    Fresh { s with queue := s.queue.eraseIdx n } note.seq := by
  obtain ⟨hlt, hget⟩ := List.getElem?_eq_some_iff.mp hn
  -- The sequence numbers are a permutation of what they were, with the dequeued one in front.
  have hperm : (Signal.timer k note :: s.queue.eraseIdx n).Perm s.queue := by
    rw [← hget]
    exact List.getElem_cons_eraseIdx_perm hlt
  have hseqs : (note.seq :: noteSeqs { s with queue := s.queue.eraseIdx n }).Perm (noteSeqs s) := by
    unfold noteSeqs
    refine List.perm_middle.symm.trans (List.Perm.append_left _ ?_)
    exact hperm.filterMap Signal.noteSeq
  have hnd := hseqs.nodup_iff.mpr hI.nodup
  exact ⟨hI.lt _ (hseqs.subset List.mem_cons_self), (List.nodup_cons.mp hnd).1⟩

namespace AttrKeeps

variable {act : Actor} {s s' s'' : State} {a : Addr}

/-- One after the other. -/
theorem trans (h : AttrKeeps act s s') (h' : AttrKeeps act s' s'') (howner : s'.owner = s.owner)
    (hpc : s'.pc = s.pc) : AttrKeeps act s s'' := by
  refine ⟨h'.inv, fun i hi => ?_⟩
  have f := h.frame i hi
  have f' := h'.frame i hi
  constructor
  case timerAt =>
    exact fun a ha => (f'.timerAt a (howner ▸ ha)).trans (f.timerAt a ha)
  case params =>
    intro a ha
    have hp' := f'.params a (howner ▸ ha)
    exact ⟨hp'.1.trans (f.params a ha).1, hp'.2.trans (f.params a ha).2⟩
  case kernel => exact fun a ha hk => f'.kernel a (howner ▸ ha) (f.kernel a ha hk)
  case note => exact fun note hc hn => f'.note note (hpc ▸ hc) (f.note note hc hn)
  case fresh => exact fun hi n hn => f'.fresh hi n (f.fresh hi n hn)

/-- A struct that nothing points to changes: it is not on the list, no kernel timer carries
its address, and it is not another actor's. -/
theorem away (hI : AttrInv s) (h : AwayFrom a s s') (hl : ¬ Listed s a) (hk : NoKernel s a)
    (ho : ∀ i, s.owner a = .held i → i = act) : AttrKeeps act s s' := by
  have hlisted : ∀ b, Listed s' b ↔ Listed s b := by
    intro b
    unfold Listed
    rw [h.history]
  have hseqs : noteSeqs s' = noteSeqs s := by
    unfold noteSeqs
    rw [h.started, h.queue]
  constructor
  case inv =>
    constructor
    case kernel =>
      intro k kt hkt hto
      rw [h.ktimers] at hkt
      -- The kernel timer carries another address than `a`.
      have hne := hk k kt hkt hto
      obtain ⟨hfree, ht, hid⟩ := hI.kernel k kt hkt hto
      exact ⟨h.owner _ hne hfree, by rw [h.timerAt _ hne, ht], by rw [h.heap _ hne, hid]⟩
    case queue =>
      rw [h.queue, h.ktimers]
      exact hI.queue
    case params =>
      intro b hb
      have hb := (hlisted b).mp hb
      have hba : b ≠ a := by
        rintro rfl
        exact hl hb
      unfold Params
      rw [h.heap b hba, h.timerAt b hba]
      exact hI.params b hb
    case started =>
      rw [h.started]
      exact hI.started
    case nodup =>
      rw [hseqs]
      exact hI.nodup
    case lt =>
      rw [hseqs, h.seq]
      exact hI.lt
  case frame =>
    intro i hi
    have hne : ∀ b, s.owner b = .held i → b ≠ a := by
      rintro b hb rfl
      exact hi (ho i hb)
    constructor
    case timerAt => exact fun b hb => h.timerAt b (hne b hb)
    case params =>
      intro b hb
      rw [h.heap b (hne b hb)]
      exact ⟨rfl, rfl⟩
    case kernel =>
      intro b _ hb
      unfold NoKernel
      rw [h.ktimers]
      exact hb
    case note =>
      intro note _ hnote hm
      have hm := (hlisted _).mp hm
      rw [h.timerAt _ ?_]
      · exact hnote hm
      · intro heq
        exact hl (heq ▸ hm)
    case fresh =>
      intro _ n hn
      unfold Fresh
      rw [hseqs, h.seq]
      exact hn

/-- A new kernel timer. If it is for the helper thread, it carries the address of a struct of
the actor, which has its id, and it stands for the timer that lives there. -/
theorem addKernel (hI : AttrInv s) {k : KernelTimerT} {kt : KTimer} (hk : s.ktimers k = none)
    (hto : kt.toHelper = true → s.owner kt.event.sigevValue = .held act ∧
      s.timerAt kt.event.sigevValue = kt.inst ∧ (s.heap kt.event.sigevValue).ktimerid = k) :
    AttrKeeps act s { s with ktimers := Function.update s.ktimers k (some kt) } := by
  -- The id is new, so the kernel timers that exist stay.
  have hold : ∀ j, s.ktimers j ≠ none → Function.update s.ktimers k (some kt) j = s.ktimers j := by
    intro j hj
    refine Function.update_of_ne ?_ _ _
    rintro rfl
    exact hj hk
  constructor
  case inv =>
    constructor
    case kernel =>
      intro j kt' hj hto'
      change Function.update s.ktimers k (some kt) j = some kt' at hj
      by_cases hjk : j = k
      · subst hjk
        rw [Function.update_self] at hj
        cases hj
        obtain ⟨ho, ht, hid⟩ := hto hto'
        refine ⟨?_, ht, hid⟩
        show s.owner _ ≠ .free
        rw [ho]
        simp
      · rw [Function.update_of_ne hjk] at hj
        exact hI.kernel j kt' hj hto'
    case queue =>
      intro j note hnote
      obtain ⟨kt', hkt', hrest⟩ := hI.queue j note hnote
      exact ⟨kt', (hold j (by simp [hkt'])).trans hkt', hrest⟩
    case params => exact hI.params
    case started => exact hI.started
    case nodup => exact hI.nodup
    case lt => exact hI.lt
  case frame =>
    intro i hi
    refine ⟨fun _ _ => rfl, fun _ _ => ⟨rfl, rfl⟩, ?_, fun _ _ h => h, fun _ _ h => h⟩
    intro b hb hno j kt' hj hto'
    change Function.update s.ktimers k (some kt) j = some kt' at hj
    by_cases hjk : j = k
    · subst hjk
      rw [Function.update_self] at hj
      cases hj
      -- The address of the new kernel timer is the actor's, so it is not `b`.
      rintro rfl
      rw [(hto hto').1] at hb
      cases hb
      exact hi rfl
    · rw [Function.update_of_ne hjk] at hj
      exact hno j kt' hj hto'

/-- Fewer signals are queued. -/
theorem noteSeqs_sublist (hstarted : s'.started = s.started) (hsub : s'.queue.Sublist s.queue) :
    (noteSeqs s').Sublist (noteSeqs s) := by
  unfold noteSeqs
  rw [hstarted]
  exact List.Sublist.append (List.Sublist.refl _) (hsub.filterMap _)

/-- A kernel timer is deleted, and its signals are discarded. -/
theorem removeKernel (hI : AttrInv s) (k : KernelTimerT) {q : List Signal}
    (hsub : q.Sublist s.queue) (hq : ∀ j note, .timer j note ∈ q → j ≠ k) :
    AttrKeeps act s { s with ktimers := Function.update s.ktimers k none, queue := q } := by
  have hold : ∀ {j kt}, Function.update s.ktimers k none j = some kt → s.ktimers j = some kt := by
    intro j kt hj
    by_cases hjk : j = k
    · subst hjk
      simp at hj
    · rwa [Function.update_of_ne hjk] at hj
  have hseqs : (noteSeqs { s with ktimers := Function.update s.ktimers k none, queue := q }).Sublist
      (noteSeqs s) := noteSeqs_sublist rfl hsub
  constructor
  case inv =>
    constructor
    case kernel => exact fun j kt hj => hI.kernel j kt (hold hj)
    case queue =>
      intro j note hnote
      obtain ⟨kt, hkt, hrest⟩ := hI.queue j note (hsub.subset hnote)
      exact ⟨kt, (Function.update_of_ne (hq j note hnote) _ _).trans hkt, hrest⟩
    case params => exact hI.params
    case started => exact hI.started
    case nodup => exact hI.nodup.sublist hseqs
    case lt => exact fun n hn => hI.lt n (hseqs.subset hn)
  case frame =>
    intro i _
    exact ⟨fun _ _ => rfl, fun _ _ => ⟨rfl, rfl⟩, fun b _ hno j kt hj => hno j kt (hold hj),
      fun _ _ h => h, fun _ n hn => ⟨hn.1, fun hm => hn.2 (hseqs.subset hm)⟩⟩

/-- A signal is taken from the queue. -/
theorem dequeue (hI : AttrInv s) {q : List Signal} (hsub : q.Sublist s.queue) :
    AttrKeeps act s { s with queue := q } := by
  have hseqs : (noteSeqs { s with queue := q }).Sublist (noteSeqs s) := noteSeqs_sublist rfl hsub
  constructor
  case inv =>
    exact ⟨hI.kernel, fun k note hm => hI.queue k note (hsub.subset hm), hI.params, hI.started,
      hI.nodup.sublist hseqs,
      fun n hn => hI.lt n (hseqs.subset hn)⟩
  case frame =>
    intro i _
    exact ⟨fun _ _ => rfl, fun _ _ => ⟨rfl, rfl⟩, fun _ _ h => h, fun _ _ h => h,
      fun _ n hn => ⟨hn.1, fun hm => hn.2 (hseqs.subset hm)⟩⟩

/-- A kernel timer for the helper expires. -/
theorem expire (hI : AttrInv s) {k : KernelTimerT} {kt : KTimer} (hk : s.ktimers k = some kt)
    (hto : kt.toHelper = true) :
    AttrKeeps act s { s with
      queue := s.queue ++ [.timer k ⟨s.seq, kt.event.sigevValue, kt.inst⟩]
      seq := s.seq + 1 } := by
  have hseqs : noteSeqs { s with
      queue := s.queue ++ [.timer k ⟨s.seq, kt.event.sigevValue, kt.inst⟩]
      seq := s.seq + 1 } = noteSeqs s ++ [s.seq] := by
    simp [noteSeqs, Signal.noteSeq]
  constructor
  case inv =>
    constructor
    case kernel => exact hI.kernel
    case queue =>
      intro j note hm
      rcases List.mem_append.mp hm with hm | hm
      · exact hI.queue j note hm
      · cases List.mem_singleton.mp hm
        exact ⟨kt, hk, hto, rfl, rfl⟩
    case params => exact hI.params
    case started => exact hI.started
    case nodup =>
      rw [hseqs]
      -- The new number is above all that were used.
      refine List.nodup_append.mpr ⟨hI.nodup, List.nodup_singleton _, ?_⟩
      rintro n hn m hm rfl
      rw [List.mem_singleton.mp hm] at hn
      exact Nat.lt_irrefl _ (hI.lt _ hn)
    case lt =>
      rw [hseqs]
      intro n hn
      rcases List.mem_append.mp hn with hn | hn
      · exact Nat.lt_succ_of_lt (hI.lt n hn)
      · rw [List.mem_singleton.mp hn]
        exact Nat.lt_succ_self _
  case frame =>
    intro i _
    refine ⟨fun _ _ => rfl, fun _ _ => ⟨rfl, rfl⟩, fun _ _ h => h, fun _ _ h => h, ?_⟩
    rintro - n ⟨hlt, hn⟩
    refine ⟨Nat.lt_succ_of_lt hlt, ?_⟩
    rw [hseqs]
    intro hm
    rcases List.mem_append.mp hm with hm | hm
    · exact hn hm
    · exact Nat.ne_of_lt hlt (List.mem_singleton.mp hm)

/-- Somebody sends a signal that is no notification. -/
theorem send (hI : AttrInv s) (siCode : Int) :
    AttrKeeps act s { s with queue := s.queue ++ [.other siCode] } := by
  have hseqs : noteSeqs { s with queue := s.queue ++ [.other siCode] } = noteSeqs s := by
    simp [noteSeqs, Signal.noteSeq]
  constructor
  case inv =>
    refine ⟨hI.kernel, fun k note hm => ?_, hI.params, hI.started, by rw [hseqs]; exact hI.nodup,
      by rw [hseqs]; exact hI.lt⟩
    rcases List.mem_append.mp hm with hm | hm
    · exact hI.queue k note hm
    · cases List.mem_singleton.mp hm
  case frame =>
    intro i _
    refine ⟨fun _ _ => rfl, fun _ _ => ⟨rfl, rfl⟩, fun _ _ h => h, fun _ _ h => h, ?_⟩
    intro _ n hn
    unfold Fresh
    rw [hseqs]
    exact hn

/-- The helper starts a thread for the notification in its hands. -/
theorem addStarted (hI : AttrInv s) {st : Started} (hn : Fresh s st.note.seq)
    (hf : st.thrfunc = st.note.inst.thrfunc) (hv : st.sival = st.note.inst.sival) :
    AttrKeeps .helper s { s with started := st :: s.started } := by
  constructor
  case inv =>
    constructor
    case kernel => exact hI.kernel
    case queue => exact hI.queue
    case params => exact hI.params
    case started =>
      intro st' hst'
      rcases List.mem_cons.mp hst' with rfl | hst'
      · exact ⟨hf, hv⟩
      · exact hI.started st' hst'
    case nodup => exact List.nodup_cons.mpr ⟨hn.2, hI.nodup⟩
    case lt =>
      intro n hm
      rcases List.mem_cons.mp hm with rfl | hm
      · exact hn.1
      · exact hI.lt n hm
  case frame =>
    intro i hi
    exact ⟨fun _ _ => rfl, fun _ _ => ⟨rfl, rfl⟩, fun _ _ h => h, fun _ _ h => h,
      fun h => absurd h hi⟩

/-- The timer at `a` was pushed. No other actor has a notification in its hands that carries
the address and came from another timer. -/
theorem push (hI : AttrInv s) (ha : Params s a)
    (hok : ∀ i, i ≠ act → ∀ note, Carries (s.pc i) note → note.ptr = a →
      s.timerAt a = note.inst) :
    AttrKeeps act s { s with lock := none, history := .push a :: s.history } := by
  constructor
  case inv =>
    refine ⟨hI.kernel, hI.queue, ?_, hI.started, hI.nodup, hI.lt⟩
    intro b hb
    rcases List.mem_cons.mp hb with rfl | hb
    · exact ha
    · exact hI.params b hb
  case frame =>
    intro i hi
    refine ⟨fun _ _ => rfl, fun _ _ => ⟨rfl, rfl⟩, fun _ _ h => h, ?_, fun _ _ h => h⟩
    intro note hc hnote hm
    -- An address that was listed before is not `a`, and its timer is the one it was.
    rcases List.mem_cons.mp hm with heq | hm
    · show s.timerAt note.ptr = note.inst
      rw [heq]
      exact hok i hi note hc heq
    · exact hnote hm

/-- The timer at `a` was unlinked. -/
theorem unlink (hI : AttrInv s) :
    AttrKeeps act s { s with lock := none, history := .unlink a :: s.history } := by
  constructor
  case inv =>
    exact ⟨hI.kernel, hI.queue, fun b hb => hI.params b (List.mem_of_mem_erase hb), hI.started,
      hI.nodup, hI.lt⟩
  case frame =>
    intro i _
    exact ⟨fun _ _ => rfl, fun _ _ => ⟨rfl, rfl⟩, fun _ _ h => h,
      fun note _ hnote hm => hnote (List.mem_of_mem_erase hm), fun _ _ h => h⟩

end AttrKeeps

end GlibcPorts.Timer
