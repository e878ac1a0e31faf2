import GlibcPorts.Proofs.Timer.Calls

/-!
# `GlibcPorts.Proofs.Timer.LiveTable`: the table has allocated structs

`LiveTable` is what every call and every `fork` keep of the id table: the slots are those of
`__all_timers`, and each struct in them is allocated and in one slot. `LiveTable.addSlot` and
`LiveTable.removeSlot` are the two stores to the table.
-/

set_option autoImplicit false

namespace GlibcPorts.Timer

/-- The structs of the table are allocated, and each is in one slot. -/
structure LiveTable (proc : Process) : Prop where
  lt : ∀ i a, proc.allTimers i = some a → i < TIMER_MAX
  inj : ∀ i j a, proc.allTimers i = some a → proc.allTimers j = some a → i = j
  allocated : ∀ i a, proc.allTimers i = some a → proc.allocated a = true

namespace LiveTable

variable {proc proc' : Process} {a b : Addr} {i j : Nat}

/-- The same table, and its structs are not freed. -/
theorem congr (h : LiveTable proc) (htable : proc'.allTimers = proc.allTimers)
    (halloc : ∀ i a, proc.allTimers i = some a → proc'.allocated a = true) : LiveTable proc' :=
  ⟨by rw [htable]; exact h.lt, by rw [htable]; exact h.inj, by rw [htable]; exact halloc⟩

/-- A block that is not allocated is no struct of the table. -/
theorem ne_of_free (h : LiveTable proc) (hfree : proc.allocated a = false)
    (hj : proc.allTimers j = some b) : b ≠ a := by
  rintro rfl
  have halloc := h.allocated j b hj
  rw [hfree] at halloc
  cases halloc

/-- A struct that is free is not in the table. -/
theorem not_mem (h : LiveTable proc) (hfree : proc.allocated a = false) (i : Nat) :
    proc.allTimers i ≠ some a := fun hi => h.ne_of_free hfree hi rfl

/-- A new struct in the slot `i`. -/
theorem addSlot (h : LiveTable proc) (hi : i < TIMER_MAX) (hfree : proc.allocated a = false)
    (htable : proc'.allTimers = Function.update proc.allTimers i (some a))
    (halloc : proc'.allocated = Function.update proc.allocated a true) : LiveTable proc' := by
  have hslot : ∀ j b, proc'.allTimers j = some b →
      j = i ∧ b = a ∨ j ≠ i ∧ proc.allTimers j = some b :=
    fun j b hj => slot_of_update_some (htable ▸ hj)
  constructor
  case lt =>
    intro j b hj
    rcases hslot j b hj with ⟨rfl, -⟩ | ⟨-, hj⟩
    · exact hi
    · exact h.lt j b hj
  case inj =>
    intro j k b hj hk
    rcases hslot j b hj with ⟨rfl, rfl⟩ | ⟨-, hj⟩
    · rcases hslot k b hk with ⟨rfl, -⟩ | ⟨-, hk⟩
      · rfl
      · exact absurd rfl (h.ne_of_free hfree hk)
    · rcases hslot k b hk with ⟨-, rfl⟩ | ⟨-, hk⟩
      · exact absurd rfl (h.ne_of_free hfree hj)
      · exact h.inj j k b hj hk
  case allocated =>
    intro j b hj
    rw [halloc]
    rcases hslot j b hj with ⟨-, rfl⟩ | ⟨-, hj⟩
    · exact Function.update_self _ _ _
    · rw [Function.update_of_ne (h.ne_of_free hfree hj)]
      exact h.allocated j b hj

/-- The structs that stay when the slot of `a` becomes empty. -/
theorem slot_removed_iff (h : LiveTable proc) (hslot : proc.allTimers i = some a)
    (htable : proc'.allTimers = Function.update proc.allTimers i none) :
    proc'.allTimers j = some b ↔ proc.allTimers j = some b ∧ b ≠ a := by
  constructor
  · intro hj
    obtain ⟨hji, hj⟩ := slot_of_update_none (htable ▸ hj)
    refine ⟨hj, ?_⟩
    rintro rfl
    exact hji (h.inj j i b hj hslot)
  · rintro ⟨hj, hb⟩
    have hji : j ≠ i := by
      rintro rfl
      rw [hslot] at hj
      cases hj
      exact hb rfl
    rw [htable, Function.update_of_ne hji]
    exact hj

/-- The struct in the slot `i` is removed. -/
theorem removeSlot (h : LiveTable proc) (hslot : proc.allTimers i = some a)
    (htable : proc'.allTimers = Function.update proc.allTimers i none)
    (halloc : ∀ b, b ≠ a → proc'.allocated b = proc.allocated b) : LiveTable proc' := by
  have hold : ∀ j b, proc'.allTimers j = some b → proc.allTimers j = some b ∧ b ≠ a :=
    fun j b hj => (h.slot_removed_iff hslot htable).mp hj
  constructor
  case lt => exact fun j b hj => h.lt j b (hold j b hj).1
  case inj => exact fun j k b hj hk => h.inj j k b (hold j b hj).1 (hold k b hk).1
  case allocated =>
    intro j b hj
    obtain ⟨hj, hb⟩ := hold j b hj
    rw [halloc b hb]
    exact h.allocated j b hj

/-- Freeing any struct leaves the others. -/
theorem timerFree (h : LiveTable proc) (a : Addr) : LiveTable (proc.timerFree a) := by
  have hslots : ∀ j b, (proc.timerFree a).allTimers j = some b →
      proc.allTimers j = some b ∧ b ≠ a := by
    intro j b hj
    change (if (j : Int) = kfreebsdTimerPtr2id proc.allTimers a then none
      else proc.allTimers j) = some b at hj
    split at hj
    · cases hj
    · next hid =>
      refine ⟨hj, ?_⟩
      rintro rfl
      exact hid (ptr2id_eq (h.lt j b hj) hj fun k hk => h.inj k j b hk hj).symm
  constructor
  case lt => exact fun j b hj => h.lt j b (hslots j b hj).1
  case inj => exact fun j k b hj hk => h.inj j k b (hslots j b hj).1 (hslots k b hk).1
  case allocated =>
    intro j b hj
    obtain ⟨hj, hb⟩ := hslots j b hj
    exact (Function.update_of_ne hb _ _).trans (h.allocated j b hj)

/-- The removal from the active list leaves the table alone. -/
theorem unlink (h : LiveTable proc) (hunlink : proc.unlink a = some proc') : LiveTable proc' := by
  unfold Process.unlink at hunlink
  split at hunlink
  · cases hunlink
    exact h.congr rfl h.allocated
  · obtain ⟨heap, -, rfl⟩ := Option.map_eq_some_iff.mp hunlink
    exact h.congr rfl h.allocated

/-- `timer_delete` frees the struct that it takes out. -/
theorem timerDelete (h : LiveTable proc) {res : Except Errno Unit} {id : TimerT} {r : CallResult}
    (hdelete : proc.timerDelete res id = some (r, proc')) : LiveTable proc' := by
  unfold Process.timerDelete at hdelete
  split at hdelete
  · split at hdelete
    · cases hdelete
      exact h
    · next kt hid =>
      cases res with
      | ok u =>
          obtain ⟨p, hp, heq⟩ := Option.map_eq_some_iff.mp hdelete
          cases heq
          unfold Process.deleteTimer at hp
          obtain ⟨q, hq, rfl⟩ := Option.map_eq_some_iff.mp hp
          have hlive : LiveTable { proc with
              ktimers := proc.ktimers.filter fun t => t.1 ≠ (proc.heap kt).ktimerid } :=
            h.congr rfl h.allocated
          have hq' : LiveTable q := by
            split at hq
            · exact hlive.unlink hq
            · cases hq
              exact hlive
          have hvar : LiveTable { q with noPosixTimers := 1 } := hq'.congr rfl hq'.allocated
          exact hvar.timerFree kt
      | error e =>
          dsimp only at hdelete
          split at hdelete
          · cases hdelete
            exact h.congr rfl h.allocated
          · cases hdelete
            exact h.congr rfl h.allocated
  · cases hdelete
    exact h

/-- The other calls change nothing. -/
theorem ktimerCall (h : LiveTable proc) (call : Ktimer) (res : Except Errno Int) (id : TimerT) :
    LiveTable (proc.ktimerCall call res id).2.2 := by
  have hvar : ∀ n, LiveTable { proc with noPosixTimers := n } := fun n => h.congr rfl h.allocated
  unfold Process.ktimerCall
  split
  · split
    · exact h
    · cases res with
      | ok r => exact hvar 1
      | error e =>
          dsimp only
          split
          · exact hvar (-1)
          · exact hvar 1
  · exact h

/-- The child has the table of its parent. -/
theorem fork (h : LiveTable proc) : LiveTable proc.fork := by
  unfold Process.fork Process.resetHelperControl
  dsimp only
  split
  · exact h.congr rfl h.allocated
  · exact h.congr rfl h.allocated

end LiveTable

end GlibcPorts.Timer
