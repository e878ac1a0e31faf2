import GlibcPorts.Interfaces.IfIndex
import GlibcPorts.Proofs.Interfaces.Entries

/-!
# `GlibcPorts.Proofs.Interfaces.Iterate`: the interfaces that `if_iterate` delivers

`RouteBuf.ifList` is what the messages say: the index and the name of each interface that comes
with its name, in order. Over a reply with messages as the kernel writes them
(`WellFormedReply`), `if_iterate` is a recursion over this list (`deliver`), whatever function it
runs: `runOver_iterate` is the step from the messages to the list, and `ifIterate_eq` the run.
-/

set_option autoImplicit false

namespace GlibcPorts.Interfaces

open Lib

namespace RouteBuf

variable (buf : RouteBuf)

/-- The message at `p` is about an interface, and has its name. -/
def namesInterface (p : Nat) : Bool :=
  buf.rtmType p = RTM_IFINFO ∧ buf.ifmAddrs p &&& RTA_IFP ≠ 0

/-- The index and the name in the message at `p`. -/
def interfaceAt (p : Nat) : Nat × CString :=
  (buf.ifmIndex p, buf.namebuf (p + buf.ifmMsglen p - sizeofSockaddrDl - 2))

/-- The interfaces at some offsets. -/
def interfacesAt (ps : List Nat) : List (Nat × CString) :=
  (ps.filter buf.namesInterface).map buf.interfaceAt

/-- The interfaces in the order of their messages. -/
def ifList : List (Nat × CString) := buf.interfacesAt buf.messages

/-- What the kernel writes for a message: one of two types, with a length, and with the link
address of an interface at its end. -/
structure WellFormedMessage (p : Nat) : Prop where
  msglen_pos : 0 < buf.ifmMsglen p
  version : buf.rtmVersion p = RTM_VERSION
  type : buf.rtmType p = RTM_IFINFO ∨ buf.rtmType p = RTM_NEWADDR
  index_ne : buf.namesInterface p = true → buf.ifmIndex p ≠ 0
  sdl : buf.namesInterface p = true → sizeofSockaddrDl + 2 ≤ p + buf.ifmMsglen p

/-- All messages of a reply. -/
def WellFormedReply : Prop := ∀ p ∈ buf.messages, buf.WellFormedMessage p

/-- A name without a NUL is cut to `IFNAMSIZ` bytes. -/
theorem chars_namebuf {p : Nat} (h : 0 ∉ buf.sdlName p) :
    (buf.namebuf p).chars = (buf.sdlName p).take IFNAMSIZ := by
  have hcut : buf.bytes (p + 8) (min (buf.sdlNlen p) IFNAMSIZ) =
      (buf.sdlName p).take IFNAMSIZ := by
    rw [sdlName, bytes, bytes, ← List.map_take, List.take_range, Nat.min_comm]
  have hnul : 0 ∉ buf.bytes (p + 8) (min (buf.sdlNlen p) IFNAMSIZ) := by
    rw [hcut]
    exact fun hmem => h (List.mem_of_mem_take hmem)
  rw [namebuf, CString.upToNul_eq_self_of_noNul hnul, hcut]

end RouteBuf

section Deliver

variable {σ : Type} (fn : IfFn σ)

/-- Runs a function over some interfaces, until it says to stop. -/
def deliver : σ × Errno → List (Nat × CString) → Option (σ × Errno)
  | s, [] => some s
  | s, (index, name) :: rest => do
      let (stop, s') ← fn s.1 s.2 index name
      if stop then return s' else deliver s' rest

variable {fn} {buf : RouteBuf} {s s' : σ × Errno} {rest : List (Nat × CString)} {index : Nat}
  {name : CString}

/-- A callback that stops. -/
theorem deliver_cons_stop (h : fn s.1 s.2 index name = some (true, s')) :
    deliver fn s ((index, name) :: rest) = some s' := by
  simp [deliver, h]

/-- A callback that goes on. -/
theorem deliver_cons_next (h : fn s.1 s.2 index name = some (false, s')) :
    deliver fn s ((index, name) :: rest) = deliver fn s' rest := by
  simp [deliver, h]

/-- What is delivered in two parts, if the first does not end it. -/
theorem deliver_cons_eq (s : σ × Errno) (i : Nat × CString) (rest : List (Nat × CString)) :
    deliver fn s (i :: rest) =
      match fn s.1 s.2 i.1 i.2 with
      | none => none
      | some (true, s') => some s'
      | some (false, s') => deliver fn s' rest := by
  obtain ⟨index, name⟩ := i
  cases hfn : fn s.1 s.2 index name with
  | none => simp [deliver, hfn]
  | some r =>
      obtain ⟨stop, s'⟩ := r
      cases stop with
      | true => exact deliver_cons_stop hfn
      | false => exact deliver_cons_next hfn

/-- At an interface the function runs. -/
theorem iterateTurn_of_names (fn : IfFn σ) {p : Nat} (hp : buf.WellFormedMessage p)
    (hnames : buf.namesInterface p = true) (s : σ × Errno) :
    iterateTurn buf fn s p =
      (fn s.1 s.2 (buf.interfaceAt p).1 (buf.interfaceAt p).2).map fun r =>
        if r.1 then .inl (some r.2) else .inr r.2 := by
  have hsdl : buf.ifmSdl p = some (p + buf.ifmMsglen p - sizeofSockaddrDl - 2) :=
    if_pos (hp.sdl hnames)
  have htype : buf.rtmType p = RTM_IFINFO ∧ buf.ifmAddrs p &&& RTA_IFP ≠ 0 := by
    simpa [RouteBuf.namesInterface] using hnames
  rw [iterateTurn, if_neg (not_not.mpr hp.version), if_pos htype.1, if_pos htype.2,
    if_neg (hp.index_ne hnames), hsdl]
  simp only [Option.bind_eq_bind, Option.bind_some]
  cases hfn : fn s.1 s.2 (buf.interfaceAt p).1 (buf.interfaceAt p).2 <;>
    simp only [RouteBuf.interfaceAt] at hfn <;> simp [hfn]

/-- At other messages nothing happens. -/
theorem iterateTurn_of_not_names (fn : IfFn σ) {p : Nat} (hp : buf.WellFormedMessage p)
    (hnames : ¬ buf.namesInterface p = true) (s : σ × Errno) :
    iterateTurn buf fn s p = some (.inr s) := by
  rw [iterateTurn, if_neg (not_not.mpr hp.version)]
  by_cases hinfo : buf.rtmType p = RTM_IFINFO
  · have hifp : ¬ buf.ifmAddrs p &&& RTA_IFP ≠ 0 := fun hifp =>
      hnames (by simpa [RouteBuf.namesInterface, hinfo] using hifp)
    rw [if_pos hinfo, if_neg hifp]
  · rw [if_neg hinfo, if_pos (hp.type.resolve_left hinfo)]

/-- The loop over well-formed messages runs the function over their interfaces. Whether it left
the loop makes no difference behind it. -/
theorem runOver_iterate (fn : IfFn σ) {ps : List Nat} (hps : ∀ p ∈ ps, buf.WellFormedMessage p)
    (s : σ × Errno) :
    (runOver (iterateTurn buf fn) s ps).map (Sum.elim id some) =
      (deliver fn s (buf.interfacesAt ps)).map some := by
  induction ps generalizing s with
  | nil => rfl
  | cons p ps ih =>
      have hp := hps p List.mem_cons_self
      have hrest : ∀ q ∈ ps, buf.WellFormedMessage q := fun q hq =>
        hps q (List.mem_cons_of_mem p hq)
      -- A message is an interface of the list, or it is skipped on both sides.
      by_cases hnames : buf.namesInterface p = true
      · have hcons : buf.interfacesAt (p :: ps) = buf.interfaceAt p :: buf.interfacesAt ps := by
          rw [RouteBuf.interfacesAt, List.filter_cons_of_pos hnames]
          rfl
        have hturn := iterateTurn_of_names fn hp hnames s
        rw [hcons, runOver, hturn, deliver_cons_eq]
        cases fn s.1 s.2 (buf.interfaceAt p).1 (buf.interfaceAt p).2 with
        | none => rfl
        | some r =>
            obtain ⟨stop, s'⟩ := r
            -- The loop is left on both sides, or both go on with the rest.
            cases stop with
            | true => rfl
            | false => exact ih hrest s'
      · have hcons : buf.interfacesAt (p :: ps) = buf.interfacesAt ps := by
          rw [RouteBuf.interfacesAt, List.filter_cons_of_neg hnames]
          rfl
        have hturn := iterateTurn_of_not_names fn hp hnames s
        rw [hcons, runOver, hturn]
        exact ih hrest s

/-- The loop over a reply hands the interfaces to the callback. -/
theorem iterateBuf_eq (hwf : buf.WellFormedReply) (s : σ × Errno) :
    iterateBuf buf fn s =
      match deliver fn s buf.ifList with
      | some s' => .returned s'
      | none => .fault := by
  have hwalk : (walk (fun p => some (buf.ifmMsglen p)) (iterateTurn buf fn) buf.needed
      (buf.needed + 1) s 0).outcome = some (runOver (iterateTurn buf fn) s buf.messages) :=
    walk_cursors (fun p hp => (hwf p hp).msglen_pos) (Nat.succ_pos _) (by omega) s
  have hrun := runOver_iterate fn hwf s
  rw [iterateBuf]
  -- Whether the walk stopped or came to the end, the function has its result.
  cases hexit : walk (fun p => some (buf.ifmMsglen p)) (iterateTurn buf fn) buf.needed
      (buf.needed + 1) s 0 with
  | running =>
      rw [hexit] at hwalk
      cases hwalk
  | fault =>
      rw [hexit] at hwalk
      rw [← Option.some.inj hwalk] at hrun
      rw [RouteBuf.ifList, Option.map_eq_none_iff.mp hrun.symm]
  | stopped p r =>
      rw [hexit] at hwalk
      rw [← Option.some.inj hwalk] at hrun
      obtain ⟨s', hs', rfl⟩ := Option.map_eq_some_iff.mp hrun.symm
      rw [RouteBuf.ifList, hs']
  | ended p r =>
      rw [hexit] at hwalk
      rw [← Option.some.inj hwalk] at hrun
      obtain ⟨s', hs', hr⟩ := Option.map_eq_some_iff.mp hrun.symm
      rw [RouteBuf.ifList, hs', Option.some.inj hr]

end Deliver

/-- The kernel answers the calls of `__sysctl`, after any number of them with `ENOMEM`. -/
def Answers (sysctl : Nat → Nat → SysctlReply) (fuel : Nat) (r : Except Errno RouteBuf) : Prop :=
  ∃ s, forever (sysctlTurn sysctl) fuel (0, 512) = .left s r

section Answers

variable {sysctl : Nat → Nat → SysctlReply} {fuel : Nat}

/-- `bufsize` in front of a call of `__sysctl`, if all calls before it fail with `ENOMEM`. -/
def bufsizeAt (sysctl : Nat → Nat → SysctlReply) : Nat → Nat
  | 0 => 512
  | n + 1 => 2 * (sysctl n (bufsizeAt sysctl n)).buf.needed

/-- What the kernel says to that call. -/
def replyAt (sysctl : Nat → Nat → SysctlReply) (n : Nat) : SysctlReply :=
  sysctl n (bufsizeAt sysctl n)

/-- The first call of `__sysctl` that does not fail with `ENOMEM`. -/
structure FirstAnswer (sysctl : Nat → Nat → SysctlReply) (n : Nat) : Prop where
  before : ∀ k < n, (replyAt sysctl k).errno = some ENOMEM
  answer : (replyAt sysctl n).errno ≠ some ENOMEM

/-- There is one first answer. -/
theorem FirstAnswer.unique {n m : Nat} (hn : FirstAnswer sysctl n) (hm : FirstAnswer sysctl m) :
    n = m := by
  rcases Nat.lt_trichotomy n m with hlt | heq | hgt
  · exact absurd (hm.before n hlt) hn.answer
  · exact heq
  · exact absurd (hn.before m hgt) hm.answer

/-- What the loop leaves with: the reply, or the `errno` of the call. -/
def SysctlReply.toExcept (reply : SysctlReply) : Except Errno RouteBuf :=
  match reply.errno with
  | none => .ok reply.buf
  | some errno => .error errno

/-- `ENOMEM` leads to a larger buffer. -/
theorem sysctlTurn_of_enomem {n : Nat} (h : (replyAt sysctl n).errno = some ENOMEM) :
    sysctlTurn sysctl (n, bufsizeAt sysctl n) = some (.inr (n + 1, bufsizeAt sysctl (n + 1))) := by
  have herrno : (sysctl n (bufsizeAt sysctl n)).errno = some ENOMEM := h
  simp only [sysctlTurn, herrno, ne_eq, not_true_eq_false, if_false, bufsizeAt]

/-- Any other answer ends the loop. -/
theorem sysctlTurn_of_answer {n : Nat} (h : (replyAt sysctl n).errno ≠ some ENOMEM) :
    sysctlTurn sysctl (n, bufsizeAt sysctl n) = some (.inl (replyAt sysctl n).toExcept) := by
  cases herrno : (replyAt sysctl n).errno with
  | none =>
      have herrno' : (sysctl n (bufsizeAt sysctl n)).errno = none := herrno
      simp only [sysctlTurn, herrno', SysctlReply.toExcept, replyAt]
  | some errno =>
      have herrno' : (sysctl n (bufsizeAt sysctl n)).errno = some errno := herrno
      have hne : errno ≠ ENOMEM := fun heq => h (heq ▸ herrno)
      simp only [sysctlTurn, herrno', SysctlReply.toExcept, herrno, ne_eq, hne,
        not_false_eq_true, if_true]

/-- The kernel answers with the first call that does not fail with `ENOMEM`. -/
theorem FirstAnswer.answers {n : Nat} (h : FirstAnswer sysctl n) (hfuel : n < fuel) :
    Answers sysctl fuel (replyAt sysctl n).toExcept :=
  ⟨_, forever_eq_left (f := fun k => (k, bufsizeAt sysctl k))
    (fun k hk => sysctlTurn_of_enomem (h.before k hk)) (sysctlTurn_of_answer h.answer) hfuel⟩

/-- An answer is that of a first call that does not fail with `ENOMEM`. -/
theorem Answers.exists_firstAnswer {r : Except Errno RouteBuf} (h : Answers sysctl fuel r) :
    ∃ n, FirstAnswer sysctl n ∧ r = (replyAt sysctl n).toExcept := by
  obtain ⟨s, hs⟩ := h
  -- All calls of the turns so far got `ENOMEM`.
  have hkeep : ∀ s s' : Nat × Nat,
      (s.2 = bufsizeAt sysctl s.1 ∧ ∀ k < s.1, (replyAt sysctl k).errno = some ENOMEM) →
      sysctlTurn sysctl s = some (.inr s') →
      s'.2 = bufsizeAt sysctl s'.1 ∧ ∀ k < s'.1, (replyAt sysctl k).errno = some ENOMEM := by
    rintro ⟨n, bufsize⟩ s' ⟨hsize, hbefore⟩ hturn
    obtain rfl : bufsize = bufsizeAt sysctl n := hsize
    by_cases herrno : (replyAt sysctl n).errno = some ENOMEM
    · rw [sysctlTurn_of_enomem herrno] at hturn
      cases hturn
      refine ⟨rfl, fun k hk => ?_⟩
      rcases Nat.lt_succ_iff_lt_or_eq.mp hk with hlt | rfl
      · exact hbefore k hlt
      · exact herrno
    · rw [sysctlTurn_of_answer herrno] at hturn
      cases hturn
  obtain ⟨⟨hsize, hbefore⟩, hturn⟩ :=
    of_forever_left hkeep ⟨rfl, fun k hk => absurd hk (Nat.not_lt_zero k)⟩ hs
  obtain ⟨n, bufsize⟩ := s
  obtain rfl : bufsize = bufsizeAt sysctl n := hsize
  -- The turn that left the loop had another answer.
  by_cases herrno : (replyAt sysctl n).errno = some ENOMEM
  · rw [sysctlTurn_of_enomem herrno] at hturn
    cases hturn
  · rw [sysctlTurn_of_answer herrno] at hturn
    cases hturn
    exact ⟨n, ⟨hbefore, herrno⟩, rfl⟩

/-- What `if_iterate` does behind the answer does not depend on the function it runs. -/
theorem Answers.ifIterate_eq {buf : RouteBuf} (h : Answers sysctl fuel (.ok buf))
    (hwf : buf.WellFormedReply) (errno : Errno) :
    ∃ errno', ∀ {σ : Type} (fn : IfFn σ) (s : σ), ifIterate sysctl fuel fn s errno =
      match deliver fn (s, errno') buf.ifList with
      | some s' => .returned s'
      | none => .fault := by
  obtain ⟨⟨calls, bufsize⟩, hs⟩ := h
  refine ⟨if calls = 0 then errno else ENOMEM, fun fn s => ?_⟩
  rw [ifIterate, hs]
  exact iterateBuf_eq hwf _

/-- A failure of `__sysctl` leaves the variables as they were. -/
theorem Answers.ifIterate_error {errno' : Errno} (h : Answers sysctl fuel (.error errno'))
    {σ : Type} (fn : IfFn σ) (s : σ) (errno : Errno) :
    ifIterate sysctl fuel fn s errno = .returned (s, errno') := by
  obtain ⟨⟨calls, bufsize⟩, hs⟩ := h
  rw [ifIterate, hs]

end Answers

end GlibcPorts.Interfaces
