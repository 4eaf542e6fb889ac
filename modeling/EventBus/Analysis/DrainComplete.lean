import EventBus.Interface.LoopSteps

/-!
# How many handlers run and what a drain leaves

A permit is free, with the task or with a worker (`InBalance`), and a worker gives it back
however it ends.  A message that was taken is with the task, with a worker or has ended
(`NoneLost`).  And once the signal is sent the task comes to the stream at most once more,
because it looks before it does (`AfterSignal`).  `drain_complete` puts the three together.
-/

set_option autoImplicit false

namespace EventBus.Analysis

open EventBus.Model EventBus.Lib EventBus.Interface

variable {s s' : LoopState} {a : LoopAction} {p q : LoopPoint} {n : ℕ}
  {b : Duration} {log since before : List LoopEvent}

/-! ## No message is lost -/

/-- A message that was taken is with the task or with a worker, or its call has ended, unless
the task was aborted. -/
structure NoneLost (s : LoopState) : Prop where
  pending : ∀ n, s.point.pending = some n → .taken n ∈ s.log
  taken : ∀ n, .taken n ∈ s.log →
    s.point.pending = some n ∨ n ∈ s.running ∨ .ended n ∈ s.log ∨ s.point = .cancelled

/-- INTERNAL: a step that neither takes a message nor gives one away. -/
theorem NoneLost.of_idle (hs : NoneLost s) (hrunning : s'.running = s.running)
    (htaken : ∀ n, .taken n ∈ s'.log ↔ .taken n ∈ s.log) (hlog : s.log ⊆ s'.log)
    (hp : s.point.pending = s'.point.pending)
    (hcancel : s.point = .cancelled → s'.point = .cancelled) : NoneLost s' where
  pending n hn := (htaken n).mpr (hs.pending n (hp.trans hn))
  taken n hn := by
    rw [← hp, hrunning]
    rcases hs.taken n ((htaken n).mp hn) with h | h | h | h
    · exact Or.inl h
    · exact Or.inr (Or.inl h)
    · exact Or.inr (Or.inr (Or.inl (hlog h)))
    · exact Or.inr (Or.inr (Or.inr (hcancel h)))

/-- INTERNAL: every step keeps track of the messages. -/
theorem noneLost_step (h : s.step a = some s') (hs : NoneLost s) : NoneLost s' := by
  have moved : ∀ {t : LoopState}, t.running = s.running → t.log = s.log →
      s.point.pending = t.point.pending → s.point ≠ .cancelled → NoneLost t := by
    intro t hrunning hlog hp hne
    refine hs.of_idle hrunning ?_ ?_ hp (fun hc => absurd hc hne)
    · intro n
      rw [hlog]
    · rw [hlog]
      exact List.Subset.refl _
  cases loopStep_of_step h with
  | move hmove =>
    obtain ⟨hbefore, hafter⟩ := idle_of_move hmove
    exact moved rfl rfl (hbefore.pending.trans hafter.pending.symm) hbefore.not_cancelled
  | look hlook =>
    obtain ⟨hbefore, hafter⟩ := idle_of_look hlook
    refine hs.of_idle rfl ?_ (List.subset_cons_self _ _)
      (hbefore.pending.trans hafter.pending.symm) ?_
    · intro n
      exact ⟨fun hn => (List.mem_cons.mp hn).resolve_left (by simp), List.mem_cons_of_mem _⟩
    · intro hc
      exact absurd hc hbefore.not_cancelled
  | @message b hp =>
    constructor
    · intro n hn
      obtain rfl : s.taken = n := Option.some.inj hn
      exact List.mem_cons_self
    · intro n hn
      rcases List.mem_cons.mp hn with hnew | hold
      · obtain rfl := LoopEvent.taken.inj hnew
        exact Or.inl rfl
      · have hold := hs.taken n hold
        rw [hp] at hold
        rcases hold with h | h | h | h
        · cases h
        · exact Or.inr (Or.inl h)
        · exact Or.inr (Or.inr (Or.inl (List.mem_cons_of_mem _ h)))
        · cases h
  | joined hp hn => exact moved rfl rfl (by rw [hp]; rfl) (by rw [hp]; simp)
  | joinedLast hp hn => exact moved rfl rfl (by rw [hp]) (by rw [hp]; simp)
  | acquire hp hfree => exact moved rfl rfl (by rw [hp]; rfl) (by rw [hp]; simp)
  | @spawn b n hp =>
    constructor
    · intro m hm
      cases hm
    · intro m hm
      have hold := hs.taken m ((List.mem_cons.mp hm).resolve_left (by simp))
      rw [hp] at hold
      rcases hold with h | h | h | h
      · obtain rfl := Option.some.inj h
        exact Or.inr (Or.inl List.mem_cons_self)
      · exact Or.inr (Or.inl (List.mem_cons_of_mem _ h))
      · exact Or.inr (Or.inr (Or.inl (List.mem_cons_of_mem _ h)))
      · cases h
  | allJoined hp hrunning hfinished => exact moved rfl rfl (by rw [hp]; rfl) (by rw [hp]; simp)
  | @finish n ending hn hcancel =>
    constructor
    · intro m hm
      exact List.mem_cons_of_mem _ (hs.pending m hm)
    · intro m hm
      rcases hs.taken m ((List.mem_cons.mp hm).resolve_left (by simp)) with h | h | h | h
      · exact Or.inl h
      · by_cases hmn : m = n
        · subst hmn
          exact Or.inr (Or.inr (Or.inl List.mem_cons_self))
        · exact Or.inr (Or.inl ((List.mem_erase_of_ne hmn).mpr h))
      · exact Or.inr (Or.inr (Or.inl (List.mem_cons_of_mem _ h)))
      · exact Or.inr (Or.inr (Or.inr h))
  | drain hopen =>
    refine hs.of_idle rfl ?_ (List.subset_cons_self _ _) rfl id
    intro n
    exact ⟨fun hn => (List.mem_cons.mp hn).resolve_left (by simp), List.mem_cons_of_mem _⟩
  | returned hdraining hp => exact ⟨hs.pending, hs.taken⟩
  | timeout hdraining hp => exact ⟨hs.pending, hs.taken⟩
  | drop hopen => exact ⟨hs.pending, hs.taken⟩
  | cancel haborted hp =>
    constructor
    · intro n hn
      cases hn
    · intro n _
      exact Or.inr (Or.inr (Or.inr rfl))

/-! ## Where a drain that returns `true` leaves the task -/

/-- When the task has ended no worker runs, and a drain has returned `true` only then. -/
structure Joined (s : LoopState) : Prop where
  ended : s.point = .ended → s.running = []
  drained : s.handle = .drained true → s.point = .ended

/-- INTERNAL: every step keeps track of the workers that are joined. -/
theorem joined_step (h : s.step a = some s') (hs : Joined s) : Joined s' := by
  have moved : ∀ {t : LoopState}, t.handle = s.handle → s.point ≠ .ended → t.point ≠ .ended →
      Joined t := by
    intro t hhandle hp hq
    constructor
    · intro hended
      exact absurd hended hq
    · intro hdrained
      exact absurd (hs.drained (hhandle ▸ hdrained)) hp
  have unended : ∀ {p : LoopPoint}, s.point = p → p ≠ .ended → s.point ≠ .ended := by
    intro p hp hne hended
    exact hne (hp.symm.trans hended)
  cases loopStep_of_step h with
  | move hmove =>
    obtain ⟨hbefore, hafter⟩ := idle_of_move hmove
    exact moved rfl hbefore.not_ended hafter.not_ended
  | look hlook =>
    obtain ⟨hbefore, hafter⟩ := idle_of_look hlook
    exact moved rfl hbefore.not_ended hafter.not_ended
  | message hp => exact moved rfl (unended hp nofun) nofun
  | joined hp hn => exact moved rfl (unended hp nofun) nofun
  | joinedLast hp hn => exact moved rfl (unended hp nofun) nofun
  | acquire hp hfree => exact moved rfl (unended hp nofun) nofun
  | spawn hp => exact moved rfl (unended hp nofun) nofun
  | allJoined hp hrunning hfinished =>
    constructor
    · intro _
      exact hrunning
    · intro _
      rfl
  | @finish n ending hn hcancel =>
    constructor
    · intro hended
      rw [hs.ended hended] at hn
      cases hn
    · intro hdrained
      exact hs.drained hdrained
  | drain hopen =>
    constructor
    · intro hended
      exact hs.ended hended
    · intro hdrained
      cases hdrained
  | returned hdraining hp =>
    constructor
    · intro hended
      exact hs.ended hended
    · intro _
      exact hp
  | timeout hdraining hp =>
    constructor
    · intro hended
      exact absurd hended hp
    · intro hdrained
      cases hdrained
  | drop hopen =>
    constructor
    · intro hended
      exact hs.ended hended
    · intro hdrained
      cases hdrained
  | cancel haborted hp =>
    have hne : s.point ≠ .ended := by
      intro hended
      rw [hended] at hp
      cases hp
    exact moved rfl hne nofun

/-! ## What is dispatched after the signal -/

/-- The worker of a message was started. -/
def isDispatched : LoopEvent → Bool
  | .dispatched _ => true
  | _ => false

/-- The message was taken before the signal, or after it and before the task looked again. -/
def TakenUnseen (since before : List LoopEvent) (n : ℕ) : Prop :=
  .taken n ∈ before ∨
    ∃ later earlier, since = later ++ .taken n :: earlier ∧ .looked ∉ earlier

/-- After the signal at most one message is dispatched, and it was taken before the task
looked at the signal again. -/
def LastDispatch (log : List LoopEvent) : Prop :=
  ∀ since before, log = since ++ .signalled :: before →
    since.countP isDispatched ≤ 1 ∧
      ∀ n, .dispatched n ∈ since → TakenUnseen since before n

/-- The task has looked and found no signal, and has dispatched nothing since then. -/
def unseen : LoopPoint → Bool
  | .polled _ | .permit _ _ | .dispatch _ _ => true
  | _ => false

/-- The invariant after the signal, of the point of the task and of what was noted since. -/
structure AfterSignal (since before : List LoopEvent) (p : LoopPoint) : Prop where
  once : since.countP isDispatched ≤ 1
  dispatched : ∀ n, .dispatched n ∈ since → TakenUnseen since before n
  pending : ∀ n, p.pending = some n → TakenUnseen since before n
  unseen : unseen p = true → since.countP isDispatched = 0 ∧ .looked ∉ since

/-- INTERNAL: a line more changes nothing of what came before. -/
theorem TakenUnseen.cons (h : TakenUnseen since before n) (e : LoopEvent) :
    TakenUnseen (e :: since) before n := by
  rcases h with h | ⟨later, earlier, rfl, hlooked⟩
  · exact Or.inl h
  · exact Or.inr ⟨e :: later, earlier, rfl, hlooked⟩

/-- INTERNAL: the task goes on with its message or without one. -/
theorem AfterSignal.goto (h : AfterSignal since before p)
    (hpending : ∀ n, q.pending = some n → p.pending = some n)
    (hunseen : EventBus.Analysis.unseen q = true → EventBus.Analysis.unseen p = true) :
    AfterSignal since before q where
  once := h.once
  dispatched := h.dispatched
  pending n hn := h.pending n (hpending n hn)
  unseen hq := h.unseen (hunseen hq)

/-- INTERNAL: something is noted that is no dispatch, and at an unseen point no look. -/
theorem AfterSignal.cons (h : AfterSignal since before p) {e : LoopEvent}
    (he : isDispatched e = false) (hlooked : EventBus.Analysis.unseen p = true → e ≠ .looked) :
    AfterSignal (e :: since) before p where
  once := by
    rw [List.countP_cons, he]
    exact h.once
  dispatched n hn := by
    apply TakenUnseen.cons
    apply h.dispatched
    rcases List.mem_cons.mp hn with hnew | hold
    · rw [← hnew] at he
      cases he
    · exact hold
  pending n hn := (h.pending n hn).cons e
  unseen hp := by
    have hunseen := h.unseen hp
    rw [List.countP_cons, he]
    refine ⟨hunseen.1, fun hmem => ?_⟩
    rcases List.mem_cons.mp hmem with hnew | hold
    · exact hlooked hp hnew.symm
    · exact hunseen.2 hold

/-- INTERNAL: a message is taken at an unseen point. -/
theorem AfterSignal.take (h : AfterSignal since before (.polled b)) :
    AfterSignal (.taken n :: since) before (.permit b n) := by
  have htaken : AfterSignal (.taken n :: since) before (.polled b) := h.cons rfl fun _ => nofun
  constructor
  · exact htaken.once
  · exact htaken.dispatched
  · intro m hm
    obtain rfl := Option.some.inj hm
    exact Or.inr ⟨[], since, rfl, (h.unseen rfl).2⟩
  · intro _
    exact htaken.unseen rfl

/-- INTERNAL: the message of the task is dispatched. -/
theorem AfterSignal.dispatch (h : AfterSignal since before (.dispatch b n)) :
    AfterSignal (.dispatched n :: since) before (.select b) where
  once := by
    rw [List.countP_cons, (h.unseen rfl).1]
    exact Nat.le_refl 1
  dispatched m hm := by
    apply TakenUnseen.cons
    rcases List.mem_cons.mp hm with hnew | hold
    · obtain rfl := LoopEvent.dispatched.inj hnew
      exact h.pending m rfl
    · exact h.dispatched m hold
  pending m hm := nomatch hm
  unseen hp := nomatch hp

/-- INTERNAL: the signal that splits a log is older than what was noted after it. -/
theorem split_cons {e : LoopEvent} (he : e ≠ .signalled)
    (h : e :: log = since ++ .signalled :: before) :
    ∃ rest, since = e :: rest ∧ log = rest ++ .signalled :: before := by
  rcases List.cons_eq_append_iff.mp h with ⟨rfl, hhead⟩ | ⟨rest, rfl, hrest⟩
  · exact absurd (List.cons.inj hhead).1.symm he
  · exact ⟨rest, rfl, hrest⟩

/-- Once the signal is sent the handle is not open, and `AfterSignal` holds. -/
structure Signals (s : LoopState) : Prop where
  shut : .signalled ∈ s.log → s.handle ≠ .open
  after : ∀ since before, s.log = since ++ .signalled :: before →
    AfterSignal since before s.point

/-- INTERNAL: nothing is noted. -/
theorem Signals.goto (hs : Signals s) (hlog : s'.log = s.log)
    (hhandle : s.handle ≠ .open → s'.handle ≠ .open)
    (hpending : ∀ n, s'.point.pending = some n → s.point.pending = some n)
    (hunseen : unseen s'.point = true → unseen s.point = true) : Signals s' where
  shut hsignalled := by
    rw [hlog] at hsignalled
    exact hhandle (hs.shut hsignalled)
  after since before hsplit := by
    rw [hlog] at hsplit
    exact (hs.after since before hsplit).goto hpending hunseen

/-- INTERNAL: something that is no signal is noted. -/
theorem Signals.note (hs : Signals s) {e : LoopEvent} (hlog : s'.log = e :: s.log)
    (hhandle : s'.handle = s.handle) (he : e ≠ .signalled)
    (hafter : ∀ rest before, s.log = rest ++ .signalled :: before →
      AfterSignal rest before s.point → AfterSignal (e :: rest) before s'.point) :
    Signals s' where
  shut hsignalled := by
    rw [hlog] at hsignalled
    rw [hhandle]
    exact hs.shut ((List.mem_cons.mp hsignalled).resolve_left fun hnew => he hnew.symm)
  after since before hsplit := by
    rw [hlog] at hsplit
    obtain ⟨rest, rfl, hrest⟩ := split_cons he hsplit
    exact hafter rest before hrest (hs.after rest before hrest)

/-- INTERNAL: the signal is sent once. -/
theorem Signals.drain (hs : Signals s) (hlost : NoneLost s) (hopen : s.handle = .open) :
    Signals ({ s with handle := .draining }.note .signalled) where
  shut _ := nofun
  after since before hsplit := by
    have hfirst : LoopEvent.signalled ∉ s.log := fun hsignalled => hs.shut hsignalled hopen
    rcases List.cons_eq_append_iff.mp hsplit with ⟨rfl, hhead⟩ | ⟨rest, rfl, hrest⟩
    · obtain rfl := (List.cons.inj hhead).2
      constructor
      · exact Nat.zero_le 1
      · intro n hn
        cases hn
      · intro n hn
        exact Or.inl (hlost.pending n hn)
      · intro _
        exact ⟨rfl, List.not_mem_nil⟩
    · apply absurd _ hfirst
      rw [hrest]
      exact List.mem_append_right _ List.mem_cons_self

/-- INTERNAL: every step keeps what the shutdown signal means. -/
theorem signals_step (h : s.step a = some s') (hlost : NoneLost s) (hs : Signals s) :
    Signals s' := by
  cases loopStep_of_step h with
  | @move _ q hmove =>
    have hpending := (idle_of_move hmove).2.pending
    have hq : unseen q = false := by
      generalize s.point = p at hmove
      cases hmove with
      | @answered p q ok hanswer => cases p <;> cases hanswer <;> cases ok <;> rfl
      | notice hshut => rfl
      | timer => rfl
      | itemError => rfl
      | streamEnded => rfl
      | nothing => rfl
    refine hs.goto rfl id ?_ ?_
    · intro n hn
      exact absurd (hpending.symm.trans hn) nofun
    · intro hunseen
      exact absurd (hq.symm.trans hunseen) nofun
  | @look q hlook =>
    refine hs.note rfl rfl nofun ?_
    intro rest before hrest hafter
    -- the signal is there to be seen, and the task goes to join its workers
    have hshut : s.shut = true := by
      have hsignalled : LoopEvent.signalled ∈ s.log := by
        rw [hrest]
        exact List.mem_append_right _ List.mem_cons_self
      unfold LoopState.shut
      simpa using hs.shut hsignalled
    have hq : q = .joining := by
      rw [hshut] at hlook
      generalize s.point = p at hlook
      cases p <;> cases hlook <;> rfl
    show AfterSignal (.looked :: rest) before q
    rw [hq]
    have hjoining : AfterSignal rest before .joining := hafter.goto nofun nofun
    exact hjoining.cons rfl nofun
  | @message b hp =>
    refine hs.note rfl rfl nofun ?_
    intro rest before _ hafter
    rw [hp] at hafter
    exact hafter.take
  | joined hp hn => exact hs.goto rfl id nofun nofun
  | joinedLast hp hn => exact hs.goto rfl id nofun nofun
  | acquire hp hfree =>
    refine hs.goto rfl id ?_ ?_
    · intro n hn
      rw [hp]
      exact hn
    · intro _
      rw [hp]
      rfl
  | @spawn b n hp =>
    refine hs.note rfl rfl nofun ?_
    intro rest before _ hafter
    rw [hp] at hafter
    exact hafter.dispatch
  | allJoined hp hrunning hfinished => exact hs.goto rfl id nofun nofun
  | @finish n ending hn hcancel =>
    refine hs.note rfl rfl nofun ?_
    intro rest before _ hafter
    exact hafter.cons rfl fun _ => nofun
  | drain hopen => exact hs.drain hlost hopen
  | returned hdraining hp => exact hs.goto rfl (fun _ => nofun) (fun _ hn => hn) id
  | timeout hdraining hp => exact hs.goto rfl (fun _ => nofun) (fun _ hn => hn) id
  | drop hopen => exact hs.goto rfl (fun _ => nofun) (fun _ hn => hn) id
  | cancel haborted hp => exact hs.goto rfl id nofun nofun

/-! ## The result -/

/-- **The bound on the handlers and the end of a drain.**  In every state of every run, permits
and workers that run add up to `concurrency`; at most one message is dispatched after the
signal, one taken before the task looked again; and once `drain` has returned `true` no worker
runs and the call of `process_message` has ended for every message that was taken. -/
theorem drain_complete (opts : SubscribeOptions) (as : List LoopAction) {s₀ : LoopState}
    (hstart : LoopState.start opts = some s₀) :
    Always LoopState.step (fun s =>
      (s.permits + s.point.held + s.running.length = opts.concurrency ∧
        s.running.length ≤ opts.concurrency) ∧
      LastDispatch s.log ∧
      (s.handle = .drained true →
        s.running = [] ∧ ∀ n, .taken n ∈ s.log → .ended n ∈ s.log)) s₀ as := by
  have hinit : NoneLost s₀ ∧ Joined s₀ ∧ Signals s₀ := by
    obtain ⟨-, rfl⟩ := start_eq_some hstart
    refine ⟨⟨nofun, nofun⟩, ⟨nofun, nofun⟩, ⟨nofun, ?_⟩⟩
    intro since before hsplit
    exact absurd hsplit (by simp)
  have hall : Always LoopState.step
      (fun s => InBalance opts.concurrency s ∧ NoneLost s ∧ Joined s ∧ Signals s) s₀ as := by
    apply always_of_step _ ⟨balanced_start hstart, hinit⟩
    intro s a s' h hs
    obtain ⟨hbalanced, hlost, hjoined, hsignals⟩ := hs
    exact ⟨balanced_step h hbalanced, noneLost_step h hlost, joined_step h hjoined,
      signals_step h hlost hsignals⟩
  apply hall.mono
  intro s hs
  obtain ⟨hbalanced, hlost, hjoined, hsignals⟩ := hs
  refine ⟨⟨hbalanced, ?_⟩, ?_, ?_⟩
  · unfold InBalance at hbalanced
    omega
  · intro since before hsplit
    have hafter := hsignals.after since before hsplit
    exact ⟨hafter.once, hafter.dispatched⟩
  · intro hdrained
    have hended := hjoined.drained hdrained
    have hrunning := hjoined.ended hended
    refine ⟨hrunning, fun n hn => ?_⟩
    have hwhere := hlost.taken n hn
    rw [hended, hrunning] at hwhere
    rcases hwhere with h | h | h | h
    · cases h
    · cases h
    · exact h
    · cases h

/-- The signal comes while a message waits for the only permit, and the worker that has it
panics. -/
def waitingRun : List LoopAction :=
  [.answered true, .look, .item .message, .acquire, .spawn, .look, .item .message, .drain,
    .finish 0 .panicked, .acquire, .spawn, .look, .finish 1 .returned, .joined 0, .joined 1,
    .allJoined, .returned]

/-- INTERNAL: the result on a loop that is drained while it waits for a permit. -/
theorem drain_complete_waiting :
    ∃ s₀ s, LoopState.start { concurrency := 1 } = some s₀ ∧
      run LoopState.step s₀ waitingRun = some s ∧ s.handle = .drained true ∧
      s.running = [] ∧ .ended 1 ∈ s.log := by
  have hend : ∃ s₀ s, LoopState.start { concurrency := 1 } = some s₀ ∧
      run LoopState.step s₀ waitingRun = some s ∧ s.handle = .drained true ∧
      .taken 1 ∈ s.log := ⟨_, _, rfl, rfl, rfl, by decide⟩
  obtain ⟨s₀, s, hstart, hrun, hdrained, htaken⟩ := hend
  have hdone := (drain_complete _ _ hstart).last hrun
  obtain ⟨hrunning, hended⟩ := hdone.2.2 hdrained
  exact ⟨s₀, s, hstart, hrun, hdrained, hrunning, hended 1 htaken⟩

end EventBus.Analysis
