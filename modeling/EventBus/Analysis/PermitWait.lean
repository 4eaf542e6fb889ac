import EventBus.Lib.Progress
import EventBus.Interface.LoopSteps

/-!
# The wait for a permit

The task waits for a permit in the body of an arm of its `select!`, where it does not see the
signal.  The wait is over as soon as a worker comes to its end, so it is harmless exactly when
there is a worker: the permits that are not free are all with workers (`InBalance`), and there
is one unless there is no permit at all.

With `concurrency` 0 there is none.  The task takes a message, waits for ever, and a drain can
only run into its timeout although no handler is in flight.
-/

set_option autoImplicit false

namespace EventBus.Analysis

open EventBus.Model EventBus.Lib EventBus.Interface

variable {s s' : LoopState} {a : LoopAction} {p q : LoopPoint} {concurrency : ℕ}

/-- While the task waits for a permit some worker runs, and a drain that is given the time
returns `true`: the server answers, the workers come to their ends, and nothing else is
needed. -/
def NeverStuck (opts : SubscribeOptions) : Prop :=
  ∀ s₀, LoopState.start opts = some s₀ → ∀ as s, run LoopState.step s₀ as = some s →
    (∀ b n, s.point = .permit b n → s.permits = 0 → s.running ≠ []) ∧
    (s.handle = .draining →
      Inevitably LoopState.step (· ≠ .timeout) (fun t => t.handle = .drained true) s)

/-! ## Only a handle that is given up aborts the task -/

/-- The task of a handle that is open or drains is not aborted. -/
structure AbortedLate (s : LoopState) : Prop where
  open_handle : s.handle = .open → s.aborted = false
  draining : s.handle = .draining → s.aborted = false
  cancelled : s.point = .cancelled → s.aborted = true

/-- INTERNAL: a move that leaves the handle alone. -/
theorem AbortedLate.of_goto (hs : AbortedLate s) (hhandle : s'.handle = s.handle)
    (haborted : s'.aborted = s.aborted) (hp : s'.point ≠ .cancelled) : AbortedLate s' where
  open_handle hopen := haborted.trans (hs.open_handle (hhandle.symm.trans hopen))
  draining hdraining := haborted.trans (hs.draining (hhandle.symm.trans hdraining))
  cancelled hcancelled := absurd hcancelled hp

/-- INTERNAL: the task is aborted by its handle only. -/
theorem abortedLate_step (h : s.step a = some s') (hs : AbortedLate s) : AbortedLate s' := by
  cases loopStep_of_step h with
  | move hmove => exact hs.of_goto rfl rfl (idle_of_move hmove).2.not_cancelled
  | look hlook => exact hs.of_goto rfl rfl (idle_of_look hlook).2.not_cancelled
  | message hp => exact hs.of_goto rfl rfl nofun
  | joined hp hn => exact hs.of_goto rfl rfl nofun
  | joinedLast hp hn => exact hs.of_goto rfl rfl nofun
  | acquire hp hfree => exact hs.of_goto rfl rfl nofun
  | spawn hp => exact hs.of_goto rfl rfl nofun
  | allJoined hp hrunning hfinished => exact hs.of_goto rfl rfl nofun
  | finish hn hcancel => exact ⟨hs.open_handle, hs.draining, hs.cancelled⟩
  | drain hopen => exact ⟨nofun, fun _ => hs.open_handle hopen, hs.cancelled⟩
  | returned hdraining hp => exact ⟨nofun, nofun, hs.cancelled⟩
  | timeout hdraining hp => exact ⟨nofun, nofun, fun _ => rfl⟩
  | drop hopen => exact ⟨nofun, nofun, fun _ => rfl⟩
  | cancel haborted hp => exact ⟨hs.open_handle, hs.draining, fun _ => haborted⟩

/-! ## The way to the end -/

/-- How far the task is from its end once the signal is sent. -/
def distance : LoopPoint → ℕ
  | .ended | .cancelled => 0
  | .joining => 1
  | .select _ | .backoff _ => 2
  | .messages _ => 3
  | .reacquireConsumer _ => 4
  | .reacquireStream _ | .dispatch _ _ => 5
  | .sleeping _ | .permit _ _ => 6
  | .polled _ => 7

/-- A worker that runs is still to end and to be joined. -/
def drainRank (s : LoopState) : ℕ :=
  distance s.point + 2 * s.running.length + s.finished.length

/-- INTERNAL: every move brings the loop nearer to its end. -/
theorem distance_of_move {shut : Bool} (h : Moves shut p a q) : distance q < distance p := by
  cases h with
  | @answered p q ok h => cases p <;> cases h <;> cases ok <;> simp [distance]
  | notice h => simp [distance]
  | timer => simp [distance]
  | itemError => simp [distance]
  | streamEnded => simp [distance]
  | nothing => simp [distance]

/-- INTERNAL: a look at the flag, once it is up, brings the loop nearer to its end. -/
theorem distance_of_look (h : p.afterLook true = some q) : distance q < distance p := by
  cases p <;> cases h <;> simp [distance]

/-- A drain under way, with permits to go round. -/
structure Draining (concurrency : ℕ) (s : LoopState) : Prop where
  balanced : InBalance concurrency s
  late : AbortedLate s
  draining : s.handle = .draining

/-- INTERNAL: a step of a drain ends it or brings it on. -/
theorem Draining.step (hs : Draining concurrency s) (ha : a ≠ .timeout)
    (h : s.step a = some s') :
    s'.handle = .drained true ∨ (Draining concurrency s' ∧ drainRank s' < drainRank s) := by
  have down : ∀ {p : LoopPoint}, s.point = p → s'.handle = s.handle →
      distance s'.point + 2 * s'.running.length + s'.finished.length <
        distance p + 2 * s.running.length + s.finished.length →
      s'.handle = .drained true ∨ (Draining concurrency s' ∧ drainRank s' < drainRank s) := by
    rintro p rfl hhandle hlt
    exact Or.inr ⟨⟨balanced_step h hs.balanced, abortedLate_step h hs.late,
      hhandle.trans hs.draining⟩, hlt⟩
  cases loopStep_of_step h with
  | @move _ q hmove =>
    apply down rfl rfl
    have hlt := distance_of_move hmove
    show distance q + 2 * s.running.length + s.finished.length < _
    omega
  | @look q hlook =>
    apply down rfl rfl
    have hshut : s.shut = true := by
      unfold LoopState.shut
      rw [hs.draining]
      rfl
    rw [hshut] at hlook
    have hlt := distance_of_look hlook
    show distance q + 2 * s.running.length + s.finished.length < _
    omega
  | message hp =>
    apply down hp rfl
    show 6 + 2 * s.running.length + s.finished.length < 7 + 2 * s.running.length + s.finished.length
    omega
  | @joined b n hp hn =>
    apply down hp rfl
    have hlength := List.length_erase_of_mem hn
    show 2 + 2 * s.running.length + (s.finished.erase n).length <
      7 + 2 * s.running.length + s.finished.length
    omega
  | @joinedLast n hp hn =>
    apply down hp rfl
    have hlength := List.length_erase_of_mem hn
    have hpos := List.length_pos_of_mem hn
    show 1 + 2 * s.running.length + (s.finished.erase n).length <
      1 + 2 * s.running.length + s.finished.length
    omega
  | acquire hp hfree =>
    apply down hp rfl
    show 5 + 2 * s.running.length + s.finished.length < 6 + 2 * s.running.length + s.finished.length
    omega
  | @spawn b n hp =>
    apply down hp rfl
    show 2 + 2 * (n :: s.running).length + s.finished.length <
      5 + 2 * s.running.length + s.finished.length
    rw [List.length_cons]
    omega
  | allJoined hp hrunning hfinished =>
    apply down hp rfl
    show 0 + 2 * s.running.length + s.finished.length < 1 + 2 * s.running.length + s.finished.length
    omega
  | @finish n ending hn hcancel =>
    -- a worker that runs counts twice, one that waits to be joined once
    apply down rfl rfl
    have hlength := List.length_erase_of_mem hn
    have hpos := List.length_pos_of_mem hn
    show distance s.point + 2 * (s.running.erase n).length + (n :: s.finished).length < _
    rw [List.length_cons]
    omega
  | drain hopen =>
    rw [hs.draining] at hopen
    cases hopen
  | returned hdraining hp => exact Or.inl rfl
  | timeout hdraining hp => exact absurd rfl ha
  | drop hopen =>
    rw [hs.draining] at hopen
    cases hopen
  | cancel haborted hp =>
    rw [hs.late.draining hs.draining] at haborted
    cases haborted

/-- INTERNAL: an action that leads somewhere. -/
theorem can (ha : a ≠ .timeout) (h : (s.step a).isSome = true) :
    ∃ a s', a ≠ LoopAction.timeout ∧ s.step a = some s' := by
  obtain ⟨s', hs⟩ := Option.isSome_iff_exists.mp h
  exact ⟨a, s', ha, hs⟩

/-- INTERNAL: a worker that runs can finish. -/
theorem can_finish {n : ℕ} (hn : n ∈ s.running) :
    ∃ a s', a ≠ LoopAction.timeout ∧ s.step a = some s' := by
  apply can (a := .finish n .returned) (by simp)
  show (s.finish n .returned).isSome = true
  unfold LoopState.finish
  rw [if_pos ⟨hn, nofun⟩]
  rfl

/-- **With a permit in the world the task of a drain can always go on.** -/
theorem Draining.live (hs : Draining concurrency s) (hpos : concurrency ≠ 0) :
    ∃ a s', a ≠ LoopAction.timeout ∧ s.step a = some s' := by
  have hbalanced := hs.balanced
  unfold InBalance at hbalanced
  cases hp : s.point with
  | reacquireStream b | reacquireConsumer b | messages b =>
    apply can (a := .answered true) (by simp)
    simp only [LoopState.step, hp]
    rfl
  | backoff b | select b =>
    apply can (a := .look) (by simp)
    simp only [LoopState.step, hp]
    rfl
  | sleeping b =>
    apply can (a := .timer) (by simp)
    simp only [LoopState.step, hp]
    rfl
  | polled b =>
    apply can (a := .nothing) (by simp)
    simp only [LoopState.step, hp]
    rfl
  | permit b n =>
    by_cases hfree : 0 < s.permits
    · apply can (a := .acquire) (by simp)
      simp only [LoopState.step, hp]
      rw [if_pos hfree]
      rfl
    · rw [hp] at hbalanced
      change s.permits + 0 + s.running.length = concurrency at hbalanced
      have hrunning : 0 < s.running.length := by omega
      obtain ⟨m, hm⟩ := List.exists_mem_of_length_pos hrunning
      exact can_finish hm
  | dispatch b n =>
    apply can (a := .spawn) (by simp)
    simp only [LoopState.step, hp]
    rfl
  | joining =>
    cases hrunning : s.running with
    | cons n rest =>
      apply can_finish (n := n)
      rw [hrunning]
      exact List.mem_cons_self
    | nil =>
      cases hfinished : s.finished with
      | nil =>
        apply can (a := .allJoined) (by simp)
        simp only [LoopState.step, hp, hrunning, hfinished]
        rfl
      | cons n rest =>
        apply can (a := .joined n) (by simp)
        simp only [LoopState.step, hp, LoopState.join, hfinished]
        rw [if_pos List.mem_cons_self]
        rfl
  | ended =>
    apply can (a := .returned) (by simp)
    simp only [LoopState.step]
    rw [if_pos ⟨hs.draining, hp⟩]
    rfl
  | cancelled =>
    have haborted := hs.late.cancelled hp
    rw [hs.late.draining hs.draining] at haborted
    cases haborted

/-- INTERNAL: every state of a subscription has its permits and is not aborted early. -/
theorem reached {opts : SubscribeOptions} {s₀ : LoopState} {as : List LoopAction}
    (hstart : LoopState.start opts = some s₀) (hrun : run LoopState.step s₀ as = some s) :
    InBalance opts.concurrency s ∧ AbortedLate s := by
  have hinit : AbortedLate s₀ := by
    obtain ⟨-, rfl⟩ := start_eq_some hstart
    exact ⟨fun _ => rfl, nofun, nofun⟩
  have hall : Always LoopState.step (fun s => InBalance opts.concurrency s ∧ AbortedLate s) s₀ as :=
    always_of_step (fun s a s' h hs => ⟨balanced_step h hs.1, abortedLate_step h hs.2⟩)
      ⟨balanced_start hstart, hinit⟩
  exact hall.last hrun

/-! ## The result -/

/-- The state that a drain of a subscription without permits ends in. -/
def starved : LoopState where
  point := .permit reconnectBackoffInitial 0
  permits := 0
  running := []
  finished := []
  taken := 1
  handle := .draining
  aborted := false
  log := [.signalled, .taken 0, .looked]

/-- INTERNAL: all that can still happen is the timeout. -/
theorem starved_stuck (ha : a ≠ .timeout) : starved.step a = none := by
  cases a with
  | answered ok => rfl
  | item next => cases next <;> rfl
  | finish n ending => rfl
  | timeout => exact absurd rfl ha
  | joined n => rfl
  | look | notice | timer | nothing | acquire | spawn | allJoined | drain | returned | drop
  | cancel => rfl

/-- INTERNAL: a message is taken and the drain begins. -/
theorem run_starved {opts : SubscribeOptions} (hzero : opts.concurrency = 0) :
    ∃ s₀, LoopState.start opts = some s₀ ∧
      run LoopState.step s₀ [.answered true, .look, .item .message, .drain] = some starved := by
  unfold LoopState.start
  rw [hzero, if_pos (Nat.zero_le _)]
  exact ⟨_, rfl, rfl⟩

/-- **The task never waits for ever for a permit if and only if `concurrency` is not 0.** -/
theorem neverStuck_iff (opts : SubscribeOptions) : NeverStuck opts ↔ opts.concurrency ≠ 0 := by
  constructor
  · intro hnever hzero
    obtain ⟨s₀, hstart, hrun⟩ := run_starved hzero
    have hdrain := (hnever s₀ hstart _ _ hrun).2 rfl
    exact not_inevitably_of_stuck nofun (fun _ ha => starved_stuck ha) hdrain
  · intro hpos s₀ hstart as s hrun
    obtain ⟨hbalanced, hlate⟩ := reached hstart hrun
    constructor
    · intro b n hp hnone hrunning
      unfold InBalance at hbalanced
      rw [hp, hnone, hrunning] at hbalanced
      exact hpos hbalanced.symm
    · intro hdraining
      have hs : Draining opts.concurrency s := ⟨hbalanced, hlate, hdraining⟩
      apply inevitably_of_rank drainRank _ _ hs
      · intro t ht _
        exact ht.live hpos
      · intro t a t' ht _ ha h
        exact ht.step ha h

/-- With `concurrency` 0 the task waits for a permit that no worker has, and a drain cannot
return `true`. -/
theorem not_neverStuck_zero : ¬ NeverStuck { concurrency := 0 } := by
  intro hnever
  have hzero : ({ concurrency := 0 } : SubscribeOptions).concurrency = 0 := rfl
  obtain ⟨s₀, hstart, hrun⟩ := run_starved hzero
  exact (hnever s₀ hstart _ _ hrun).1 _ _ rfl rfl rfl

end EventBus.Analysis
