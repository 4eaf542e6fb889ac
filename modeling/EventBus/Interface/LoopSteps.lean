import EventBus.Model.PullLoop

/-!
# The steps of a subscription

What a step of the task of `EventBus.Model.PullLoop` can be, once for all that is proved of
it (`loopStep_of_step`).  Most of them only move the task.

`step_subPoint` says that the task does what `SubPoint.view` says: each step either leaves it
at the call it waits for, or is the answer to that call.
-/

set_option autoImplicit false

namespace EventBus.Interface

open EventBus.Model EventBus.Lib

/-- What an answer of the server does. -/
inductive Answered : LoopPoint → Bool → LoopPoint → Prop where
  | streamFound (b : Duration) : Answered (.reacquireStream b) true (.reacquireConsumer b)
  | noStream (b : Duration) : Answered (.reacquireStream b) false (.backoff b)
  | consumerFound (b : Duration) : Answered (.reacquireConsumer b) true (.messages b)
  | noConsumer (b : Duration) : Answered (.reacquireConsumer b) false (.backoff b)
  | opened (b : Duration) : Answered (.messages b) true (.select reconnectBackoffInitial)
  | noMessages (b : Duration) : Answered (.messages b) false (.backoff b)

/-- What a look at the signal does. -/
inductive Looked : LoopPoint → Bool → LoopPoint → Prop where
  | noReconnect (b : Duration) : Looked (.backoff b) true .joining
  | sleep (b : Duration) : Looked (.backoff b) false (.sleeping b)
  | noMore (b : Duration) : Looked (.select b) true .joining
  | goOn (b : Duration) : Looked (.select b) false (.polled b)

/-- INTERNAL: the answers that the loop waits for, one by one. -/
theorem answered_of_afterAnswer {p q : LoopPoint} {ok : Bool} (h : p.afterAnswer ok = some q) :
    Answered p ok q := by
  unfold LoopPoint.afterAnswer at h
  split at h
  · obtain rfl := Option.some.inj h
    cases ok
    · exact .noStream _
    · exact .streamFound _
  · obtain rfl := Option.some.inj h
    cases ok
    · exact .noConsumer _
    · exact .consumerFound _
  · obtain rfl := Option.some.inj h
    cases ok
    · exact .noMessages _
    · exact .opened _
  · cases h

/-- INTERNAL: the looks at the shutdown flag, one by one. -/
theorem looked_of_afterLook {p q : LoopPoint} {shut : Bool} (h : p.afterLook shut = some q) :
    Looked p shut q := by
  unfold LoopPoint.afterLook at h
  split at h
  · obtain rfl := Option.some.inj h
    cases shut
    · exact .sleep _
    · exact .noReconnect _
  · obtain rfl := Option.some.inj h
    cases shut
    · exact .goOn _
    · exact .noMore _
  · cases h

/-- The steps that only move the task. -/
inductive Moves (shut : Bool) : LoopPoint → LoopAction → LoopPoint → Prop where
  | answered {p q : LoopPoint} {ok : Bool} (h : p.afterAnswer ok = some q) :
      Moves shut p (.answered ok) q
  | notice {b : Duration} (h : shut = true) : Moves shut (.sleeping b) .notice .joining
  | timer {b : Duration} : Moves shut (.sleeping b) .timer (.reacquireStream (nextBackoff b))
  | itemError {b : Duration} : Moves shut (.polled b) (.item .itemError) (.select b)
  | streamEnded {b : Duration} : Moves shut (.polled b) (.item .ended) (.backoff b)
  | nothing {b : Duration} : Moves shut (.polled b) .nothing (.select b)

/-- Everything that can happen to a subscription. -/
inductive LoopStep (s : LoopState) : LoopAction → LoopState → Prop where
  | move {a : LoopAction} {p : LoopPoint} (h : Moves s.shut s.point a p) :
      LoopStep s a (s.goto p)
  | look {p : LoopPoint} (h : s.point.afterLook s.shut = some p) :
      LoopStep s .look ((s.goto p).note .looked)
  | message {b : Duration} (hp : s.point = .polled b) : LoopStep s (.item .message) (s.take b)
  | joined {b : Duration} {n : ℕ} (hp : s.point = .polled b) (hn : n ∈ s.finished) :
      LoopStep s (.joined n) { s with point := .select b, finished := s.finished.erase n }
  | joinedLast {n : ℕ} (hp : s.point = .joining) (hn : n ∈ s.finished) :
      LoopStep s (.joined n) { s with point := .joining, finished := s.finished.erase n }
  | acquire {b : Duration} {n : ℕ} (hp : s.point = .permit b n) (hfree : 0 < s.permits) :
      LoopStep s .acquire { s with point := .dispatch b n, permits := s.permits - 1 }
  | spawn {b : Duration} {n : ℕ} (hp : s.point = .dispatch b n) :
      LoopStep s .spawn
        { s with point := .select b, running := n :: s.running, log := .dispatched n :: s.log }
  | allJoined (hp : s.point = .joining) (hrunning : s.running = []) (hfinished : s.finished = []) :
      LoopStep s .allJoined (s.goto .ended)
  | finish {n : ℕ} {ending : Ending} (hn : n ∈ s.running)
      (hcancel : ending = .cancelled → s.point = .cancelled) :
      LoopStep s (.finish n ending)
        { s with
          permits := s.permits + 1
          running := s.running.erase n
          finished := n :: s.finished
          log := .ended n :: s.log }
  | drain (hopen : s.handle = .open) :
      LoopStep s .drain ({ s with handle := .draining }.note .signalled)
  | returned (hdraining : s.handle = .draining) (hp : s.point = .ended) :
      LoopStep s .returned { s with handle := .drained true }
  | timeout (hdraining : s.handle = .draining) (hp : s.point ≠ .ended) :
      LoopStep s .timeout { s with handle := .drained false, aborted := true }
  | drop (hopen : s.handle = .open) :
      LoopStep s .drop { s with handle := .dropped, aborted := true }
  | cancel (haborted : s.aborted = true) (hp : s.point.suspended = true) :
      LoopStep s .cancel (s.goto .cancelled)

/-- INTERNAL: what joining a worker does. -/
theorem join_eq_some {s s' : LoopState} {n : ℕ} {p : LoopPoint} (h : s.join n p = some s') :
    n ∈ s.finished ∧ s' = { s with point := p, finished := s.finished.erase n } := by
  obtain ⟨hn, hs⟩ := Option.ite_none_right_eq_some.mp h
  exact ⟨hn, (Option.some.inj hs).symm⟩

/-- **A step is one of these.** -/
theorem loopStep_of_step {s s' : LoopState} {a : LoopAction} (h : s.step a = some s') :
    LoopStep s a s' := by
  have moved : ∀ {p : LoopPoint}, some (s.goto p) = some s' → Moves s.shut s.point a p →
      LoopStep s a s' := by
    intro p hs hmove
    obtain rfl := Option.some.inj hs
    exact .move hmove
  cases a with
  | answered ok =>
    obtain ⟨p, hp, hs⟩ := Option.map_eq_some_iff.mp h
    exact moved (congrArg some hs) (.answered hp)
  | look =>
    obtain ⟨p, hp, rfl⟩ := Option.map_eq_some_iff.mp h
    exact .look hp
  | notice =>
    simp only [LoopState.step] at h
    split at h
    · rename_i b hp
      obtain ⟨hshut, hs⟩ := Option.ite_none_right_eq_some.mp h
      apply moved hs
      rw [hp]
      exact .notice hshut
    · cases h
  | timer =>
    simp only [LoopState.step] at h
    split at h
    · rename_i b hp
      apply moved h
      rw [hp]
      exact .timer
    · cases h
  | item next =>
    simp only [LoopState.step] at h
    split at h
    · rename_i b hp
      obtain rfl := Option.some.inj h
      exact .message hp
    · rename_i b hp
      apply moved h
      rw [hp]
      exact .itemError
    · rename_i b hp
      apply moved h
      rw [hp]
      exact .streamEnded
    · cases h
  | nothing =>
    simp only [LoopState.step] at h
    split at h
    · rename_i b hp
      apply moved h
      rw [hp]
      exact .nothing
    · cases h
  | joined n =>
    simp only [LoopState.step] at h
    split at h
    · rename_i b hp
      obtain ⟨hn, rfl⟩ := join_eq_some h
      exact .joined hp hn
    · rename_i hp
      obtain ⟨hn, rfl⟩ := join_eq_some h
      exact .joinedLast hp hn
    · cases h
  | acquire =>
    simp only [LoopState.step] at h
    split at h
    · rename_i b n hp
      obtain ⟨hfree, hs⟩ := Option.ite_none_right_eq_some.mp h
      obtain rfl := Option.some.inj hs
      exact .acquire hp hfree
    · cases h
  | spawn =>
    simp only [LoopState.step] at h
    split at h
    · rename_i b n hp
      obtain rfl := Option.some.inj h
      exact .spawn hp
    · cases h
  | allJoined =>
    obtain ⟨⟨hp, hrunning, hfinished⟩, hs⟩ := Option.ite_none_right_eq_some.mp h
    obtain rfl := Option.some.inj hs
    exact .allJoined hp hrunning hfinished
  | finish n ending =>
    obtain ⟨⟨hn, hcancel⟩, hs⟩ := Option.ite_none_right_eq_some.mp h
    obtain rfl := Option.some.inj hs
    exact .finish hn hcancel
  | drain =>
    obtain ⟨hopen, hs⟩ := Option.ite_none_right_eq_some.mp h
    obtain rfl := Option.some.inj hs
    exact .drain hopen
  | returned =>
    obtain ⟨⟨hdraining, hp⟩, hs⟩ := Option.ite_none_right_eq_some.mp h
    obtain rfl := Option.some.inj hs
    exact .returned hdraining hp
  | timeout =>
    obtain ⟨⟨hdraining, hp⟩, hs⟩ := Option.ite_none_right_eq_some.mp h
    obtain rfl := Option.some.inj hs
    exact .timeout hdraining hp
  | drop =>
    obtain ⟨hopen, hs⟩ := Option.ite_none_right_eq_some.mp h
    obtain rfl := Option.some.inj hs
    exact .drop hopen
  | cancel =>
    obtain ⟨⟨haborted, hp⟩, hs⟩ := Option.ite_none_right_eq_some.mp h
    obtain rfl := Option.some.inj hs
    exact .cancel haborted hp

/-- What a subscription starts with. -/
theorem start_eq_some {opts : SubscribeOptions} {s : LoopState}
    (h : LoopState.start opts = some s) :
    opts.concurrency ≤ maxPermits ∧ s =
      { point := .messages reconnectBackoffInitial
        permits := opts.concurrency
        running := []
        finished := []
        taken := 0
        handle := .open
        aborted := false
        log := [] } := by
  obtain ⟨hpermits, hs⟩ := Option.ite_none_right_eq_some.mp h
  exact ⟨hpermits, (Option.some.inj hs).symm⟩

/-! ## The task as it is given by its control points -/

/-- The control point that the task is at, unless it was aborted. -/
def subPoint : LoopPoint → Option SubPoint
  | .reacquireStream b => some (.reacquireStream b)
  | .reacquireConsumer b => some (.reacquireConsumer b)
  | .messages b => some (.messages b)
  | .backoff b | .sleeping b => some (.sleep b)
  | .select b | .polled b => some (.pull b)
  | .permit b _ | .dispatch b _ => some (.permit b)
  | .joining => some .drain
  | .ended => some .stopped
  | .cancelled => none

/-- A step from `p` to `q` leaves the task at its call, is the answer to it, or aborts it. -/
def Follows (opts : SubscribeOptions) (p q : LoopPoint) : Prop :=
  subPoint q = subPoint p ∨ q = .cancelled ∨
    ∃ point c k r, subPoint p = some point ∧ point.view opts = some ⟨c, k⟩ ∧ subPoint q = some (k r)

section

variable {opts : SubscribeOptions} {p q : LoopPoint} {shut : Bool}

/-- INTERNAL: an answer takes the task from a point to the next. -/
theorem follows_answer {point : SubPoint} {c : SubCall} {k : c.Resp → SubPoint}
    (hp : subPoint p = some point) (hview : point.view opts = some ⟨c, k⟩) (r : c.Resp)
    (hq : subPoint q = some (k r)) : Follows opts p q :=
  Or.inr (Or.inr ⟨point, c, k, r, hp, hview, hq⟩)

/-- INTERNAL: the loop goes where its task does on an answer. -/
theorem follows_afterAnswer {ok : Bool} (h : p.afterAnswer ok = some q) : Follows opts p q := by
  cases answered_of_afterAnswer h with
  | streamFound b => exact follows_answer rfl rfl (.ok ()) rfl
  | noStream b => exact follows_answer rfl rfl (.error "") rfl
  | consumerFound b => exact follows_answer rfl rfl (.ok opts.pullConfig) rfl
  | noConsumer b => exact follows_answer rfl rfl (.error "") rfl
  | opened b => exact follows_answer rfl rfl (.ok ()) rfl
  | noMessages b => exact follows_answer rfl rfl (.error "") rfl

/-- INTERNAL: the loop goes where its task does after a look at the flag. -/
theorem follows_afterLook (h : p.afterLook shut = some q) : Follows opts p q := by
  cases looked_of_afterLook h with
  | noReconnect b => exact follows_answer rfl rfl true rfl
  | sleep b => exact Or.inl rfl
  | noMore b => exact follows_answer rfl rfl PullItem.shutdown rfl
  | goOn b => exact Or.inl rfl

/-- INTERNAL: the loop goes where its task does on every move. -/
theorem follows_move {a : LoopAction} (h : Moves shut p a q) : Follows opts p q := by
  cases h with
  | answered h => exact follows_afterAnswer h
  | notice h => exact follows_answer rfl rfl true rfl
  | timer => exact follows_answer rfl rfl false rfl
  | itemError => exact follows_answer rfl rfl PullItem.itemError rfl
  | streamEnded => exact follows_answer rfl rfl PullItem.ended rfl
  | nothing => exact Or.inl rfl

/-- **The task goes where `SubPoint.view` says.** -/
theorem step_subPoint {s s' : LoopState} {a : LoopAction} (h : s.step a = some s') :
    Follows opts s.point s'.point := by
  cases loopStep_of_step h with
  | move hmove => exact follows_move hmove
  | look hlook => exact follows_afterLook hlook
  | message hp =>
    rw [hp]
    exact follows_answer rfl rfl PullItem.message rfl
  | joined hp hn =>
    rw [hp]
    exact Or.inl rfl
  | joinedLast hp hn =>
    rw [hp]
    exact Or.inl rfl
  | acquire hp hfree =>
    rw [hp]
    exact Or.inl rfl
  | spawn hp =>
    rw [hp]
    exact follows_answer rfl rfl () rfl
  | allJoined hp hrunning hfinished =>
    rw [hp]
    exact follows_answer rfl rfl () rfl
  | finish hn hcancel => exact Or.inl rfl
  | drain hopen => exact Or.inl rfl
  | returned hdraining hp => exact Or.inl rfl
  | timeout hdraining hp => exact Or.inl rfl
  | drop hopen => exact Or.inl rfl
  | cancel haborted hp => exact Or.inr (Or.inl rfl)

end

/-! ## Points without a message -/

/-- The task has no permit and no message, and has not come to its end. -/
structure Idle (p : LoopPoint) : Prop where
  held : p.held = 0
  pending : p.pending = none
  not_ended : p ≠ .ended
  not_cancelled : p ≠ .cancelled

section

variable {p q : LoopPoint} {shut : Bool}

/-- INTERNAL: no answer to the loop comes where it holds a permit. -/
theorem idle_of_answer {ok : Bool} (h : p.afterAnswer ok = some q) : Idle p ∧ Idle q := by
  cases answered_of_afterAnswer h <;> exact ⟨⟨rfl, rfl, nofun, nofun⟩, ⟨rfl, rfl, nofun, nofun⟩⟩

/-- INTERNAL: no look at the flag comes where the loop holds a permit. -/
theorem idle_of_look (h : p.afterLook shut = some q) : Idle p ∧ Idle q := by
  cases looked_of_afterLook h <;> exact ⟨⟨rfl, rfl, nofun, nofun⟩, ⟨rfl, rfl, nofun, nofun⟩⟩

/-- **A task that is only moved has nothing to lose.** -/
theorem idle_of_move {a : LoopAction} (h : Moves shut p a q) : Idle p ∧ Idle q := by
  cases h with
  | answered hanswer => exact idle_of_answer hanswer
  | notice hshut => exact ⟨⟨rfl, rfl, nofun, nofun⟩, ⟨rfl, rfl, nofun, nofun⟩⟩
  | timer => exact ⟨⟨rfl, rfl, nofun, nofun⟩, ⟨rfl, rfl, nofun, nofun⟩⟩
  | itemError => exact ⟨⟨rfl, rfl, nofun, nofun⟩, ⟨rfl, rfl, nofun, nofun⟩⟩
  | streamEnded => exact ⟨⟨rfl, rfl, nofun, nofun⟩, ⟨rfl, rfl, nofun, nofun⟩⟩
  | nothing => exact ⟨⟨rfl, rfl, nofun, nofun⟩, ⟨rfl, rfl, nofun, nofun⟩⟩

end

/-! ## Permits -/

/-- Every permit is free, held by the task or with a worker that runs. -/
def InBalance (concurrency : ℕ) (s : LoopState) : Prop :=
  s.permits + s.point.held + s.running.length = concurrency

/-- INTERNAL: every step keeps the permits in balance. -/
theorem balanced_step {concurrency : ℕ} {s s' : LoopState} {a : LoopAction}
    (h : s.step a = some s') (hs : InBalance concurrency s) : InBalance concurrency s' := by
  unfold InBalance at hs ⊢
  cases loopStep_of_step h with
  | @move _ p hmove =>
    obtain ⟨hbefore, hafter⟩ := idle_of_move hmove
    have hheld := hbefore.held.trans hafter.held.symm
    show s.permits + p.held + s.running.length = concurrency
    omega
  | @look p hlook =>
    obtain ⟨hbefore, hafter⟩ := idle_of_look hlook
    have hheld := hbefore.held.trans hafter.held.symm
    show s.permits + p.held + s.running.length = concurrency
    omega
  | message hp =>
    rw [hp] at hs
    exact hs
  | joined hp hn =>
    rw [hp] at hs
    exact hs
  | joinedLast hp hn =>
    rw [hp] at hs
    exact hs
  | acquire hp hfree =>
    rw [hp] at hs
    show s.permits - 1 + 1 + s.running.length = concurrency
    change s.permits + 0 + s.running.length = concurrency at hs
    omega
  | @spawn b n hp =>
    rw [hp] at hs
    show s.permits + 0 + (n :: s.running).length = concurrency
    change s.permits + 1 + s.running.length = concurrency at hs
    rw [List.length_cons]
    omega
  | allJoined hp hrunning hfinished =>
    rw [hp] at hs
    exact hs
  | @finish n ending hn hcancel =>
    show s.permits + 1 + s.point.held + (s.running.erase n).length = concurrency
    have hlength := List.length_erase_of_mem hn
    have hpos := List.length_pos_of_mem hn
    omega
  | drain hopen => exact hs
  | returned hdraining hp => exact hs
  | timeout hdraining hp => exact hs
  | drop hopen => exact hs
  | cancel haborted hp =>
    show s.permits + 0 + s.running.length = concurrency
    have hheld : s.point.held = 0 := by
      generalize s.point = p at hp
      cases p with
      | dispatch b n => cases hp
      | _ => rfl
    omega

/-- INTERNAL: the permits are in balance at first. -/
theorem balanced_start {opts : SubscribeOptions} {s : LoopState}
    (h : LoopState.start opts = some s) : InBalance opts.concurrency s := by
  obtain ⟨-, rfl⟩ := start_eq_some h
  rfl

end EventBus.Interface
