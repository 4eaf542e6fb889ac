import Mathlib.Algebra.Order.Ring.Nat
import EventBus.Interface.LoopSteps
import EventBus.Lib.Backoff
import EventBus.Model.AdvisoryLogger

/-!
# The reconnects of the two loops

The task of a subscription and the advisory logger both read a stream, wait when they have
lost it or cannot open it, and try again.  Here both are given as something that is paced by
one `Backoff` (`subscription_reconnects`, `advisory_reconnects`): where they are
(`subscriptionPhase`, `advisoryPhase`), what came of their attempts, and the waits that they
begin.
-/

set_option autoImplicit false

namespace EventBus.Interface

open EventBus.Model EventBus.Lib

/-- What comes of a stream that is to be read: it is opened, it (or the consumer for it) is not
to be had, or it ends. -/
inductive ReconnectOutcome where
  | opened
  | failed
  | ended
  deriving DecidableEq

def ReconnectOutcome.isOpened : ReconnectOutcome → Bool
  | .opened => true
  | .failed | .ended => false

/-- The waits before a reconnect: 200 ms, doubled each time up to 30 s. -/
def reconnectWaits : Backoff Duration where
  initial := .fromMillis 200
  factor := 2
  cap := .fromSecs 30
  initial_nonneg := Nat.zero_le _
  one_le_factor := by decide
  initial_le_cap := by decide

/-- What a step does to the waits: it is paced, and a wait begins exactly when there is no
stream to read. -/
structure Reconnects (phase : Phase Duration) (mark : Option (Mark Duration))
    (outcome : Option ReconnectOutcome) (phase' : Phase Duration) : Prop where
  paced : reconnectWaits.Paced phase mark phase'
  isOpened : mark.map Mark.isOpened = outcome.map ReconnectOutcome.isOpened

/-! ## The task of a subscription -/

/-- The wait that is kept at a point, or is under way there. -/
def subscriptionPhase : LoopPoint → Phase Duration
  | .reacquireStream b | .reacquireConsumer b | .messages b | .select b | .polled b
  | .permit b _ | .dispatch b _ => .ready b
  | .backoff b | .sleeping b => .waiting b
  | .joining | .ended | .cancelled => .ended

/-- What comes of the stream of a subscription at a point by an action. -/
def subscriptionOutcome : LoopPoint → LoopAction → Option ReconnectOutcome
  | .messages _, .answered true => some .opened
  | _, .answered false => some .failed
  | _, .item .ended => some .ended
  | _, _ => none

/-- The wait that begins when the task goes from one point to another. -/
def begunWait : LoopPoint → LoopPoint → Option Duration
  | .backoff _, _ => none
  | _, .backoff b => some b
  | _, _ => none

/-- What is seen of the stream of a subscription: that it is opened, and every wait. -/
def subscriptionMark (p : LoopPoint) (a : LoopAction) (q : LoopPoint) : Option (Mark Duration) :=
  if subscriptionOutcome p a = some .opened then some .opened
  else (begunWait p q).map .wait

/-- What a step of the task does to its waits. -/
abbrev SubscriptionReconnects (p : LoopPoint) (a : LoopAction) (q : LoopPoint) : Prop :=
  Reconnects (subscriptionPhase p) (subscriptionMark p a q) (subscriptionOutcome p a)
    (subscriptionPhase q)

/-- An action that says nothing about the stream. -/
theorem outcome_of_quiet {p : LoopPoint} {a : LoopAction} (hanswer : ∀ ok, a ≠ .answered ok)
    (hitem : a ≠ .item .ended) : subscriptionOutcome p a = none := by
  unfold subscriptionOutcome
  split
  · exact absurd rfl (hanswer true)
  · exact absurd rfl (hanswer false)
  · exact absurd rfl hitem
  · rfl

/-- Nothing is seen of an action that leaves the task where it is. -/
theorem reconnects_of_same {p : LoopPoint} {a : LoopAction} (hanswer : ∀ ok, a ≠ .answered ok)
    (hitem : a ≠ .item .ended) : SubscriptionReconnects p a p := by
  have houtcome : subscriptionOutcome p a = none := outcome_of_quiet hanswer hitem
  have hmark : subscriptionMark p a p = none := by
    unfold subscriptionMark
    rw [houtcome]
    cases p <;> rfl
  unfold SubscriptionReconnects
  rw [hmark, houtcome]
  exact ⟨.stay _, rfl⟩

/-- INTERNAL: an answer about the stream is seen as what it is. -/
theorem reconnects_of_answer {p q : LoopPoint} {ok : Bool} (h : p.afterAnswer ok = some q) :
    SubscriptionReconnects p (.answered ok) q := by
  cases answered_of_afterAnswer h with
  | streamFound b => exact ⟨.stay _, rfl⟩
  | noStream b => exact ⟨.wait _, rfl⟩
  | consumerFound b => exact ⟨.stay _, rfl⟩
  | noConsumer b => exact ⟨.wait _, rfl⟩
  | opened b => exact ⟨.opened _, rfl⟩
  | noMessages b => exact ⟨.wait _, rfl⟩

/-- INTERNAL: a look at the flag is no wait that begins. -/
theorem reconnects_of_look {p q : LoopPoint} {shut : Bool} (h : p.afterLook shut = some q) :
    SubscriptionReconnects p .look q := by
  cases looked_of_afterLook h with
  | noReconnect b => exact ⟨.stop _, rfl⟩
  | sleep b => exact ⟨.stay _, rfl⟩
  | noMore b => exact ⟨.stop _, rfl⟩
  | goOn b => exact ⟨.stay _, rfl⟩

/-- INTERNAL: every move of the loop is paced. -/
theorem reconnects_of_move {shut : Bool} {p q : LoopPoint} {a : LoopAction}
    (h : Moves shut p a q) : SubscriptionReconnects p a q := by
  cases h with
  | answered h => exact reconnects_of_answer h
  | notice h => exact ⟨.stop _, rfl⟩
  | timer => exact ⟨.resume _, rfl⟩
  | itemError => exact ⟨.stay _, rfl⟩
  | streamEnded => exact ⟨.wait _, rfl⟩
  | nothing => exact ⟨.stay _, rfl⟩

/-- **The task of a subscription is paced.** -/
theorem subscription_reconnects {s s' : LoopState} {a : LoopAction} (h : s.step a = some s') :
    SubscriptionReconnects s.point a s'.point := by
  cases loopStep_of_step h with
  | move hmove => exact reconnects_of_move hmove
  | look hlook => exact reconnects_of_look hlook
  | message hp =>
    rw [hp]
    exact ⟨.stay _, rfl⟩
  | joined hp hn =>
    rw [hp]
    exact ⟨.stay _, rfl⟩
  | joinedLast hp hn =>
    rw [hp]
    exact ⟨.stay _, rfl⟩
  | acquire hp hfree =>
    rw [hp]
    exact ⟨.stay _, rfl⟩
  | spawn hp =>
    rw [hp]
    exact ⟨.stay _, rfl⟩
  | allJoined hp hrunning hfinished =>
    rw [hp]
    exact ⟨.stay _, rfl⟩
  | finish hn hcancel => exact reconnects_of_same nofun nofun
  | drain hopen => exact reconnects_of_same nofun nofun
  | returned hdraining hp => exact reconnects_of_same nofun nofun
  | timeout hdraining hp => exact reconnects_of_same nofun nofun
  | drop hopen => exact reconnects_of_same nofun nofun
  | cancel haborted hp =>
    generalize s.point = p
    cases p <;> exact ⟨.stop _, rfl⟩

/-! ## The advisory logger -/

def advisoryPhase : AdvisoryPoint → Phase Duration
  | .subscribe => .ready AdvisoryPoint.initialBackoff
  | .next b | .resubscribe b => .ready b
  | .streamEnded b | .resubscribeFailed b => .waiting b
  | .failed _ | .aborted => .ended

/-- What comes of the stream of the logger at a point by an action; a logger whose first
subscription is refused never comes to run. -/
def advisoryOutcome : AdvisoryPoint → AdvisoryAction → Option ReconnectOutcome
  | .subscribe, .subscribed (.ok ()) | .resubscribe _, .subscribed (.ok ()) => some .opened
  | .resubscribe _, .subscribed (.error _) => some .failed
  | .next _, .received false => some .ended
  | _, _ => none

/-- What is seen of the stream of the logger: that it is opened, and every call of `sleep`. -/
def advisoryMark (opts : AdvisoryLogOptions) (p : AdvisoryPoint) (a : AdvisoryAction)
    (q : AdvisoryPoint) : Option (Mark Duration) :=
  if advisoryOutcome p a = some .opened then some .opened
  else
    match q.view opts with
    | some ⟨.sleep b, _⟩ => some (.wait b)
    | _ => none

/-- What a step of the logger does to its waits. -/
abbrev AdvisoryReconnects (opts : AdvisoryLogOptions) (p : AdvisoryPoint) (a : AdvisoryAction)
    (q : AdvisoryPoint) : Prop :=
  Reconnects (advisoryPhase p) (advisoryMark opts p a q) (advisoryOutcome p a) (advisoryPhase q)

/-- **The logger is paced.** -/
theorem advisory_reconnects {opts : AdvisoryLogOptions} {p q : AdvisoryPoint} {a : AdvisoryAction}
    (h : p.step opts a = some q) : AdvisoryReconnects opts p a q := by
  cases a with
  | subscribed answer =>
    cases p with
    | subscribe =>
      obtain rfl := Option.some.inj h
      cases answer with
      | ok u => exact ⟨.opened _, rfl⟩
      | error e => exact ⟨.stop _, rfl⟩
    | resubscribe b =>
      obtain rfl := Option.some.inj h
      cases answer with
      | ok u => exact ⟨.opened _, rfl⟩
      | error e => exact ⟨.wait _, rfl⟩
    | _ => cases h
  | received message =>
    cases p with
    | next b =>
      obtain rfl := Option.some.inj h
      cases message
      · exact ⟨.wait _, rfl⟩
      · exact ⟨.stay _, rfl⟩
    | _ => cases h
  | slept =>
    cases p with
    | streamEnded b =>
      obtain rfl := Option.some.inj h
      exact ⟨.resume _, rfl⟩
    | resubscribeFailed b =>
      obtain rfl := Option.some.inj h
      exact ⟨.resume _, rfl⟩
    | _ => cases h
  | abort =>
    obtain ⟨-, hq⟩ := Option.ite_none_right_eq_some.mp h
    obtain rfl := Option.some.inj hq
    cases p <;> exact ⟨.stop _, rfl⟩

end EventBus.Interface
