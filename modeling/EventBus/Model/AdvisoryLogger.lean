import EventBus.Model.Core

/-!
# Logging advisories

`spawn_jetstream_advisory_logger` subscribes to the advisories of JetStream and leaves a task
behind that logs each of them.  When the subscription ends, the task waits and subscribes
again, until it succeeds.  The task never returns on its own and is given by its control
points, like the one of `EventBus.Model.Subscription`; a point carries the wait before the next
attempt.  The two places at which the task waits have points of their own.
-/

set_option autoImplicit false

namespace EventBus.Model

/-- SRC: advisory.rs:17 -/
def defaultAdvisorySubjectFilter : String := "$JS.EVENT.ADVISORY.>"

/-- The options of the logger, as far as its task is concerned.
SRC: advisory.rs:19-35 -/
structure AdvisoryLogOptions where
  subjectFilter : String := defaultAdvisorySubjectFilter

/-- What the logger awaits. -/
inductive AdvisoryCall where
  | subscribe (subjectFilter : String)
  | next
  | sleep (backoffDuration : Duration)
  deriving DecidableEq

/-- What each call is answered with; `next` answers whether there is a message, and there is
none any more when the stream has ended. -/
abbrev AdvisoryCall.Resp : AdvisoryCall → Type
  | .subscribe _ => Except String Unit
  | .next => Bool
  | .sleep _ => Unit

/-- The places at which the logger can be. -/
inductive AdvisoryPoint where
  /-- The first subscription, before the task is spawned. -/
  | subscribe
  /-- `spawn_jetstream_advisory_logger` has returned an error. -/
  | failed (error : BusError)
  | next (backoffDuration : Duration)
  /-- The wait after the stream has ended. -/
  | streamEnded (backoffDuration : Duration)
  | resubscribe (backoffDuration : Duration)
  /-- The wait after a subscription was refused. -/
  | resubscribeFailed (backoffDuration : Duration)
  /-- The handle was dropped. -/
  | aborted
  deriving DecidableEq

inductive AdvisoryAction where
  | subscribed (answer : Except String Unit)
  | received (message : Bool)
  | slept
  /-- The handle is dropped. -/
  | abort

namespace AdvisoryPoint

/-- SRC: advisory.rs:153, advisory.rs:171 -/
def initialBackoff : Duration := .fromMillis 200

/-- SRC: advisory.rs:165, advisory.rs:181 -/
def nextBackoff (backoffDuration : Duration) : Duration :=
  min (backoffDuration * 2) (.fromSecs 30)

/-- The call of the logger at a point and where it goes from the answer.
SRC: advisory.rs:137-194 -/
def view (opts : AdvisoryLogOptions) :
    AdvisoryPoint → Option ((c : AdvisoryCall) × (c.Resp → AdvisoryPoint))
  | .subscribe => some ⟨.subscribe opts.subjectFilter, fun
    | .ok () => .next initialBackoff
    | .error e => .failed (.nats e)⟩
  | .failed _ => none
  | .next backoffDuration => some ⟨.next, fun message : Bool =>
      if message then .next backoffDuration else .streamEnded backoffDuration⟩
  | .streamEnded backoffDuration =>
    some ⟨.sleep backoffDuration, fun _ => .resubscribe (nextBackoff backoffDuration)⟩
  | .resubscribe backoffDuration => some ⟨.subscribe opts.subjectFilter, fun
    | .ok () => .next initialBackoff
    | .error _ => .resubscribeFailed backoffDuration⟩
  | .resubscribeFailed backoffDuration =>
    some ⟨.sleep backoffDuration, fun _ => .resubscribe (nextBackoff backoffDuration)⟩
  | .aborted => none

/-- The task has been spawned and not aborted. -/
def running : AdvisoryPoint → Bool
  | .next _ | .streamEnded _ | .resubscribe _ | .resubscribeFailed _ => true
  | _ => false

/-- The logger taking one step.
SRC: advisory.rs:37-46, advisory.rs:137-194 -/
def step (opts : AdvisoryLogOptions) (p : AdvisoryPoint) :
    AdvisoryAction → Option AdvisoryPoint
  | .abort => if p.running then some .aborted else none
  | .subscribed answer =>
    match p.view opts with
    | some ⟨.subscribe _, k⟩ => some (k answer)
    | _ => none
  | .received message =>
    match p.view opts with
    | some ⟨.next, k⟩ => some (k message)
    | _ => none
  | .slept =>
    match p.view opts with
    | some ⟨.sleep _, k⟩ => some (k ())
    | _ => none

end AdvisoryPoint

end EventBus.Model
