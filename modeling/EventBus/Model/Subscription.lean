import EventBus.Lib.Pool
import EventBus.Model.Subscriber

/-!
# Subscribing

`subscribe` creates the consumer and the dead letter stream and then leaves a task behind
that pulls messages and starts a worker for each.  When the pull ends, the task waits,
asks for the consumer again and goes on, until it is told to shut down.

The task never returns on its own, so it is given by its control points.  A point carries
the wait before the next reconnect; everything else is in the options.  The workers, which
share nothing with the task but a permit, are the subject of `EventBus.Model.World`.

The server keeps a configuration for every stream and durable.  `get_or_create_consumer`
returns the one it has, or keeps the one it is given.
-/

set_option autoImplicit false

namespace EventBus.Model

open EventBus.Lib (World Machine)

/-- The acknowledgement policies of a consumer. -/
inductive AckPolicy where
  | explicit
  | none
  | all
  deriving DecidableEq

/-- The messages a new consumer starts with: all of the stream, or those from now on. -/
inductive DeliverPolicy where
  | all
  | new
  deriving DecidableEq

/-- The configuration of a pull consumer, as far as the source sets it. -/
structure PullConfig where
  durableName : Option String
  filterSubject : String
  ackPolicy : AckPolicy
  deliverPolicy : DeliverPolicy
  ackWait : Duration
  maxDeliver : ℤ
  backoff : List Duration
  deriving DecidableEq

/-- Build a pull consumer config for durable consumption.
SRC: consumer.rs:5-22 -/
def buildPullConfig (durable filter : String) (maxDeliver : ℤ) (ackWait : Duration)
    (backoff : List Duration) : PullConfig where
  durableName := some durable
  filterSubject := filter
  ackPolicy := .explicit
  deliverPolicy := .all
  ackWait := ackWait
  maxDeliver := maxDeliver
  backoff := backoff

/-- Options for subscribing to events from a stream.
SRC: subscriber.rs:29-60 -/
structure SubscribeOptions where
  stream : String := "EVENTS"
  durable : String := "default-worker"
  filter : String := ">"
  maxDeliver : ℤ := 5
  ackWait : Duration := .fromSecs 30
  backoff : List Duration := [.fromSecs 1, .fromSecs 5, .fromSecs 30, .fromSecs 300]
  concurrency : ℕ := 1
  dlq : Option DlqOptions := none

namespace SubscribeOptions

variable (opts : SubscribeOptions)

/-- The consumer a subscription is about. -/
def consumer : String × String := (opts.stream, opts.durable)

/-- The configuration the subscription asks for, at first and at every reconnect.
SRC: subscriber.rs:173-179, subscriber.rs:232-238 -/
def pullConfig : PullConfig :=
  buildPullConfig opts.durable opts.filter opts.maxDeliver opts.ackWait opts.backoff

/-- What every worker of the subscription is given.
SRC: subscriber.rs:193-200 -/
def processingOptions : ProcessingOptions where
  dlqOpts := opts.dlq
  source := opts.stream
  durable := opts.durable
  maxDeliver := opts.maxDeliver
  backoff := opts.backoff

end SubscribeOptions

/-- The error of `ensure_dlq_stream` and the one `subscribe` makes of it.
SRC: dlq.rs:168, subscriber.rs:189 -/
def ensureDlqError (dlqStreamName error : String) : BusError :=
  .nats ("ensure dlq stream " ++ dlqStreamName ++ ": " ++ error)

/-- SRC: subscriber.rs:26 -/
def reconnectBackoffInitial : Duration := .fromMillis 200

/-- SRC: subscriber.rs:27 -/
def reconnectBackoffMax : Duration := .fromSecs 30

/-- SRC: subscriber.rs:256 -/
def nextBackoff (reconnectBackoff : Duration) : Duration :=
  min (reconnectBackoff * 2) reconnectBackoffMax

/-- What a subscription awaits. -/
inductive SubCall where
  | getStream (name : String)
  | getOrCreateConsumer (stream durable : String) (config : PullConfig)
  | ensureDlqStream (name subject : String) (config : DlqConfig)
  | messages
  /-- The next item of the pull, or the signal to shut down. -/
  | next
  | acquirePermit
  /-- The time to wait before a reconnect, or the signal to shut down. -/
  | sleep (reconnectBackoff : Duration)
  | joinWorkers

/-- What the task is told when it waits for the next message. -/
inductive PullItem where
  | shutdown
  | message
  | itemError
  | ended
  deriving DecidableEq

/-- What each call is answered with; `sleep` answers whether the signal to shut down came
first. -/
abbrev SubCall.Resp : SubCall → Type
  | .getStream _ => Except String Unit
  | .getOrCreateConsumer _ _ _ => Except String PullConfig
  | .ensureDlqStream _ _ _ => Except String Unit
  | .messages => Except String Unit
  | .next => PullItem
  | .acquirePermit => Unit
  | .sleep _ => Bool
  | .joinWorkers => Unit

/-- The places at which a subscription can be. -/
inductive SubPoint where
  | getStream
  | createConsumer
  | ensureDlqStream (config : DlqConfig)
  /-- `subscribe` has returned an error. -/
  | failed (error : BusError)
  | reacquireStream (reconnectBackoff : Duration)
  | reacquireConsumer (reconnectBackoff : Duration)
  | messages (reconnectBackoff : Duration)
  | pull (reconnectBackoff : Duration)
  | permit (reconnectBackoff : Duration)
  | sleep (reconnectBackoff : Duration)
  | drain
  | stopped

namespace SubPoint

/-- Where `subscribe` goes once it has its consumer.
SRC: subscriber.rs:184-190 -/
def afterConsumer (opts : SubscribeOptions) : SubPoint :=
  match opts.dlq with
  | some dlqOpts => .ensureDlqStream dlqOpts.config
  | none => .messages reconnectBackoffInitial

/-- Where the task goes from what it is told while it waits for the next message.
SRC: subscriber.rs:286-343 -/
def afterNext (reconnectBackoff : Duration) : PullItem → SubPoint
  | .shutdown => .drain
  | .message => .permit reconnectBackoff
  | .itemError => .pull reconnectBackoff
  | .ended => .sleep reconnectBackoff

/-- The call of a subscription at a point and where it goes from the answer.
SRC: subscriber.rs:151-350 -/
def view (opts : SubscribeOptions) : SubPoint → Option ((c : SubCall) × (c.Resp → SubPoint))
  | .getStream => some ⟨.getStream opts.stream, fun
    | .ok () => .createConsumer
    | .error e => .failed (.nats e)⟩
  | .createConsumer => some ⟨.getOrCreateConsumer opts.stream opts.durable opts.pullConfig, fun
    | .ok _ => afterConsumer opts
    | .error e => .failed (.nats e)⟩
  | .ensureDlqStream config =>
    some ⟨.ensureDlqStream (dlqStreamName opts.stream opts.durable)
      (dlqSubject opts.stream opts.durable) config, fun
    | .ok () => .messages reconnectBackoffInitial
    | .error e =>
      let name := dlqStreamName opts.stream opts.durable
      .failed (ensureDlqError name (ensureDlqError name e).display)⟩
  | .failed _ => none
  | .reacquireStream reconnectBackoff => some ⟨.getStream opts.stream, fun
    | .ok () => .reacquireConsumer reconnectBackoff
    | .error _ => .sleep reconnectBackoff⟩
  | .reacquireConsumer reconnectBackoff =>
    some ⟨.getOrCreateConsumer opts.stream opts.durable opts.pullConfig, fun
    | .ok _ => .messages reconnectBackoff
    | .error _ => .sleep reconnectBackoff⟩
  | .messages reconnectBackoff => some ⟨.messages, fun
    | .ok () => .pull reconnectBackoffInitial
    | .error _ => .sleep reconnectBackoff⟩
  | .pull reconnectBackoff => some ⟨.next, afterNext reconnectBackoff⟩
  | .permit reconnectBackoff => some ⟨.acquirePermit, fun _ => .pull reconnectBackoff⟩
  | .sleep reconnectBackoff => some ⟨.sleep reconnectBackoff, fun shutdown : Bool =>
      if shutdown then .drain else .reacquireStream (nextBackoff reconnectBackoff)⟩
  | .drain => some ⟨.joinWorkers, fun _ => .stopped⟩
  | .stopped => none

/-- `subscribe` has returned and the task has not. -/
def running : SubPoint → Bool
  | .reacquireStream _ | .reacquireConsumer _ | .messages _ | .pull _ | .permit _ | .sleep _
  | .drain => true
  | _ => false

end SubPoint

/-- The consumers a server has, by stream and durable. -/
abbrev Consumers := String × String → Option PullConfig

namespace Consumers

open Function (update)

/-- The effect of serving a call: a consumer is created unless there is one. -/
def effect : SubCall → Consumers → Consumers
  | .getOrCreateConsumer stream durable config, consumers =>
    match consumers (stream, durable) with
    | none => update consumers (stream, durable) (some config)
    | some _ => consumers
  | _, consumers => consumers

/-- The answer of serving a call; what the task is told while it waits is left open. -/
def answer : (c : SubCall) → PullItem × Bool → Consumers → c.Resp
  | .getStream _, _, _ => .ok ()
  | .getOrCreateConsumer stream durable config, _, consumers =>
    .ok ((consumers (stream, durable)).getD config)
  | .ensureDlqStream _ _ _, _, _ => .ok ()
  | .messages, _, _ => .ok ()
  | .next, ch, _ => ch.1
  | .acquirePermit, _, _ => ()
  | .sleep _, ch, _ => ch.2
  | .joinWorkers, _, _ => ()

end Consumers

/-- The calls that the server answers. -/
def SubCall.isRemote : SubCall → Bool
  | .getStream _ | .getOrCreateConsumer _ _ _ | .ensureDlqStream _ _ _ | .messages => true
  | _ => false

/-- What a subscription is told when a call fails. -/
def SubCall.failure : (c : SubCall) → String → Option c.Resp
  | .getStream _, e => some (.error e)
  | .getOrCreateConsumer _ _ _, e => some (.error e)
  | .ensureDlqStream _ _ _, e => some (.error e)
  | .messages, e => some (.error e)
  | .next, _ => none
  | .acquirePermit, _ => none
  | .sleep _, _ => none
  | .joinWorkers, _ => none

/-- The world of subscriptions on one server.  On its own the server deletes consumers. -/
abbrev subscriptionWorld : World where
  Call := SubCall
  Resp := SubCall.Resp
  Shared := Consumers
  Job := SubscribeOptions
  Choice := PullItem × Bool
  Err := String
  Drift := String × String
  enlist _ _ consumers := consumers
  reach _ _ _ consumers := consumers
  effect _ _ _ c _ consumers := consumers.effect c
  answer _ := Consumers.answer
  remote := SubCall.isRemote
  failure := SubCall.failure
  drift consumer consumers := Function.update consumers consumer none

/-- The subscriptions. -/
abbrev subscriptions : Machine subscriptionWorld where
  Point := SubPoint
  start _ := .getStream
  view := SubPoint.view

end EventBus.Model
