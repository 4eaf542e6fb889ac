import EventBus.Lib.Pool
import EventBus.Model.Redis
import EventBus.Model.Subscriber

/-!
# The world of the workers

A `Deployment` is a set of subscriptions over one idempotency store.  Its world is the
state the workers act on (the clock, the store, the dead letter streams) together with a
log of what happened, newest first; for every call of `EventBus.Model.Subscriber` it says
what serving the call does and what it answers.

A worker is started for a `Delivery`.  Which deliveries are made, and when, is left open
here: a result that relies on the server's delivery policy says so.  A call that another
party serves may fail with or without its effect, or take effect after its caller has
given up; that is the business of `EventBus.Lib.Pool`.
-/

set_option autoImplicit false

namespace EventBus.Model

open EventBus.Lib (World Machine)

variable {U E : Type} [UuidCrate U]

/-- Subscriptions that share an idempotency store.
SRC: bus.rs:57-91 -/
structure Deployment (U E : Type) where
  Sub : Type
  options : Sub → ProcessingOptions
  /-- `serde_json::from_slice` for the event type of the subscription. -/
  fromSlice : Sub → Bytes → Except String E
  store : Store U
  /-- The duplicate window of the dead letter stream behind a subject, in milliseconds. -/
  duplicateWindow : String → ℕ

/-- Subscriptions that share a Redis store. -/
def Deployment.overRedis {Sub : Type} (redis : RedisIdempotencyStore)
    (options : Sub → ProcessingOptions) (fromSlice : Sub → Bytes → Except String E)
    (duplicateWindow : String → ℕ) : Deployment U E where
  Sub := Sub
  options := options
  fromSlice := fromSlice
  store := redis.store
  duplicateWindow := duplicateWindow

/-- A message as it is delivered to a subscription. -/
structure Delivery (Γ : Deployment U E) where
  sub : Γ.Sub
  msg : Message

namespace Delivery

variable {Γ : Deployment U E} (d : Delivery Γ)

def options : ProcessingOptions := Γ.options d.sub

/-- What `Message::info` reads; the default is never used, since a worker returns at once
when it cannot be read. -/
def info : Info :=
  match d.msg.info with
  | .ok info => info
  | .error _ => ⟨0, 0⟩

/-- Whether `Message::info` can be read. -/
def readable : Bool := d.msg.info.toBool

/-- The id the worker claims. -/
def msgId : MessageId U := messageId d.options d.msg d.info

/-- The stream, the durable and the sequence number: what tells source messages apart. -/
def origin : String × String × ℕ :=
  (d.options.source, d.options.durable, d.info.streamSequence)

end Delivery

/-- A message of a dead letter stream. -/
structure DlqRecord where
  subject : String
  headers : HeaderMap
  payload : Bytes
  storedAt : ℕ

/-- What can happen to a delivery. -/
inductive Occurrence where
  | delivered
  | claimed
  | began
  | handled (result : Except HandlerError Unit)
  | markedDone
  | released
  /-- A dead letter publish was acknowledged to its worker. -/
  | dlqAcked
  /-- A dead letter publish reached the stream, but its acknowledgement no worker. -/
  | dlqLost
  | acked
  | naked
  | termed
  deriving DecidableEq

/-- One line of the log. -/
structure Entry (Γ : Deployment U E) where
  worker : ℕ
  delivery : Delivery Γ
  time : ℕ
  what : Occurrence

/-- The state the workers share. -/
structure Shared (Γ : Deployment U E) where
  /-- Milliseconds since the epoch. -/
  now : ℕ
  store : Γ.store.State
  /-- Every dead letter that a stream has stored, newest first.  What a stream lets go later, by
  its age or size or in a purge, stays on this record. -/
  dlq : List DlqRecord
  /-- What happened, newest first. -/
  log : List (Entry Γ)

/-- The shared state before any delivery, over a store and dead letters of any content. -/
def Shared.initial {Γ : Deployment U E} (now : ℕ) (store : Γ.store.State)
    (dlq : List DlqRecord) : Shared Γ :=
  ⟨now, store, dlq, []⟩

/-- What the other end of a call decides. -/
structure Choice (Γ : Deployment U E) where
  store : Γ.store.Choice
  handler : Except HandlerError Unit

/-- What a worker is told when a call fails on the way. -/
structure CallError where
  error : BusError
  publish : PublishFailure

/-- Time passes, and the store does what it does on its own. -/
structure Drift (Γ : Deployment U E) where
  elapsed : ℕ
  store : Γ.store.Choice

namespace Shared

variable {Γ : Deployment U E}

/-- A line is added to the log. -/
def note (sh : Shared Γ) (i : ℕ) (d : Delivery Γ) (what : Occurrence) : Shared Γ :=
  { sh with log := ⟨i, d, sh.now, what⟩ :: sh.log }

/-- `try_claim` is served. -/
def tryClaim (sh : Shared Γ) (i : ℕ) (d : Delivery Γ) (ch : Choice Γ) (key : MessageId U) :
    Shared Γ :=
  match Γ.store.tryClaim sh.now ch.store key sh.store with
  | (.ok .claimed, store) => { sh with store := store }.note i d .claimed
  | (_, store) => { sh with store := store }

/-- `mark_done` is served. -/
def markDone (sh : Shared Γ) (i : ℕ) (d : Delivery Γ) (ch : Choice Γ) (key : MessageId U) :
    Shared Γ :=
  match Γ.store.markDone sh.now ch.store key sh.store with
  | (.ok _, store) => { sh with store := store }.note i d .markedDone
  | (.error _, store) => { sh with store := store }

/-- `release` is served. -/
def release (sh : Shared Γ) (i : ℕ) (d : Delivery Γ) (ch : Choice Γ) (key : MessageId U) :
    Shared Γ :=
  match Γ.store.release sh.now ch.store key sh.store with
  | (.ok _, store) => { sh with store := store }.note i d .released
  | (.error _, store) => { sh with store := store }

/-- The dead letter stream behind `subject` has stored a message with this id within its
duplicate window. -/
def isDuplicate (sh : Shared Γ) (subject : String) (msgId : Option String) : Bool :=
  sh.dlq.any fun r => decide (r.subject = subject) && msgId.isSome &&
    decide (r.headers.get hdrNatsMsgId = msgId) &&
    decide (sh.now < r.storedAt + Γ.duplicateWindow subject)

/-- A dead letter stream takes a publish: it stores the message unless it is a duplicate. -/
def publish (sh : Shared Γ) (subject : String) (headers : HeaderMap) (payload : Bytes) :
    Shared Γ :=
  if sh.isDuplicate subject (headers.get hdrNatsMsgId) then sh
  else { sh with dlq := ⟨subject, headers, payload, sh.now⟩ :: sh.dlq }

/-- The effect of serving a call. -/
def effect (seen : Bool) (i : ℕ) (d : Delivery Γ) : Call U E → Choice Γ → Shared Γ → Shared Γ
  | .tryClaim key, ch, sh => sh.tryClaim i d ch key
  | .markDone key, ch, sh => sh.markDone i d ch key
  | .release key, ch, sh => sh.release i d ch key
  | .handle _ _, ch, sh => sh.note i d (.handled ch.handler)
  | .unixTimestampSeconds, _, sh => sh
  | .publishWithHeaders subject headers payload _, _, sh =>
    (sh.publish subject headers payload).note i d (if seen then .dlqAcked else .dlqLost)
  | .doubleAck, _, sh => sh.note i d .acked
  | .nakWithDelay _, _, sh => sh.note i d .naked
  | .term, _, sh => sh.note i d .termed

/-- The answer of serving a call. -/
def answer : (c : Call U E) → Choice Γ → Shared Γ → c.Resp
  | .tryClaim key, ch, sh => (Γ.store.tryClaim sh.now ch.store key sh.store).1
  | .markDone key, ch, sh => (Γ.store.markDone sh.now ch.store key sh.store).1
  | .release key, ch, sh => (Γ.store.release sh.now ch.store key sh.store).1
  | .handle _ _, ch, _ => ch.handler
  | .unixTimestampSeconds, _, sh => toString (sh.now / 1000)
  | .publishWithHeaders _ _ _ _, _, _ => .ok ()
  | .doubleAck, _, _ => .ok ()
  | .nakWithDelay _, _, _ => .ok ()
  | .term, _, _ => .ok ()

end Shared

/-- Handlers and the wall clock are the worker's own. -/
def Call.isRemote : Call U E → Bool
  | .handle _ _ => false
  | .unixTimestampSeconds => false
  | _ => true

/-- The failures of a publish with this timeout: nothing times out without one.
SRC: dlq.rs:177-196 -/
def PublishFailure.possible (publishAckTimeout : Option Duration) : PublishFailure → Bool
  | .sendTimeout => publishAckTimeout.isSome
  | .ackTimeout => publishAckTimeout.isSome
  | _ => true

/-- What a worker is told when a call fails on the way. -/
def Call.failure : (c : Call U E) → CallError → Option c.Resp
  | .tryClaim _, err => some (.error err.error)
  | .markDone _, err => some (.error err.error)
  | .release _, err => some (.error err.error)
  | .handle _ _, _ => none
  | .unixTimestampSeconds, _ => none
  | .publishWithHeaders _ _ _ timeout, err =>
    if err.publish.possible timeout then some (.error err.publish) else none
  | .doubleAck, err => some (.error err.error)
  | .nakWithDelay _, err => some (.error err.error)
  | .term, err => some (.error err.error)

/-- The world of a deployment. -/
abbrev world (Γ : Deployment U E) : World where
  Call := Call U E
  Resp := Call.Resp
  Shared := Shared Γ
  Job := Delivery Γ
  Choice := Choice Γ
  Err := CallError
  Drift := Drift Γ
  enlist i d sh := sh.note i d .delivered
  reach i d c sh :=
    match c with
    | .handle _ _ => sh.note i d .began
    | _ => sh
  effect := Shared.effect
  answer _ := Shared.answer
  remote := Call.isRemote
  failure := Call.failure
  drift e sh := { sh with now := sh.now + e.elapsed, store := Γ.store.tick e.store sh.store }

/-- The workers as the source has them: a worker is the program `processMessage`. -/
abbrev codeMachine (Γ : Deployment U E) : Machine (world Γ) where
  Point := Worker U E Unit
  start d := processMessage (Γ.fromSlice d.sub) d.msg d.options
  view _ p := p.view

end EventBus.Model
