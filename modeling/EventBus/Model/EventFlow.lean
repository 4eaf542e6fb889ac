import EventBus.Lib.RelyGuarantee
import EventBus.Lib.Topic
import EventBus.Model.Publisher
import EventBus.Model.RunningBus

/-!
# Events on their way

Any number of publishers publish to a stream, one event or a batch at a time, and a bus
subscribes to it.  `publications` is the world of the publishers, with a record of the events
that they were asked to publish.  `eventFlow` puts the publishers and the bus together: they
share nothing but the stream, and meet where the worker of a message is started, for the message
is then one that the stream has stored and the filter of the consumer lets through.

Which messages are delivered, how often and in what order is left open.
-/

set_option autoImplicit false

namespace EventBus.Model

open EventBus.Lib (Action Coupling Machine State Topic.passes World programs)

variable {U E : Type} [UuidCrate U]

/-- What a publisher is asked for. -/
inductive PublishJob (E : Type) where
  | one (event : E)
  | batch (events : List E)

def PublishJob.events : PublishJob E → List E
  | .one event => [event]
  | .batch events => events

/-- A stream, and the events that its publishers were asked to publish. -/
structure Publications (E : Type) where
  stream : EventStream
  asked : List E

/-- The world of the publishers of a stream. -/
abbrev publications (E : Type) : World where
  Call := PublishWithHeaders
  Resp := PublishWithHeaders.Resp
  Shared := Publications E
  Job := PublishJob E
  Choice := Unit
  Err := String
  Drift := ℕ
  enlist _ job p := { p with asked := job.events ++ p.asked }
  reach _ _ _ p := p
  effect _ _ _ c _ p := { p with stream := p.stream.take c }
  answer _ c _ p := .ok (p.stream.ack c)
  remote _ := true
  failure _ e := some (.error e)
  drift elapsed p := { p with stream := { p.stream with now := p.stream.now + elapsed } }

section

variable (T : EventTrait U E)

/-- What a publisher does: the receipt of a single event is a list of one.
SRC: publisher.rs:22-35, bus.rs:64-67 -/
def publishJob : PublishJob E → Publishing (Except BusError (List PubReceipt))
  | .one event => do
    let published ← publish T event
    pure (published.map fun receipt => [receipt])
  | .batch events => publishBatch T events

/-- The publishers of a stream. -/
abbrev allPublishers : Machine (publications E) :=
  programs (publications E) (Except BusError (List PubReceipt)) (publishJob T)

end

/-- A delivery of a stored message: its subject, headers and payload as they were stored, and,
unless it cannot be read, its sequence number. -/
def StoredMessage.carriedBy (m : StoredMessage) (msg : Message) : Bool :=
  decide (msg.subject = m.subject) && decide (msg.headers = some m.headers) &&
    decide (msg.payload = m.payload) &&
    match msg.info with
    | .ok info => decide (info.streamSequence = m.sequence)
    | .error _ => true

/-- The consumer of a subscription has the message to deliver. -/
def EventStream.delivers (stream : EventStream) (opts : SubscribeOptions) (msg : Message) : Bool :=
  decide (opts.stream = stream.name) &&
    stream.messages.any fun m => m.carriedBy msg && Topic.passes opts.filter m.subject

/-- Everything that can happen to the publishers and the bus. -/
inductive FlowAction (Γ : Deployment U E) where
  | publish (a : Action (publications E))
  | bus (g : BusAction Γ)

variable {Γ : Deployment U E}

/-- How the publishers and the bus meet. -/
def eventFlow (opts : Γ.Sub → SubscribeOptions) {P Q : Type} :
    Coupling (State (publications E) P) (BusState Γ Q) (Action (publications E)) (BusAction Γ)
      (FlowAction Γ) where
  may publishers _
    | .bus (.spawn sub _ msg) => publishers.shared.stream.delivers (opts sub) msg
    | _ => true
  left
    | .publish a => some a
    | .bus _ => none
  right
    | .publish _ => none
    | .bus g => some g

/-- The publishers and the bus taking one step. -/
def flowStep [DecidableEq Γ.Sub] (T : EventTrait U E) (opts : Γ.Sub → SubscribeOptions)
    (number : Γ.Sub × ℕ ↪ ℕ) (M : Machine (world Γ)) :
    State (publications E) (allPublishers T).Point × BusState Γ M.Point → FlowAction Γ →
      Option (State (publications E) (allPublishers T).Point × BusState Γ M.Point) :=
  (eventFlow opts).step (EventBus.Lib.step (allPublishers T)) (busStep number M)

end EventBus.Model
