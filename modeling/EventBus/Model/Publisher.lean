import EventBus.Lib.Pool
import EventBus.Model.Dlq

/-!
# Publishing events

`publish` and `publishBatch` as programs over the one call a publisher makes, and the stream
that answers it: it stores a message unless it has one of the same id within its duplicate
window, and answers with the sequence number at which the message of that id is stored.

`publishing` is the world of all the publishers of one batch.  A publish may fail for its
caller whether or not it reaches the stream, and may reach it late; others publish to the
stream as well, under ids that are not in the batch.
-/

set_option autoImplicit false

namespace EventBus.Model

open EventBus.Lib (Prog World Machine)
open EventBus.Lib.Prog (perform)

/-- What the bus asks of its events.
SRC: event.rs:10-17, publisher.rs:28 -/
structure EventTrait (U E : Type) where
  subject : E → String
  messageId : E → MessageId U
  /-- `serde_json::to_vec`. -/
  toVec : E → Except String Bytes

/-- Receipt returned after a successful publish.
SRC: publisher.rs:4-15 -/
structure PubReceipt where
  stream : String
  sequence : ℕ
  duplicate : Bool
  deriving DecidableEq

/-- What the stream acknowledges a publish with. -/
structure PubAck where
  stream : String
  sequence : ℕ
  duplicate : Bool

/-- The call a publisher makes.  The source's two awaits, for the server to take the message
and for its acknowledgement, are one. -/
structure PublishWithHeaders where
  subject : String
  headers : HeaderMap
  payload : Bytes

abbrev PublishWithHeaders.Resp (_ : PublishWithHeaders) : Type := Except String PubAck

/-- A publisher between two calls. -/
abbrev Publishing (α : Type) := Prog PublishWithHeaders PublishWithHeaders.Resp α

section

variable {U E : Type} [UuidCrate U] (T : EventTrait U E)

/-- The id an event is published under.
SRC: publisher.rs:27 -/
def EventTrait.msgId (event : E) : String := (T.messageId event).toString

/-- SRC: publisher.rs:26-50 -/
def publish (event : E) : Publishing (Except BusError PubReceipt) :=
  match T.toVec event with
  | .error e => pure (.error (.serde e))
  | .ok payload => do
    let headers := HeaderMap.insert [] hdrNatsMsgId (T.msgId event)
    match ← perform (⟨T.subject event, headers, payload⟩ : PublishWithHeaders) with
    | .error e => pure (.error (.publish e))
    | .ok ack => pure (.ok ⟨ack.stream, ack.sequence, ack.duplicate⟩)

/-- The loop of `publish_batch`, with the receipts it has.
SRC: publisher.rs:30-32 -/
def publishRest (receipts : List PubReceipt) :
    List E → Publishing (Except BusError (List PubReceipt))
  | [] => pure (.ok receipts)
  | event :: events => do
    match ← publish T event with
    | .error e => pure (.error e)
    | .ok receipt => publishRest (receipts ++ [receipt]) events

/-- SRC: publisher.rs:27-35 -/
def publishBatch (events : List E) : Publishing (Except BusError (List PubReceipt)) :=
  publishRest T [] events

end

/-! ## The stream -/

/-- A message of a stream. -/
structure StoredMessage where
  sequence : ℕ
  subject : String
  headers : HeaderMap
  payload : Bytes
  storedAt : ℕ
  deriving DecidableEq

def StoredMessage.msgId (m : StoredMessage) : Option String := m.headers.get hdrNatsMsgId

/-- A stream that deduplicates, and its clock. -/
structure EventStream where
  name : String
  duplicateWindow : ℕ
  now : ℕ
  lastSequence : ℕ
  /-- Oldest first. -/
  messages : List StoredMessage

namespace EventStream

/-- The message of the id that was stored within the duplicate window. -/
def duplicateOf (s : EventStream) (msgId : String) : Option StoredMessage :=
  s.messages.find? fun m =>
    decide (m.msgId = some msgId) && decide (s.now < m.storedAt + s.duplicateWindow)

/-- The message a publish is a duplicate of. -/
def original (s : EventStream) (c : PublishWithHeaders) : Option StoredMessage :=
  (c.headers.get hdrNatsMsgId).bind s.duplicateOf

/-- The message that a publish is stored as. -/
def stored (s : EventStream) (c : PublishWithHeaders) : StoredMessage :=
  ⟨s.lastSequence + 1, c.subject, c.headers, c.payload, s.now⟩

/-- The stream takes a publish. -/
def take (s : EventStream) (c : PublishWithHeaders) : EventStream :=
  match s.original c with
  | some _ => s
  | none =>
    { s with
      lastSequence := s.lastSequence + 1
      messages := s.messages ++ [s.stored c] }

def ack (s : EventStream) (c : PublishWithHeaders) : PubAck :=
  match s.original c with
  | some m => ⟨s.name, m.sequence, true⟩
  | none => ⟨s.name, s.lastSequence + 1, false⟩

end EventStream

/-- What goes on beside the publishers of a batch: time passes, and others publish. -/
inductive StreamDrift (msgIds : List String) where
  | elapse (elapsed : ℕ)
  | publish (c : PublishWithHeaders) (foreign : ∀ id ∈ msgIds, c.headers.get hdrNatsMsgId ≠ some id)

section

variable {U E : Type} [UuidCrate U] (T : EventTrait U E) (events : List E)

/-- The ids of a batch. -/
def msgIds : List String := events.map T.msgId

/-- The world of the publishers of a batch. -/
abbrev publishing : World where
  Call := PublishWithHeaders
  Resp := PublishWithHeaders.Resp
  Shared := EventStream
  Job := Unit
  Choice := Unit
  Err := String
  Drift := StreamDrift (msgIds T events)
  enlist _ _ s := s
  reach _ _ _ s := s
  effect _ _ _ c _ s := s.take c
  answer _ c _ s := .ok (s.ack c)
  remote _ := true
  failure _ e := some (.error e)
  drift e s :=
    match e with
    | .elapse elapsed => { s with now := s.now + elapsed }
    | .publish c _ => s.take c

/-- Its publishers: each calls `publish_batch` once. -/
abbrev publishers : Machine (publishing T events) where
  Point := Publishing (Except BusError (List PubReceipt))
  start _ := publishBatch T events
  view _ p := p.view

end

end EventBus.Model
