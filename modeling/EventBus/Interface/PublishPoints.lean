import EventBus.Lib.Sites
import EventBus.Model.EventFlow

/-!
# The control points of a publisher

A publisher is at the publish of an event, with the receipts that it has and the events that are
left, or it has returned.  `pointsOfPublish` reads the points as the program text, as
`EventBus.Interface.ControlPoints` does for workers.
-/

set_option autoImplicit false

namespace EventBus.Interface

open EventBus.Model EventBus.Lib

variable {U E : Type} [UuidCrate U]

/-- The places at which a publisher can be. -/
inductive PublishPoint (E : Type) where
  | publish (receipts : List PubReceipt) (event : E) (rest : List E) (payload : Bytes)
  | returned (result : Except BusError (List PubReceipt))

/-- The receipt of an acknowledgement. -/
def receiptOf (ack : PubAck) : PubReceipt := ⟨ack.stream, ack.sequence, ack.duplicate⟩

namespace PublishPoint

variable (T : EventTrait U E)

/-- Where a publisher goes with the events that are left. -/
def next (receipts : List PubReceipt) : List E → PublishPoint E
  | [] => .returned (.ok receipts)
  | event :: rest =>
    match T.toVec event with
    | .error e => .returned (.error (.serde e))
    | .ok payload => .publish receipts event rest payload

omit [UuidCrate U] in
/-- INTERNAL: an event that cannot be written ends the publisher.
SRC: publisher.rs:26-50 -/
theorem next_of_error {event : E} {e : String} (hvec : T.toVec event = .error e)
    (receipts : List PubReceipt) (rest : List E) :
    next T receipts (event :: rest) = .returned (.error (.serde e)) := by
  simp only [next, hvec]

omit [UuidCrate U] in
/-- INTERNAL: an event that can be written is published next.
SRC: publisher.rs:26-50 -/
theorem next_of_ok {event : E} {payload : Bytes} (hvec : T.toVec event = .ok payload)
    (receipts : List PubReceipt) (rest : List E) :
    next T receipts (event :: rest) = .publish receipts event rest payload := by
  simp only [next, hvec]

/-- The publish of an event. -/
def call (event : E) (payload : Bytes) : PublishWithHeaders where
  subject := T.subject event
  headers := HeaderMap.insert [] hdrNatsMsgId (T.msgId event)
  payload := payload

/-- Where a publisher goes from the answer to its publish. -/
def afterPublish (receipts : List PubReceipt) (rest : List E) :
    Except String PubAck → PublishPoint E
  | .error e => .returned (.error (.publish e))
  | .ok ack => next T (receipts ++ [receiptOf ack]) rest

/-- The call of a publisher at a point and where it goes from the answer. -/
def view : PublishPoint E → Option ((c : PublishWithHeaders) × (c.Resp → PublishPoint E))
  | .publish receipts event rest payload =>
    some ⟨call T event payload, afterPublish T receipts rest⟩
  | .returned _ => none

/-- The program that is left at a point. -/
def code : PublishPoint E → Publishing (Except BusError (List PubReceipt))
  | .publish receipts event rest payload => .call (call T event payload) fun
    | .error e => .pure (.error (.publish e))
    | .ok ack => publishRest T (receipts ++ [receiptOf ack]) rest
  | .returned result => .pure result

/-- INTERNAL: the program that is left is the rest of the publisher. -/
theorem code_next (receipts : List PubReceipt) (rest : List E) :
    (next T receipts rest).code T = publishRest T receipts rest := by
  cases rest with
  | nil => rfl
  | cons event rest =>
    cases hvec : T.toVec event with
    | error e =>
      simp only [next, code, publishRest, Model.publish, hvec, Prog.pure_eq, Prog.pure_bind']
    | ok payload =>
      simp only [next, code, publishRest, Model.publish, hvec, Prog.perform_bind, Prog.call_bind]
      congr 1
      funext r
      cases r <;> rfl

/-- INTERNAL: the program of a point makes the call of the point and goes on with the program of
the point that follows. -/
theorem view_code (p : PublishPoint E) :
    (p.code T).view = (p.view T).map fun ck => ⟨ck.1, fun r => (ck.2 r).code T⟩ := by
  cases p with
  | publish receipts event rest payload =>
    simp only [code, Prog.view_call, view, Option.map_some]
    congr 2
    funext r
    cases r with
    | error e => rfl
    | ok ack => exact (code_next T _ rest).symm
  | returned result => rfl

end PublishPoint

/-- The publishers as points. -/
abbrev publishPoints (T : EventTrait U E) : Machine (publications E) where
  Point := PublishPoint E
  start job := PublishPoint.next T [] job.events
  view _ := PublishPoint.view T

/-- INTERNAL: at first it is all of it. -/
theorem code_publishJob (T : EventTrait U E) (job : PublishJob E) :
    (PublishPoint.next T [] job.events).code T = publishJob T job := by
  rw [PublishPoint.code_next]
  cases job with
  | batch events => rfl
  | one event =>
    simp only [PublishJob.events, publishRest, publishJob, publish]
    cases T.toVec event with
    | error e => rfl
    | ok payload =>
      simp only [Prog.perform_bind, Prog.call_bind]
      congr 1
      funext r
      cases r <;> rfl

/-- **The points are the program text.** -/
def pointsOfPublish (T : EventTrait U E) : Hom (publishPoints T) (allPublishers T) where
  map _ p := p.code T
  map_start := code_publishJob T
  map_view _ p := p.view_code T

/-- INTERNAL: coming to a point does nothing. -/
theorem reachPoint_publishPoints (T : EventTrait U E) (i : ℕ) (job : PublishJob E)
    (p : PublishPoint E) (sh : Publications E) :
    reachPoint (publishPoints T) i job p sh = sh := by
  unfold reachPoint
  split <;> rfl

end EventBus.Interface
