import EventBus.Lib.Layers
import EventBus.Lib.RelyGuarantee
import EventBus.Model.AgedBucket
import EventBus.Model.World

/-!
# Workers over the NATS KV store

The operations of `NatsKvIdempotencyStore` are no single calls: `try_claim` is a `create` and,
when that does not succeed, a `get`.  `onKv` carries out each call of a worker by the requests it
sends, and `kvWorkers` are `process_message` with its store written out in that way.  A request
may fail or take effect late on its own, and a worker may be aborted between two of them.  The
clock goes on meanwhile, and entries age.

`KvDeployment.meant` has the store as it is meant: each operation in one step, on the same bucket.
-/

set_option autoImplicit false

namespace EventBus.Model

open EventBus.Lib (Machine Prog World programs)
open EventBus.Lib.Prog (perform)

variable {U E : Type} [UuidCrate U]

/-! ## The store as it is meant -/

/-- Subscriptions that share a bucket.
SRC: bus.rs:57-91, nats_kv.rs:14-36 -/
structure KvDeployment (U E : Type) where
  Sub : Type
  options : Sub → ProcessingOptions
  /-- `serde_json::from_slice` for the event type of the subscription. -/
  fromSlice : Sub → Bytes → Except String E
  /-- The duplicate window of the dead letter stream behind a subject, in milliseconds. -/
  duplicateWindow : String → ℕ
  /-- How long a key lives in the bucket after it was last written. -/
  maxAge : Duration := .fromSecs (7 * (24 * 60 * 60))

/-- The same subscriptions over the store as it is meant. -/
abbrev KvDeployment.meant (K : KvDeployment U E) : Deployment U E where
  Sub := K.Sub
  options := K.options
  fromSlice := K.fromSlice
  store := NatsKvIdempotencyStore.store K.maxAge
  duplicateWindow := K.duplicateWindow

/-! ## The store as it is -/

/-- What a worker over the KV store awaits: requests to the bucket, and the rest of its calls. -/
abbrev KvBusCall (U E : Type) := KvCall ⊕ Call U E

abbrev KvBusCall.Resp : KvBusCall U E → Type
  | .inl request => request.Resp
  | .inr call => call.Resp

/-- The requests of an operation of the store among the calls of a worker. -/
def requests {α : Type} (p : KvWorker α) : Prog (KvBusCall U E) KvBusCall.Resp α :=
  p.expand fun request => perform (Sum.inl request : KvBusCall U E)

/-- How each call of a worker is carried out.
SRC: nats_kv.rs:68-107 -/
def onKv : (c : Call U E) → Prog (KvBusCall U E) KvBusCall.Resp c.Resp
  | .tryClaim key => requests (NatsKvIdempotencyStore.tryClaim key)
  | .markDone key => requests (NatsKvIdempotencyStore.markDone key)
  | .release key => requests (NatsKvIdempotencyStore.release key)
  | c => perform (Sum.inr c : KvBusCall U E)

/-- What a worker is told when a call fails on the way. -/
structure KvBusError where
  request : String
  call : CallError

def KvBusCall.failure : (c : KvBusCall U E) → KvBusError → Option c.Resp
  | .inl request, e => request.failure e.request
  | .inr call, e => call.failure e.call

section

variable (K : KvDeployment U E)

/-- What the workers share: as in `world`, with the bucket itself for the store. -/
abbrev KvShared := Shared K.meant

variable {K}

/-- A request is served, on the entries that have not aged out by now.  The log has the ends of
claims; a claim is its worker's own knowledge. -/
def KvShared.request (i : ℕ) (d : Delivery K.meant) (c : KvCall) (sh : KvShared K) : KvShared K :=
  let served : KvShared K :=
    { sh with store := (AgedBucket.serve K.maxAge sh.now c sh.store).2 }
  match c with
  | .put _ _ => served.note i d .markedDone
  | .purge _ => served.note i d .released
  | _ => served

def KvShared.effect (seen : Bool) (i : ℕ) (d : Delivery K.meant) :
    KvBusCall U E → Choice K.meant → KvShared K → KvShared K
  | .inl request, _, sh => KvShared.request i d request sh
  | .inr call, ch, sh => Shared.effect seen i d call ch sh

def KvShared.answer : (c : KvBusCall U E) → Choice K.meant → KvShared K → c.Resp
  | .inl request, _, sh => (AgedBucket.serve K.maxAge sh.now request sh.store).1
  | .inr call, ch, sh => Shared.answer call ch sh

variable (K)

/-- The world of the workers. -/
abbrev kvBusWorld : World where
  Call := KvBusCall U E
  Resp := KvBusCall.Resp
  Shared := KvShared K
  Job := Delivery K.meant
  Choice := Choice K.meant
  Err := KvBusError
  Drift := ℕ
  enlist i d sh := sh.note i d .delivered
  reach i d c sh :=
    match c with
    | .inr (.handle _ _) => sh.note i d .began
    | _ => sh
  effect := KvShared.effect
  answer _ := KvShared.answer
  remote
    | .inl request => request.isRemote
    | .inr call => call.isRemote
  failure := KvBusCall.failure
  -- the bucket ages by this: a request finds what is live at the time
  drift elapsed sh := { sh with now := sh.now + elapsed }

/-- The workers: `process_message` with its store written out. -/
abbrev kvWorkers : Machine (kvBusWorld K) :=
  programs (kvBusWorld K) Unit fun d =>
    (processMessage (K.fromSlice d.sub) d.msg (K.options d.sub)).expand onKv

end

end EventBus.Model
