import EventBus.Lib.Pool
import EventBus.Model.Store

/-!
# The NATS KV store

`NatsKvIdempotencyStore` keeps a key as an entry of a KV bucket and claims it with two
requests: it creates the entry and, when that does not succeed, looks at what is there.
Its three operations are programs over the requests to the bucket.  A request is served
as one step; that the client library may itself send several messages for one is left out,
and so are the URL and the configuration of the bucket.

A `claimant` uses the store the way the trait asks for: it claims its key and ends a
claim that is granted with `mark_done` or `release`.  The world of the claimants is the
bucket.  Every entry carries the worker that wrote it, which the store itself never reads.
-/

set_option autoImplicit false

namespace EventBus.Model

open EventBus.Lib (World Machine Prog)
open EventBus.Lib.Prog (perform)

/-- The requests to a bucket, and what a worker does itself while it holds a claim. -/
inductive KvCall where
  | create (key : String) (value : Bytes)
  | get (key : String)
  | put (key : String) (value : Bytes)
  | purge (key : String)
  | work
  deriving DecidableEq

/-- What each request is answered with; `work` answers whether it has succeeded. -/
abbrev KvCall.Resp : KvCall → Type
  | .create _ _ => Except String Unit
  | .get _ => Except String (Option Bytes)
  | .put _ _ => Except String Unit
  | .purge _ => Except String Unit
  | .work => Bool

/-- A worker between two requests. -/
abbrev KvWorker (α : Type) := Prog KvCall KvCall.Resp α

/-- A byte string literal, which is ASCII text. -/
def byteString (text : String) : Bytes := text.toList.map Char.toUInt8

/-- SRC: nats_kv.rs:11 -/
def kvPending : Bytes := byteString "pending"

/-- SRC: nats_kv.rs:12 -/
def kvDone : Bytes := byteString "done"

/-- INTERNAL: a pending entry is told from a done one.
SRC: nats_kv.rs:11-12 -/
theorem kvPending_ne_kvDone : kvPending ≠ kvDone := by decide

namespace NatsKvIdempotencyStore

variable {U : Type} [UuidCrate U]

def create (key : String) (value : Bytes) : KvWorker (Except String Unit) :=
  perform (KvCall.create key value)

def get (key : String) : KvWorker (Except String (Option Bytes)) :=
  perform (KvCall.get key)

def put (key : String) (value : Bytes) : KvWorker (Except String Unit) :=
  perform (KvCall.put key value)

def purge (key : String) : KvWorker (Except String Unit) :=
  perform (KvCall.purge key)

def work : KvWorker Bool :=
  perform KvCall.work

/-- SRC: nats_kv.rs:70-90 -/
def tryClaim (key : MessageId U) : KvWorker (Except BusError ClaimOutcome) := do
  let keyStr := key.toString
  match ← create keyStr kvPending with
  | .ok _ => pure (.ok .claimed)
  | .error _ =>
    match ← get keyStr with
    | .error e => pure (.error (.idempotency e))
    | .ok (some value) =>
      if value = kvDone then pure (.ok .alreadyDone) else pure (.ok .alreadyPending)
    | .ok none => pure (.ok .claimed)

/-- SRC: nats_kv.rs:92-98 -/
def markDone (key : MessageId U) : KvWorker (Except BusError Unit) := do
  match ← put key.toString kvDone with
  | .error e => pure (.error (.idempotency e))
  | .ok _ => pure (.ok ())

/-- SRC: nats_kv.rs:100-106 -/
def release (key : MessageId U) : KvWorker (Except BusError Unit) := do
  match ← purge key.toString with
  | .error e => pure (.error (.idempotency e))
  | .ok _ => pure (.ok ())

/-- What a claimant does once `try_claim` has returned: it works on a claim it was granted
and ends it with one `mark_done` or `release`. -/
def afterClaim (key : MessageId U) (outcome : Except BusError ClaimOutcome) :
    KvWorker (Except BusError ClaimOutcome) :=
  match outcome with
  | .ok .claimed => do
    if ← work then
      let _ ← markDone key
      pure outcome
    else
      let _ ← release key
      pure outcome
  | outcome => pure outcome

/-- A worker that uses the store as the trait asks; it returns what `try_claim` has told
it.
SRC: idempotency.rs:20-38 -/
def claimant (key : MessageId U) : KvWorker (Except BusError ClaimOutcome) := do
  let outcome ← tryClaim key
  afterClaim key outcome

end NatsKvIdempotencyStore

/-- An entry of a bucket, and the worker that wrote it, unless it was there before. -/
structure KvEntry where
  value : Bytes
  writer : Option ℕ
  deriving DecidableEq

/-- The live entries of a bucket. -/
abbrev Bucket := String → Option KvEntry

namespace Bucket

open Function (update)

/-- A bucket with these values, from before any worker. -/
def holding (values : String → Option Bytes) : Bucket :=
  fun key => (values key).map fun value => ⟨value, none⟩

/-- The effect of serving a request of worker `i`: `create` takes a key without a live
entry only. -/
def effect (i : ℕ) : KvCall → Bucket → Bucket
  | .create key value, b =>
    match b key with
    | none => update b key (some ⟨value, some i⟩)
    | some _ => b
  | .get _, b => b
  | .put key value, b => update b key (some ⟨value, some i⟩)
  | .purge key, b => update b key none
  | .work, b => b

/-- The answer of serving a request; the choice is whether the work succeeds. -/
def answer : (c : KvCall) → Bool → Bucket → c.Resp
  | .create key _, _, b =>
    match b key with
    | none => .ok ()
    | some _ => .error "key already exists"
  | .get key, _, b => .ok ((b key).map KvEntry.value)
  | .put _ _, _, _ => .ok ()
  | .purge _, _, _ => .ok ()
  | .work, succeeds, _ => succeeds

/-- The status of a key, as `try_claim` reads it. -/
def status (b : Bucket) (key : String) : KeyStatus :=
  match b key with
  | none => .absent
  | some entry => if entry.value = kvDone then .done else .pending

end Bucket

/-- The work is the worker's own. -/
def KvCall.isRemote : KvCall → Bool
  | .work => false
  | _ => true

/-- What a worker is told when a request fails on the way. -/
def KvCall.failure : (c : KvCall) → String → Option c.Resp
  | .create _ _, e => some (.error e)
  | .get _, e => some (.error e)
  | .put _ _, e => some (.error e)
  | .purge _, e => some (.error e)
  | .work, _ => none

/-- The world of claimants that share a bucket, each started for a key. -/
abbrev kvWorld (U : Type) : World where
  Call := KvCall
  Resp := KvCall.Resp
  Shared := Bucket
  Job := MessageId U
  Choice := Bool
  Err := String
  Drift := Empty
  enlist _ _ b := b
  reach _ _ _ b := b
  effect _ i _ c _ b := b.effect i c
  answer _ := Bucket.answer
  remote := KvCall.isRemote
  failure := KvCall.failure
  drift _ b := b

/-- The claimants as the source has their operations. -/
abbrev kvMachine (U : Type) [UuidCrate U] : Machine (kvWorld U) where
  Point := KvWorker (Except BusError ClaimOutcome)
  start key := NatsKvIdempotencyStore.claimant key
  view _ p := p.view

end EventBus.Model
