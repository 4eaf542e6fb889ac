import EventBus.Lib.Sites
import EventBus.Model.NatsKv

/-!
# The control points of a claimant

A claimant of the NATS KV store is at one of its five requests, at its own work, or has
returned what it was told.  As for the workers of the subscriber, `KvPoint` names these
places and `kvPointsOfCode` reads each of them as the program text that is left there.

`watch` is what an observer sees of the claimants: the call each is suspended on, and what
its `try_claim` has told it.
-/

set_option autoImplicit false

namespace EventBus.Interface

open EventBus.Model EventBus.Lib
open NatsKvIdempotencyStore (claimant tryClaim markDone release afterClaim)

variable {U : Type} [UuidCrate U]

/-- The places at which a claimant can be. -/
inductive KvPoint where
  | create
  | get
  | work
  | put
  | purge
  | returned (outcome : Except BusError ClaimOutcome)

namespace KvPoint

/-- Where a claimant goes from the answer of `create`. -/
def afterCreate : Except String Unit → KvPoint
  | .ok () => .work
  | .error _ => .get

/-- Where a claimant goes from the answer of `get`. -/
def afterGet : Except String (Option Bytes) → KvPoint
  | .error e => .returned (.error (.idempotency e))
  | .ok (some value) =>
    if value = kvDone then .returned (.ok .alreadyDone) else .returned (.ok .alreadyPending)
  | .ok none => .work

/-- The request of a claimant at a point and where it goes from the answer. -/
def view (key : MessageId U) : KvPoint → Option ((c : KvCall) × (c.Resp → KvPoint))
  | .create => some ⟨.create key.toString kvPending, afterCreate⟩
  | .get => some ⟨.get key.toString, afterGet⟩
  | .work => some ⟨.work, fun succeeds : Bool => if succeeds then .put else .purge⟩
  | .put => some ⟨.put key.toString kvDone, fun _ => .returned (.ok .claimed)⟩
  | .purge => some ⟨.purge key.toString, fun _ => .returned (.ok .claimed)⟩
  | .returned _ => none

/-- The program that is left at a point. -/
def code (key : MessageId U) : KvPoint → KvWorker (Except BusError ClaimOutcome)
  | .create => claimant key
  | .get => do
    match ← NatsKvIdempotencyStore.get key.toString with
    | .error e => afterClaim key (.error (.idempotency e))
    | .ok (some value) =>
      if value = kvDone then afterClaim key (.ok .alreadyDone)
      else afterClaim key (.ok .alreadyPending)
    | .ok none => afterClaim key (.ok .claimed)
  | .work => afterClaim key (.ok .claimed)
  | .put => do
    let _ ← markDone key
    pure (.ok .claimed)
  | .purge => do
    let _ ← release key
    pure (.ok .claimed)
  | .returned outcome => .pure outcome

/-- What `try_claim` has told a claimant at a point. -/
def told : KvPoint → Option (Except BusError ClaimOutcome)
  | .create | .get => none
  | .work | .put | .purge => some (.ok .claimed)
  | .returned outcome => some outcome

/-- INTERNAL: the program of a point makes the request of the point and goes on with the
program of the point that follows. -/
theorem view_code (key : MessageId U) (p : KvPoint) :
    (p.code key).view = (p.view key).map fun ck => ⟨ck.1, fun r => (ck.2 r).code key⟩ := by
  cases p with
  | create =>
    simp only [code, claimant, tryClaim, NatsKvIdempotencyStore.create, Prog.perform_bind,
      Prog.call_bind, Prog.view_call, view, Option.map_some]
    congr 2
    funext r
    rcases r with e | ⟨⟩
    · simp only [NatsKvIdempotencyStore.get, Prog.perform_bind, Prog.call_bind, afterCreate]
      congr 1
      funext r
      rcases r with e | (_ | value)
      · rfl
      · rfl
      · simp only
        split <;> rfl
    · rfl
  | get =>
    simp only [code, NatsKvIdempotencyStore.get, Prog.perform_bind, Prog.view_call, view,
      Option.map_some]
    congr 2
    funext r
    rcases r with e | (_ | value)
    · rfl
    · rfl
    · simp only [afterGet]
      split <;> rfl
  | work =>
    simp only [code, afterClaim, NatsKvIdempotencyStore.work, Prog.perform_bind, Prog.view_call,
      view, Option.map_some]
    congr 2
    funext r
    cases r <;> rfl
  | put =>
    simp only [code, markDone, NatsKvIdempotencyStore.put, Prog.perform_bind, Prog.call_bind,
      Prog.view_call, view, Option.map_some]
    congr 2
    funext r
    rcases r with e | ⟨⟩ <;> rfl
  | purge =>
    simp only [code, release, NatsKvIdempotencyStore.purge, Prog.perform_bind, Prog.call_bind,
      Prog.view_call, view, Option.map_some]
    congr 2
    funext r
    rcases r with e | ⟨⟩ <;> rfl
  | returned outcome => rfl

end KvPoint

/-- The claimants as points. -/
abbrev kvPointMachine (U : Type) [UuidCrate U] : Machine (kvWorld U) where
  Point := KvPoint
  start _ := .create
  view := KvPoint.view

/-- **The points are the program text.** -/
def kvPointsOfCode (U : Type) [UuidCrate U] : Hom (kvPointMachine U) (kvMachine U) where
  map key p := p.code key
  map_start _ := rfl
  map_view key p := p.view_code key

/-- What an observer sees of a claimant: its next call, and what its `try_claim` has told
it. -/
structure KvSeen where
  next : Option KvCall
  told : Option (Except BusError ClaimOutcome)

/-- What `try_claim` has told a claimant, read off the program that is left. -/
def toldByCode : KvWorker (Except BusError ClaimOutcome) → Option (Except BusError ClaimOutcome)
  | .pure outcome => some outcome
  | .call (.create _ _) _ => none
  | .call (.get _) _ => none
  | .call _ _ => some (.ok .claimed)

/-- The claimants as an observer sees them. -/
def watch (s : State (kvWorld U) (KvWorker (Except BusError ClaimOutcome))) :
    State (kvWorld U) KvSeen :=
  s.map fun _ p => ⟨p.head, toldByCode p⟩

/-- The same of points. -/
def watchPoints (s : State (kvWorld U) KvPoint) : State (kvWorld U) KvSeen :=
  s.map fun key p => ⟨(kvPointMachine U).head key p, p.told⟩

/-- INTERNAL: a point shows what its program does. -/
theorem seen_code (key : MessageId U) (p : KvPoint) :
    (⟨(p.code key).head, toldByCode (p.code key)⟩ : KvSeen) =
      ⟨(kvPointMachine U).head key p, p.told⟩ := by
  cases p <;> rfl

/-- INTERNAL: what is seen of the points is what is seen of the programs. -/
theorem watch_map (s : State (kvWorld U) KvPoint) :
    watch (s.map (kvPointsOfCode U).map) = watchPoints s := by
  have hth : ∀ i, ((s.map (kvPointsOfCode U).map).threads i).map
        (Thread.map fun _ p => (⟨p.head, toldByCode p⟩ : KvSeen)) =
      (s.threads i).map (Thread.map fun key p => ⟨(kvPointMachine U).head key p, p.told⟩) := by
    intro i
    rw [map_threads]
    rcases s.threads i with _ | ⟨key, p | p | _⟩
    · rfl
    · simp only [Option.map_some, Thread.map, Ctl.map]
      rw [← seen_code key p]
      rfl
    · simp only [Option.map_some, Thread.map, Ctl.map]
      rw [← seen_code key p]
      rfl
    · rfl
  simp only [watch, watchPoints, State.map, State.mk.injEq]
  exact ⟨trivial, funext hth, trivial⟩

/-- INTERNAL: whatever can be seen of every state of a run can be proved of the points. -/
theorem always_watch {Q : State (kvWorld U) KvSeen → Prop} (b : Bucket)
    (as : List (Action (kvWorld U))) :
    Always (step (kvMachine U)) (fun s => Q (watch s)) (fresh (kvMachine U) b) as ↔
      Always (step (kvPointMachine U)) (fun s => Q (watchPoints s))
        (fresh (kvPointMachine U) b) as := by
  have key : Always (step (kvMachine U)) (fun s => Q (watch s))
        ((fresh (kvPointMachine U) b).map (kvPointsOfCode U).map) as ↔
      Always (step (kvPointMachine U)) (fun s => Q (watch (s.map (kvPointsOfCode U).map)))
        (fresh (kvPointMachine U) b) as :=
    always_map (step_hom (kvPointsOfCode U)) (fresh (kvPointMachine U) b) as
  rw [map_fresh, funext fun s => congrArg Q (watch_map s)] at key
  exact key

/-- INTERNAL: whatever can be seen of every transition of a run can be proved of the
points. -/
theorem along_watch {C : State (kvWorld U) KvSeen → Action (kvWorld U) →
      State (kvWorld U) KvSeen → Prop} (b : Bucket) (as : List (Action (kvWorld U))) :
    Along (step (kvMachine U)) (fun s a s' => C (watch s) a (watch s')) (fresh (kvMachine U) b) as ↔
      Along (step (kvPointMachine U)) (fun s a s' => C (watchPoints s) a (watchPoints s'))
        (fresh (kvPointMachine U) b) as := by
  have key : Along (step (kvMachine U)) (fun s a s' => C (watch s) a (watch s'))
        ((fresh (kvPointMachine U) b).map (kvPointsOfCode U).map) as ↔
      Along (step (kvPointMachine U)) (fun s a s' => C (watch (s.map (kvPointsOfCode U).map)) a
        (watch (s'.map (kvPointsOfCode U).map))) (fresh (kvPointMachine U) b) as :=
    along_map (step_hom (kvPointsOfCode U)) (fresh (kvPointMachine U) b) as
  rw [map_fresh, funext fun s => funext fun a => funext fun s' =>
    congr (congrFun (congrArg C (watch_map s)) a) (watch_map s')] at key
  exact key

end EventBus.Interface
