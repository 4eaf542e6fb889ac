import EventBus.Interface.ControlPoints
import EventBus.Model.KvWorkers

/-!
# The places of a worker over the KV store

A worker over the KV store is at a control point of `process_message`, or in the middle of its
`try_claim`, between the `create` and the `get`.  `KvPlace` adds that one place to the points, and
`placesOfWorkers` reads each place as the program that is left there.

`Carries` says which request carries out which call of the store, apart from `try_claim`.
-/

set_option autoImplicit false

namespace EventBus.Interface

open EventBus.Model EventBus.Lib

variable {U E : Type} [UuidCrate U]

/-- The places at which a worker can be. -/
inductive KvPlace (E : Type) where
  | point (p : Point E)
  /-- The `create` has not succeeded. -/
  | looking

/-- What `try_claim` makes of the answer of `get`.
SRC: nats_kv.rs:78-89 -/
def readClaim : Except String (Option Bytes) → Except BusError ClaimOutcome
  | .error e => .error (.idempotency e)
  | .ok (some value) => if value = kvDone then .ok .alreadyDone else .ok .alreadyPending
  | .ok none => .ok .claimed

/-- What `mark_done` and `release` make of the answer to their request.
SRC: nats_kv.rs:92-106 -/
def readEnd : Except String Unit → Except BusError Unit
  | .error e => .error (.idempotency e)
  | .ok _ => .ok ()

namespace KvPlace

variable {K : KvDeployment U E} (d : Delivery K.meant)

/-- Where a worker goes from the answer of `create`. -/
def afterCreate (k : Except BusError ClaimOutcome → Point E) : Except String Unit → KvPlace E
  | .ok _ => .point (k (.ok .claimed))
  | .error _ => .looking

/-- The first request or call that a call of a worker comes to. -/
def opening : ((c : Call U E) × (c.Resp → Point E)) →
    (c : KvBusCall U E) × (c.Resp → KvPlace E)
  | ⟨.tryClaim key, k⟩ => ⟨.inl (.create key.toString kvPending), afterCreate k⟩
  | ⟨.markDone key, k⟩ =>
    ⟨.inl (.put key.toString kvDone), fun r : Except String Unit => .point (k (readEnd r))⟩
  | ⟨.release key, k⟩ =>
    ⟨.inl (.purge key.toString), fun r : Except String Unit => .point (k (readEnd r))⟩
  | ⟨c, k⟩ => ⟨.inr c, fun r : c.Resp => .point (k r)⟩

/-- What a worker awaits at a place and where it goes from the answer. -/
def view : KvPlace E → Option ((c : KvBusCall U E) × (c.Resp → KvPlace E))
  | .point p => (p.view d).map opening
  | .looking => some ⟨.inl (.get d.msgId.toString), fun r : Except String (Option Bytes) =>
      .point (Point.afterTryClaim d (readClaim r))⟩

/-- The program that is left at a place. -/
def code : KvPlace E → Prog (KvBusCall U E) KvBusCall.Resp Unit
  | .point p => (p.code d).expand onKv
  | .looking => .call (.inl (.get d.msgId.toString)) fun r : Except String (Option Bytes) =>
      ((Point.afterTryClaim d (readClaim r)).code d).expand onKv

end KvPlace

/-! ## Writing out one call -/

/-- A worker whose `create` has not succeeded. -/
def lookingFor (key : MessageId U) (k : Except BusError ClaimOutcome → Worker U E Unit) :
    Prog (KvBusCall U E) KvBusCall.Resp Unit :=
  .call (.inl (.get key.toString)) fun r => (k (readClaim r)).expand onKv

/-- INTERNAL: `try_claim` as its requests. -/
theorem expand_tryClaim (key : MessageId U)
    (k : Except BusError ClaimOutcome → Worker U E Unit) :
    (Prog.call (.tryClaim key) k : Worker U E Unit).expand onKv =
      .call (.inl (.create key.toString kvPending)) fun r : Except String Unit =>
        if r.toBool then (k (.ok .claimed)).expand onKv else lookingFor key k := by
  show Prog.call _ _ = Prog.call _ _
  congr 1
  funext r
  cases r with
  | ok u => rfl
  | error e =>
    show Prog.call _ _ = Prog.call _ _
    congr 1
    funext r
    rcases r with e | (_ | value)
    · rfl
    · rfl
    · show (Prog.expand _ (if value = kvDone then _ else _) >>= _) = _
      by_cases hvalue : value = kvDone
      · simp only [readClaim, if_pos hvalue]
        rfl
      · simp only [readClaim, if_neg hvalue]
        rfl

/-- INTERNAL: `mark_done` as its request.
SRC: nats_kv.rs:92-98 -/
theorem expand_markDone (key : MessageId U) (k : Except BusError Unit → Worker U E Unit) :
    (Prog.call (.markDone key) k : Worker U E Unit).expand onKv =
      .call (.inl (.put key.toString kvDone)) fun r : Except String Unit =>
        (k (readEnd r)).expand onKv := by
  show Prog.call _ _ = Prog.call _ _
  congr 1
  funext r
  cases r <;> rfl

/-- INTERNAL: `release` as its request.
SRC: nats_kv.rs:100-106 -/
theorem expand_release (key : MessageId U) (k : Except BusError Unit → Worker U E Unit) :
    (Prog.call (.release key) k : Worker U E Unit).expand onKv =
      .call (.inl (.purge key.toString)) fun r : Except String Unit =>
        (k (readEnd r)).expand onKv := by
  show Prog.call _ _ = Prog.call _ _
  congr 1
  funext r
  cases r <;> rfl

section

variable {K : KvDeployment U E} {d : Delivery K.meant}

/-- INTERNAL: only the start of a worker claims. -/
theorem claim_of_view {p : Point E} {key : MessageId U}
    {k : Except BusError ClaimOutcome → Point E}
    (hv : p.view d = some ⟨.tryClaim key, k⟩) :
    p = .claim ∧ key = d.msgId ∧ k = Point.afterTryClaim d := by
  cases p <;> cases hv
  exact ⟨rfl, rfl, rfl⟩

/-- INTERNAL: the program of a place makes the call of the place and goes on with the program of
the place that follows. -/
theorem KvPlace.view_code (place : KvPlace E) :
    (place.code d).view = (place.view d).map fun ck => ⟨ck.1, fun r => (ck.2 r).code d⟩ := by
  cases place with
  | looking => rfl
  | point p =>
    have hcode := p.view_code d
    cases hv : p.view d with
    | none =>
      rw [hv] at hcode
      simp only [KvPlace.code, KvPlace.view, hv, Option.map_none]
      cases hp : p.code d with
      | pure a => rfl
      | call c k =>
        rw [hp] at hcode
        cases hcode
    | some ck =>
      obtain ⟨c, k⟩ := ck
      rw [hv] at hcode
      simp only [KvPlace.code, KvPlace.view, hv, Option.map_some]
      cases hp : p.code d with
      | pure a =>
        rw [hp] at hcode
        cases hcode
      | call c' k' =>
        rw [hp] at hcode
        cases hcode
        cases c with
        | tryClaim key =>
          rw [expand_tryClaim]
          obtain ⟨rfl, rfl, rfl⟩ := claim_of_view hv
          simp only [Prog.view_call, KvPlace.opening]
          congr 2
          funext r
          cases r <;> rfl
        | markDone key =>
          rw [expand_markDone]
          rfl
        | release key =>
          rw [expand_release]
          rfl
        | _ => rfl

end

/-- The workers as places. -/
abbrev kvPlaces (K : KvDeployment U E) : Machine (kvBusWorld K) where
  Point := KvPlace E
  start d := .point ((pointMachine K.meant).start d)
  view := KvPlace.view

/-- **The places are the program text.** -/
def placesOfWorkers (K : KvDeployment U E) : Hom (kvPlaces K) (kvWorkers K) where
  map d place := place.code d
  map_start d := by
    show (Point.code d _).expand onKv = _
    rw [code_start]
    rfl
  map_view d place := place.view_code

end EventBus.Interface
