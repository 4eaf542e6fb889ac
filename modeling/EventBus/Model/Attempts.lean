import EventBus.Model.World

/-!
# The deliveries of one message

A message that is not settled is delivered again.  `Attempts` are such deliveries, one after
another: each worker starts when the one before it is through.  Between any two of its calls
others may act on what the workers share, and the store and the handler decide what they
decide; both are given here, for every delivery and every call.

Deliveries are counted from 1, as the server counts them, and calls from 0.
-/

set_option autoImplicit false

namespace EventBus.Model

open EventBus.Lib (Exchange)

variable {U E : Type} [UuidCrate U]

/-- A message, its deliveries, and all that is decided elsewhere. -/
structure Attempts (Γ : Deployment U E) where
  sub : Γ.Sub
  /-- The message; what `Message::info` reads off it is different for each delivery. -/
  message : Message
  streamSequence : ℕ
  /-- What is delivered in turn: the message, and later perhaps others with its key. -/
  deliveries : ℕ → Delivery Γ
  /-- What the handler returns on a delivery. -/
  result : ℕ → Except HandlerError Unit
  /-- What the store decides when call `j` of delivery `i` is served. -/
  choice : ℕ → ℕ → Γ.store.Choice
  /-- What others do before call `j` of delivery `i`. -/
  others : ℕ → ℕ → Shared Γ → Shared Γ
  initial : Shared Γ

namespace Attempts

variable {Γ : Deployment U E} (A : Attempts Γ)

/-- The message as it is delivered for the `i`-th time. -/
def delivery (i : ℕ) : Delivery Γ :=
  ⟨A.sub, { A.message with info := .ok ⟨A.streamSequence, i⟩ }⟩

def options : ProcessingOptions := Γ.options A.sub

/-- The key of the message, the same at every delivery. -/
def key : MessageId U := (A.delivery 1).msgId

/-- What call `j` of delivery `i` is answered and does. -/
def serve (i j : ℕ) (c : Call U E) (sh : Shared Γ) : c.Resp × Shared Γ :=
  (Shared.answer c ⟨A.choice i j, A.result i⟩ sh,
    Shared.effect true i (A.deliveries i) c ⟨A.choice i j, A.result i⟩ sh)

/-- The worker of a delivery. -/
def worker (i : ℕ) : Worker U E Unit :=
  processMessage (Γ.fromSlice (A.deliveries i).sub) (A.deliveries i).msg (A.deliveries i).options

/-- A delivery from a state on: its exchanges and the state it leaves. -/
def attempt (i : ℕ) (sh : Shared Γ) :
    List (Exchange (Call U E) Call.Resp (Shared Γ)) × Shared Γ :=
  (A.worker i).amid (A.serve i) (A.others i) 0 sh

/-- The state after the first `i` deliveries. -/
def after : ℕ → Shared Γ
  | 0 => A.initial
  | i + 1 => (A.attempt (i + 1) (after i)).2

/-- The exchanges of delivery `i`. -/
def exchanges (i : ℕ) : List (Exchange (Call U E) Call.Resp (Shared Γ)) :=
  (A.attempt i (A.after (i - 1))).1

/-- The exchanges of the first `i` deliveries. -/
def trace : ℕ → List (Exchange (Call U E) Call.Resp (Shared Γ))
  | 0 => []
  | i + 1 => trace i ++ A.exchanges (i + 1)

end Attempts

end EventBus.Model
