import EventBus.Analysis.HandledEvents
import EventBus.Analysis.TrueDeadLetters

/-!
# Dead letters of published events

A dead letter is true of a delivery (`dead_letters_true`), and a delivery is one of a message that
the stream has stored for an event (`handled_as_published`).  Together they say whose failure a
dead letter is: that of an event which a publisher was asked for, under the id, the subject and
the sequence number that it was published with, and with the payload it was written into.

All that is left to follow is the log: nobody but the task of a subscription notes a delivery.
-/

set_option autoImplicit false

namespace EventBus.Analysis

open EventBus.Model EventBus.Lib EventBus.Interface

variable {U E : Type} [UuidCrate U] {T : EventTrait U E} {Γ : Deployment U E}

/-! ## Who notes a delivery -/

section

variable {M : Machine (world Γ)} {s s' : State (world Γ) M.Point} {a : Action (world Γ)}
  {e : Entry Γ}

end

/-! ## The way of a failure -/

section

variable [DecidableEq Γ.Sub] {number : Γ.Sub × ℕ ↪ ℕ} {opts : Γ.Sub → SubscribeOptions}
  {x x' : State (publications E) (allPublishers T).Point × BusState Γ (codeMachine Γ).Point}
  {g : FlowAction Γ}

end

end EventBus.Analysis
