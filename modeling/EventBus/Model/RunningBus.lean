import Mathlib.Logic.Embedding.Basic
import EventBus.Lib.Coupled
import EventBus.Lib.Sites
import EventBus.Model.PullLoop
import EventBus.Model.World

/-!
# A bus at work

The tasks of `EventBus.Model.PullLoop` say when a worker is started and when it has come to
its end; the threads of `EventBus.Model.World` say what a worker does in between.  Here they
are put together: a bus has any number of subscriptions, each with its task, and the workers
of all of them run over one world.

The two parts meet where a worker is started, where it returns, where its handler panics, and
where it is cancelled with the `JoinSet` that it is in.  A worker is the thread that is numbered
by its subscription and by the message it was started for.
-/

set_option autoImplicit false

namespace EventBus.Model

open EventBus.Lib (Action Coupling Fate Machine State each look)

variable {U E : Type}

/-- The deployment of subscriptions with these options.
SRC: subscriber.rs:193-200 -/
def Deployment.ofSubscriptions {Sub : Type} (opts : Sub → SubscribeOptions)
    (fromSlice : Sub → Bytes → Except String E) (store : Store U)
    (duplicateWindow : String → ℕ) : Deployment U E where
  Sub := Sub
  options sub := (opts sub).processingOptions
  fromSlice := fromSlice
  store := store
  duplicateWindow := duplicateWindow

/-- Everything that can happen in a bus. -/
inductive BusAction (Γ : Deployment U E) where
  /-- The task of a subscription does something that involves no worker. -/
  | task (sub : Γ.Sub) (a : LoopAction)
  /-- The task starts the worker of a message. -/
  | spawn (sub : Γ.Sub) (message : ℕ) (msg : Message)
  /-- A worker has returned. -/
  | returned (sub : Γ.Sub) (message : ℕ)
  /-- The handler of a worker panics. -/
  | panicked (sub : Γ.Sub) (message : ℕ) (ch : Choice Γ)
  /-- A worker is cancelled. -/
  | cancelled (sub : Γ.Sub) (message : ℕ) (fate : Fate) (ch : Choice Γ)
  /-- The workers and the world do something that involves no task. -/
  | work (a : Action (world Γ))

/-- The action starts a worker or notes that one has come to its end. -/
def LoopAction.ofWorker : LoopAction → Bool
  | .spawn | .finish _ _ => true
  | _ => false

/-- The message whose worker the task is about to start. -/
def LoopPoint.dispatches : LoopPoint → Option ℕ
  | .dispatch _ n => some n
  | _ => none

/-- Threads are started by tasks alone, and end by themselves, by a panic or with the task. -/
def BusAction.isWork {Γ : Deployment U E} : Action (world Γ) → Bool
  | .spawn _ _ | .abort _ _ _ => false
  | _ => true

/-- The call is one of a handler. -/
def Call.isHandle : Call U E → Bool
  | .handle _ _ => true
  | _ => false

variable {Γ : Deployment U E}

/-- How the tasks and the threads meet.
SRC: subscriber.rs:319-328, subscriber.rs:294-300 -/
def supervision (number : Γ.Sub × ℕ ↪ ℕ) (M : Machine (world Γ)) :
    Coupling (Γ.Sub → LoopState) (State (world Γ) M.Point) (Γ.Sub × LoopAction)
      (Action (world Γ)) (BusAction Γ) where
  may tasks workers
    | .task _ a => !a.ofWorker
    | .spawn sub n _ => decide ((tasks sub).point.dispatches = some n)
    | .returned sub n => (look M workers).ended (number (sub, n))
    | .panicked sub n _ => ((look M workers).awaits (number (sub, n))).any fun x => x.2.isHandle
    | .cancelled _ _ _ _ => true
    | .work a => BusAction.isWork a
  left
    | .task sub a => some (sub, a)
    | .spawn sub _ _ => some (sub, .spawn)
    | .returned sub n => some (sub, .finish n .returned)
    | .panicked sub n _ => some (sub, .finish n .panicked)
    | .cancelled sub n _ _ => some (sub, .finish n .cancelled)
    | .work _ => none
  right
    | .task _ _ => none
    | .spawn sub n msg => some (.spawn (number (sub, n)) ⟨sub, msg⟩)
    | .returned _ _ => none
    | .panicked sub n ch => some (.abort (number (sub, n)) .dropped ch)
    | .cancelled sub n fate ch => some (.abort (number (sub, n)) fate ch)
    | .work a => some a

/-- The tasks of a bus and the threads of its workers. -/
abbrev BusState (Γ : Deployment U E) (P : Type) :=
  (Γ.Sub → LoopState) × State (world Γ) P

/-- The bus taking one step. -/
def busStep [DecidableEq Γ.Sub] (number : Γ.Sub × ℕ ↪ ℕ) (M : Machine (world Γ)) :
    BusState Γ M.Point → BusAction Γ → Option (BusState Γ M.Point) :=
  (supervision number M).step (each LoopState.step) (EventBus.Lib.step M)

end EventBus.Model
