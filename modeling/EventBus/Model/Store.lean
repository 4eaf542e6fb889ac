import EventBus.Model.Core

/-!
# Idempotency stores

`Store` is the trait `IdempotencyStore` seen from the other end of the network: a state
and, for each of the three operations, the answer and the state after it when it is
served.  Operations take the time at which they are served, since entries expire, and a
`Choice` for whatever the backend leaves open; `tick` is what the backend does on its own.

`Store.Contract` is the documentation of the trait: a status for every key, and what each
operation may answer and leave behind.  `Store.Honest` is much weaker and is all that
some results need: a key becomes done by no other operation than `mark_done`, and is not
reported done unless it is.  `Store.PerKey` says nothing of the answers, only that keys have
nothing to do with each other.
-/

set_option autoImplicit false

namespace EventBus.Model

/-- An idempotency store.
SRC: idempotency.rs:20-38 -/
structure Store (U : Type) where
  State : Type
  Choice : Type
  tryClaim : ℕ → Choice → MessageId U → State → Except BusError ClaimOutcome × State
  markDone : ℕ → Choice → MessageId U → State → Except BusError Unit × State
  release : ℕ → Choice → MessageId U → State → Except BusError Unit × State
  tick : Choice → State → State

/-- What a store holds under a key. -/
inductive KeyStatus where
  | absent
  | pending
  | done
  deriving DecidableEq

/-- What `tryClaim` answers and makes of the status of its key: it inserts the key in
pending state if absent and otherwise reports the existing state.
SRC: idempotency.rs:26-31 -/
inductive ClaimStep : KeyStatus → Except BusError ClaimOutcome → KeyStatus → Prop where
  | claimed : ClaimStep .absent (.ok .claimed) .pending
  | alreadyPending : ClaimStep .pending (.ok .alreadyPending) .pending
  | alreadyDone : ClaimStep .done (.ok .alreadyDone) .done
  | failed (status : KeyStatus) (e : BusError) : ClaimStep status (.error e) status

/-- SRC: idempotency.rs:33-34 -/
inductive MarkStep : KeyStatus → Except BusError Unit → KeyStatus → Prop where
  | marked (status : KeyStatus) : MarkStep status (.ok ()) .done
  | failed (status : KeyStatus) (e : BusError) : MarkStep status (.error e) status

/-- SRC: idempotency.rs:36-37 -/
inductive ReleaseStep : KeyStatus → Except BusError Unit → KeyStatus → Prop where
  | released (status : KeyStatus) : ReleaseStep status (.ok ()) .absent
  | failed (status : KeyStatus) (e : BusError) : ReleaseStep status (.error e) status

/-- The documented contract of a store: the status of every key, and operations that
change the status of their own key only, as documented. -/
structure Store.Contract {U : Type} (S : Store U) where
  status : ℕ → S.State → MessageId U → KeyStatus
  tryClaim_step : ∀ now ch key s, ClaimStep (status now s key) (S.tryClaim now ch key s).1
    (status now (S.tryClaim now ch key s).2 key)
  tryClaim_frame : ∀ now ch key s k, k ≠ key →
    status now (S.tryClaim now ch key s).2 k = status now s k
  markDone_step : ∀ now ch key s, MarkStep (status now s key) (S.markDone now ch key s).1
    (status now (S.markDone now ch key s).2 key)
  markDone_frame : ∀ now ch key s k, k ≠ key →
    status now (S.markDone now ch key s).2 k = status now s k
  release_step : ∀ now ch key s, ReleaseStep (status now s key) (S.release now ch key s).1
    (status now (S.release now ch key s).2 key)
  release_frame : ∀ now ch key s k, k ≠ key →
    status now (S.release now ch key s).2 k = status now s k

/-- A store whose done keys are worth something: only `markDone` makes a key done, and
`AlreadyDone` is answered for done keys only.  Nothing is said of claims: they may be
granted to many, refused to all, or lost. -/
structure Store.Honest {U : Type} (S : Store U) where
  isDone : ℕ → S.State → MessageId U → Prop
  tryClaim_done : ∀ now ch key s k, isDone now (S.tryClaim now ch key s).2 k → isDone now s k
  alreadyDone : ∀ now ch key s, (S.tryClaim now ch key s).1 = .ok .alreadyDone → isDone now s key
  markDone_done : ∀ now ch key s k, isDone now (S.markDone now ch key s).2 k →
    k = key ∨ isDone now s k
  release_done : ∀ now ch key s k, isDone now (S.release now ch key s).2 k → isDone now s k
  tick_done : ∀ now later ch s k, now ≤ later → isDone later (S.tick ch s) k → isDone now s k

/-- A store that keeps the keys apart: what an operation answers and leaves under its key
depends on what is under that key alone, and it leaves the other keys as they are. -/
structure Store.PerKey {U : Type} (S : Store U) where
  Slot : Type
  slot : S.State → MessageId U → Slot
  tryClaim_congr : ∀ now ch key s t, slot s key = slot t key →
    (S.tryClaim now ch key s).1 = (S.tryClaim now ch key t).1 ∧
      slot (S.tryClaim now ch key s).2 key = slot (S.tryClaim now ch key t).2 key
  tryClaim_frame : ∀ now ch key s k, k ≠ key → slot (S.tryClaim now ch key s).2 k = slot s k
  markDone_congr : ∀ now ch key s t, slot s key = slot t key →
    (S.markDone now ch key s).1 = (S.markDone now ch key t).1 ∧
      slot (S.markDone now ch key s).2 key = slot (S.markDone now ch key t).2 key
  markDone_frame : ∀ now ch key s k, k ≠ key → slot (S.markDone now ch key s).2 k = slot s k
  release_congr : ∀ now ch key s t, slot s key = slot t key →
    (S.release now ch key s).1 = (S.release now ch key t).1 ∧
      slot (S.release now ch key s).2 key = slot (S.release now ch key t).2 key
  release_frame : ∀ now ch key s k, k ≠ key → slot (S.release now ch key s).2 k = slot s k
  tick_congr : ∀ ch key s t, slot s key = slot t key →
    slot (S.tick ch s) key = slot (S.tick ch t) key

namespace Store.Contract

variable {U : Type} {S : Store U} (C : S.Contract) (now : ℕ) (ch : S.Choice)
  (key : MessageId U) (s : S.State)

/-- INTERNAL: a claim is granted on an absent key only, and leaves it pending. -/
theorem of_claimed (h : (S.tryClaim now ch key s).1 = .ok .claimed) :
    C.status now s key = .absent ∧ C.status now (S.tryClaim now ch key s).2 key = .pending := by
  have hstep := C.tryClaim_step now ch key s
  rw [h] at hstep
  generalize C.status now s key = before at *
  generalize C.status now (S.tryClaim now ch key s).2 key = after at *
  cases hstep
  exact ⟨rfl, rfl⟩

/-- INTERNAL: a claim that is not granted changes no status. -/
theorem of_not_claimed (h : (S.tryClaim now ch key s).1 ≠ .ok .claimed) (k : MessageId U) :
    C.status now (S.tryClaim now ch key s).2 k = C.status now s k := by
  by_cases hk : k = key
  · subst hk
    have hstep := C.tryClaim_step now ch k s
    revert h
    generalize (S.tryClaim now ch k s).1 = answer at *
    generalize C.status now s k = before at *
    generalize C.status now (S.tryClaim now ch k s).2 k = after at *
    intro h
    cases hstep
    · exact absurd rfl h
    all_goals rfl
  · exact C.tryClaim_frame now ch key s k hk

/-- INTERNAL: `AlreadyDone` is answered for done keys only. -/
theorem of_alreadyDone (h : (S.tryClaim now ch key s).1 = .ok .alreadyDone) :
    C.status now s key = .done := by
  have hstep := C.tryClaim_step now ch key s
  rw [h] at hstep
  generalize C.status now s key = before at *
  generalize C.status now (S.tryClaim now ch key s).2 key = after at *
  cases hstep
  rfl

/-- INTERNAL: marking leaves the key done or, if it fails, as it was. -/
theorem markDone_status :
    C.status now (S.markDone now ch key s).2 key = .done ∨
      C.status now (S.markDone now ch key s).2 key = C.status now s key := by
  have hstep := C.markDone_step now ch key s
  generalize (S.markDone now ch key s).1 = answer at *
  generalize C.status now s key = before at *
  generalize C.status now (S.markDone now ch key s).2 key = after at *
  cases hstep
  · exact .inl rfl
  · exact .inr rfl

/-- INTERNAL: releasing leaves the key absent or, if it fails, as it was. -/
theorem release_status :
    C.status now (S.release now ch key s).2 key = .absent ∨
      C.status now (S.release now ch key s).2 key = C.status now s key := by
  have hstep := C.release_step now ch key s
  generalize (S.release now ch key s).1 = answer at *
  generalize C.status now s key = before at *
  generalize C.status now (S.release now ch key s).2 key = after at *
  cases hstep
  · exact .inl rfl
  · exact .inr rfl

/-- INTERNAL: a `markDone` that succeeds leaves its key done. -/
theorem of_markDone_ok (h : (S.markDone now ch key s).1 = .ok ()) :
    C.status now (S.markDone now ch key s).2 key = .done := by
  have hstep := C.markDone_step now ch key s
  rw [h] at hstep
  generalize C.status now s key = before at *
  generalize C.status now (S.markDone now ch key s).2 key = after at *
  cases hstep
  rfl

/-- INTERNAL: a `release` that succeeds leaves its key absent. -/
theorem of_release_ok (h : (S.release now ch key s).1 = .ok ()) :
    C.status now (S.release now ch key s).2 key = .absent := by
  have hstep := C.release_step now ch key s
  rw [h] at hstep
  generalize C.status now s key = before at *
  generalize C.status now (S.release now ch key s).2 key = after at *
  cases hstep
  rfl

end Store.Contract

end EventBus.Model
