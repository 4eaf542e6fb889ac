import Mathlib.Data.List.GetD
import EventBus.Interface.DeadLetterIds
import EventBus.Model.Attempts
import EventBus.Analysis.Settlement

/-!
# The life of a message

A message whose handler fails for a while is delivered until it is handled, fails for good or
has used up its deliveries.  What every delivery does, and under which status of its key, is
fixed by the results of the handler: that is the schedule of `retry_life`.

The proof walks through the control points of a worker (`Did`), once for each of them and from
the end of a delivery to its beginning.
-/

set_option autoImplicit false

namespace EventBus.Analysis

open EventBus.Model EventBus.Lib EventBus.Interface

variable {U E : Type} [UuidCrate U] {Γ : Deployment U E}

/-! ## What is said of a life -/

/-- What a call is, whatever it is about. -/
inductive Act where
  | claim
  | handle
  | markDone
  | release
  | readClock
  | deadLetter
  | ack
  | nak (delay : Duration)
  | term
  deriving DecidableEq

/-- What a worker does with a call. -/
def act : Call U E → Act
  | .tryClaim _ => .claim
  | .markDone _ => .markDone
  | .release _ => .release
  | .handle _ _ => .handle
  | .unixTimestampSeconds => .readClock
  | .publishWithHeaders _ _ _ _ => .deadLetter
  | .doubleAck => .ack
  | .nakWithDelay delay => .nak delay
  | .term => .term

/-- An exchange of a worker. -/
abbrev Talk (Γ : Deployment U E) : Type := Exchange (Call U E) Call.Resp (Shared Γ)

/-- The store answered without an error. -/
def answered : (c : Call U E) → c.Resp → Bool
  | .tryClaim _, r => r.toBool
  | .markDone _, r => r.toBool
  | .release _, r => r.toBool
  | _, _ => true

/-- The dead letters that an exchange has written. -/
def written (e : Talk Γ) : List DlqRecord :=
  e.left.dlq.take (e.left.dlq.length - e.came.dlq.length)

section Life

variable (A : Attempts Γ) (C : Γ.store.Contract)

/-- The status of the key of the message. -/
def keyStatus (sh : Shared Γ) : KeyStatus := C.status sh.now sh.store A.key

/-- What is seen of an exchange: what it is and the status of the key it came to. -/
def seen (e : Talk Γ) : Act × KeyStatus := (act e.call, keyStatus A C e.came)

/-- The payload cannot be deserialized. -/
def Poisoned : Prop := (Γ.fromSlice A.sub A.message.payload).toBool = false

instance : Decidable (Poisoned A) := inferInstanceAs (Decidable (_ = _))

/-- Delivery `i` is one after which the message is not delivered again. -/
def Ends (i : ℕ) : Prop :=
  Poisoned A ∨ A.result i = .ok () ∨ (∃ reason, A.result i = .error (.permanent reason)) ∨
    (0 < A.options.maxDeliver ∧ (i : ℤ) = A.options.maxDeliver)

/-- Delivery `k` is the last of the message. -/
structure EndsAt (k : ℕ) : Prop where
  pos : 1 ≤ k
  ends : Ends A k
  first : ∀ i, 1 ≤ i → i < k → ¬ Ends A i

/-- The class of the dead letter of a message that ends with delivery `k`. -/
def endClass (k : ℕ) : Option String :=
  if Poisoned A then some classPoison
  else
    match A.result k with
    | .ok () => none
    | .error (.permanent _) => some classPermanent
    | .error (.transient _) => some classTransientExhausted

/-- The delay after delivery `i`. -/
def retryDelay (i : ℕ) : Duration :=
  A.options.backoff.getD (min i A.options.backoff.length - 1) fallbackNakDelay

/-- The dead letter of a message that ends with delivery `k`. -/
structure IsDeadLetter (k : ℕ) (failureClass : String) (r : DlqRecord) : Prop where
  subject : r.subject = dlqSubject A.options.source A.options.durable
  payload : r.payload = A.message.payload
  failureClass : r.headers.get hdrFailureClass = some failureClass
  retryCount : r.headers.get hdrRetryCount = some (toString k)

/-- What a message that ends with delivery `k` has in the dead letter stream. -/
def EndRecords (k : ℕ) (records : List DlqRecord) : Prop :=
  match endClass A k with
  | none => records = []
  | some failureClass => ∃ r, records = [r] ∧ IsDeadLetter A k failureClass r

/-- The last delivery as it is seen: a payload that cannot be deserialized never comes to the
handler, and a message that is not handled is dead lettered. -/
def lastActs (k : ℕ) : List (Act × KeyStatus) :=
  (.claim, .absent) :: (if Poisoned A then [] else [(.handle, .pending)]) ++
    if endClass A k = none then [(.markDone, .pending), (.ack, .done)]
    else [(.readClock, .pending), (.deadLetter, .pending), (.markDone, .pending), (.term, .done)]

/-- No dead letter has an id of the message. -/
def Unwritten (sh : Shared Γ) : Prop :=
  ∀ i, ∀ r ∈ sh.dlq, r.subject = dlqSubject A.options.source A.options.durable →
    r.headers.get hdrNatsMsgId ≠ some (dedupIdOf (A.delivery i))

/-- The key is not there to begin with, no other message uses it, no claim on it expires, and
nobody else writes dead letters in its name.  Dead letters are enabled.  The message is
delivered until its last delivery, and after that other messages with its key may be. -/
structure Undisturbed : Prop where
  dlq_enabled : A.options.dlqOpts.isSome = true
  repeated : ∀ i, 1 ≤ i → (∀ j, 1 ≤ j → j < i → ¬ Ends A j) → A.deliveries i = A.delivery i
  readable : ∀ i, (A.deliveries i).readable = true
  sameKey : ∀ i, (A.deliveries i).msgId = A.key
  absent : keyStatus A C A.initial = .absent
  kept : ∀ i j sh, keyStatus A C (A.others i j sh) = keyStatus A C sh
  unwritten : Unwritten A A.initial
  unwritten_kept : ∀ i j sh, Unwritten A sh → Unwritten A (A.others i j sh)

end Life

/-! ## A worker from a point on -/

section Walk

variable (A : Attempts Γ) (C : Γ.store.Contract) (i : ℕ)

/-- The exchanges of delivery `i` from a point on, and the state it leaves. -/
def walk (p : Point E) (j : ℕ) (sh : Shared Γ) : List (Talk Γ) × Shared Γ :=
  (p.code (A.deliveries i)).amid (A.serve i) (A.others i) j sh

/-- The store answers all that is left of the delivery. -/
def Answered (p : Point E) (j : ℕ) (sh : Shared Γ) : Prop :=
  ∀ e ∈ (walk A i p j sh).1, answered e.call e.answer = true

/-- What is left of a delivery at a point does this, writes these dead letters and leaves the
key in this status. -/
structure Did (p : Point E) (j : ℕ) (sh : Shared Γ) (acts : List (Act × KeyStatus))
    (records : List DlqRecord) (status : KeyStatus) : Prop where
  acts : (walk A i p j sh).1.map (seen A C) = acts
  written : (walk A i p j sh).1.flatMap written = records
  status : keyStatus A C (walk A i p j sh).2 = status
  unwritten : records = [] → Unwritten A sh → Unwritten A (walk A i p j sh).2

/-- The state a call comes to. -/
def cameTo (j : ℕ) (sh : Shared Γ) : Shared Γ := A.others i j sh

/-- The answer of a call. -/
def replied (j : ℕ) (c : Call U E) (sh : Shared Γ) : c.Resp :=
  (A.serve i j c (cameTo A i j sh)).1

/-- The state a call leaves. -/
def leftBy (j : ℕ) (c : Call U E) (sh : Shared Γ) : Shared Γ :=
  (A.serve i j c (cameTo A i j sh)).2

variable {A C i} {p : Point E} {c : Call U E} {k : c.Resp → Point E} {j : ℕ} {sh : Shared Γ}
  {status status' : KeyStatus} {acts : List (Act × KeyStatus)} {records : List DlqRecord}

/-- INTERNAL: a point makes its call and goes on. -/
theorem walk_of_view (hv : p.view (A.deliveries i) = some ⟨c, k⟩) :
    walk A i p j sh =
      (⟨c, cameTo A i j sh, replied A i j c sh, leftBy A i j c sh⟩ ::
          (walk A i (k (replied A i j c sh)) (j + 1) (leftBy A i j c sh)).1,
        (walk A i (k (replied A i j c sh)) (j + 1) (leftBy A i j c sh)).2) := by
  have hcode : (p.code (A.deliveries i)).view =
      some ⟨c, fun r => (k r).code (A.deliveries i)⟩ := by
    rw [Point.view_code, hv]
    rfl
  exact Prog.amid_of_view hcode j sh

/-- INTERNAL: the next answer is no failure. -/
theorem Answered.head (h : Answered A i p j sh) (hv : p.view (A.deliveries i) = some ⟨c, k⟩) :
    answered c (replied A i j c sh) = true := by
  unfold Answered at h
  rw [walk_of_view hv] at h
  exact h _ List.mem_cons_self

/-- INTERNAL: the answers after the next one are no failures. -/
theorem Answered.tail (h : Answered A i p j sh) (hv : p.view (A.deliveries i) = some ⟨c, k⟩) :
    Answered A i (k (replied A i j c sh)) (j + 1) (leftBy A i j c sh) := by
  unfold Answered at h
  rw [walk_of_view hv] at h
  intro e he
  exact h e (List.mem_cons_of_mem _ he)

omit [UuidCrate U] in
/-- INTERNAL: the dead letters in front of those that were there are those written. -/
theorem written_of_append {e : Talk Γ} {new : List DlqRecord}
    (h : e.left.dlq = new ++ e.came.dlq) : written e = new := by
  unfold written
  rw [h, List.length_append, Nat.add_sub_cancel, List.take_left']
  rfl

/-- INTERNAL: a call that writes some dead letters or none, and then the rest. -/
theorem Did.writing {what : Act} {new all : List DlqRecord} (hU : Undisturbed A C)
    (hv : p.view (A.deliveries i) = some ⟨c, k⟩) (hact : act c = what)
    (hall : new ++ records = all) (hst : keyStatus A C sh = status)
    (hdlq : (leftBy A i j c sh).dlq = new ++ (cameTo A i j sh).dlq)
    (hrest : Did A C i (k (replied A i j c sh)) (j + 1) (leftBy A i j c sh) acts records status') :
    Did A C i p j sh ((what, status) :: acts) all status' where
  acts := by
    rw [walk_of_view hv, List.map_cons, hrest.acts, ← hst, ← hU.kept i j sh, ← hact]
    rfl
  written := by
    rw [walk_of_view hv, List.flatMap_cons, hrest.written, written_of_append hdlq, hall]
  status := by
    rw [walk_of_view hv]
    exact hrest.status
  unwritten hnone hsh := by
    rw [walk_of_view hv]
    obtain ⟨rfl, hrecords⟩ := List.append_eq_nil_iff.mp (hall.trans hnone)
    apply hrest.unwritten hrecords
    unfold Unwritten
    rw [hdlq]
    exact hU.unwritten_kept i j sh hsh

/-- INTERNAL: a call that writes no dead letter, and then the rest. -/
theorem Did.call {what : Act} (hU : Undisturbed A C)
    (hv : p.view (A.deliveries i) = some ⟨c, k⟩) (hact : act c = what)
    (hst : keyStatus A C sh = status) (hdlq : (leftBy A i j c sh).dlq = (cameTo A i j sh).dlq)
    (hrest : Did A C i (k (replied A i j c sh)) (j + 1) (leftBy A i j c sh) acts records status') :
    Did A C i p j sh ((what, status) :: acts) records status' :=
  Did.writing hU hv hact (List.nil_append records) hst hdlq hrest

/-- INTERNAL: the status of the key after a call. -/
theorem keyStatus_leftBy : keyStatus A C (leftBy A i j c sh) =
    C.status (cameTo A i j sh).now
      (storeAfter c ⟨A.choice i j, A.result i⟩ (cameTo A i j sh)) A.key := by
  unfold keyStatus leftBy Attempts.serve
  rw [effect_now, effect_store]

omit [UuidCrate U] in
/-- INTERNAL: the dead letters after a call. -/
theorem leftBy_dlq : (leftBy A i j c sh).dlq = dlqAfter c (cameTo A i j sh) :=
  effect_dlq true i (A.deliveries i) c _ _

/-- INTERNAL: a call that is not about the store leaves the key as it was. -/
theorem keyStatus_of_quiet (hU : Undisturbed A C) (hst : keyStatus A C sh = status)
    (hquiet : storeAfter c ⟨A.choice i j, A.result i⟩ (cameTo A i j sh) =
      (cameTo A i j sh).store) : keyStatus A C (leftBy A i j c sh) = status := by
  rw [keyStatus_leftBy, hquiet, ← hst]
  exact hU.kept i j sh

/-- INTERNAL: the state after a call that writes no dead letter, from which it is enough to know
what is done. -/
theorem exists_next {what : Act} {after : KeyStatus} (hU : Undisturbed A C)
    (hv : p.view (A.deliveries i) = some ⟨c, k⟩) (hact : act c = what)
    (hst : keyStatus A C sh = status) (hdlq : (leftBy A i j c sh).dlq = (cameTo A i j sh).dlq)
    (hleft : keyStatus A C (leftBy A i j c sh) = after) (hserved : Answered A i p j sh) :
    ∃ sh', keyStatus A C sh' = after ∧ (Unwritten A sh → Unwritten A sh') ∧
      Answered A i (k (replied A i j c sh)) (j + 1) sh' ∧
      ∀ acts records status', Did A C i (k (replied A i j c sh)) (j + 1) sh' acts records status' →
        Did A C i p j sh ((what, status) :: acts) records status' := by
  refine ⟨_, hleft, ?_, hserved.tail hv, ?_⟩
  · intro hsh
    unfold Unwritten
    rw [hdlq]
    exact hU.unwritten_kept i j sh hsh
  · intro acts records status' hrest
    exact Did.call hU hv hact hst hdlq hrest

/-! ## From the end of a delivery to its beginning -/

/-- INTERNAL: a worker that has returned does nothing. -/
theorem did_finished (hst : keyStatus A C sh = status) :
    Did A C i .finished j sh [] [] status :=
  ⟨rfl, rfl, hst, fun _ hsh => hsh⟩

/-- INTERNAL: a TERM, and no more.
SRC: subscriber.rs:145-149 -/
theorem did_term (hU : Undisturbed A C) (hst : keyStatus A C sh = status) :
    Did A C i .term j sh [(.term, status)] [] status :=
  Did.call hU rfl rfl hst leftBy_dlq (did_finished (keyStatus_of_quiet hU hst rfl))

/-- INTERNAL: an ack, and no more.
SRC: subscriber.rs:133-137 -/
theorem did_ack (hU : Undisturbed A C) (hst : keyStatus A C sh = status) :
    Did A C i .ack j sh [(.ack, status)] [] status :=
  Did.call hU rfl rfl hst leftBy_dlq (did_finished (keyStatus_of_quiet hU hst rfl))

/-- INTERNAL: a NAK, and no more.
SRC: subscriber.rs:139-143 -/
theorem did_nak (hU : Undisturbed A C) (hst : keyStatus A C sh = status) {delay : Duration} :
    Did A C i (.nak delay) j sh [(.nak delay, status)] [] status :=
  Did.call hU rfl rfl hst leftBy_dlq (did_finished (keyStatus_of_quiet hU hst rfl))

/-- INTERNAL: the key is done once it has been marked. -/
theorem done_of_markDone (hU : Undisturbed A C)
    (hserved : answered _ (replied A i j (.markDone (A.deliveries i).msgId) sh) = true) :
    keyStatus A C (leftBy A i j (.markDone (A.deliveries i).msgId) sh) = .done := by
  rw [keyStatus_leftBy]
  have hdone := done_of_serves C ⟨A.choice i j, A.result i⟩ hserved
  rw [hU.sameKey i] at hdone ⊢
  exact hdone

/-- INTERNAL: the key is marked, and the message terminated.
SRC: subscriber.rs:578-586 -/
theorem did_markTerm (hU : Undisturbed A C) (hst : keyStatus A C sh = status)
    (hserved : Answered A i .markTerm j sh) :
    Did A C i .markTerm j sh [(.markDone, status), (.term, .done)] [] .done :=
  Did.call hU rfl rfl hst leftBy_dlq (did_term hU (done_of_markDone hU (hserved.head rfl)))

/-- INTERNAL: the key is marked, and the message acked.
SRC: subscriber.rs:458-470 -/
theorem did_markAck (hU : Undisturbed A C) (hst : keyStatus A C sh = status)
    (hserved : Answered A i .markAck j sh) :
    Did A C i .markAck j sh [(.markDone, status), (.ack, .done)] [] .done :=
  Did.call hU rfl rfl hst leftBy_dlq (did_ack hU (done_of_markDone hU (hserved.head rfl)))

/-- INTERNAL: the key is released, and the message sent back.
SRC: subscriber.rs:588-596 -/
theorem did_release (hU : Undisturbed A C) (hst : keyStatus A C sh = status) {delay : Duration}
    (hserved : Answered A i (.release delay) j sh) :
    Did A C i (.release delay) j sh [(.release, status), (.nak delay, .absent)] [] .absent := by
  refine Did.call hU rfl rfl hst leftBy_dlq (did_nak hU ?_)
  rw [keyStatus_leftBy]
  have habsent := absent_of_serves C ⟨A.choice i j, A.result i⟩ (hserved.head rfl)
  rw [hU.sameKey i] at habsent ⊢
  exact habsent

/-- INTERNAL: a count that is no less than zero is kept as it is. -/
theorem asU64_natCast {n : ℕ} (h : n ≤ i64Max) : asU64 n = n := by
  unfold i64Max at h
  unfold asU64
  have hsize : (UInt64.size : ℤ) = 18446744073709551616 := rfl
  rw [hsize]
  omega

/-- The dead letter of a delivery of the message. -/
def letter (A : Attempts Γ) (i : ℕ) (cause : Cause) (failedAt : String) (now : ℕ) : DlqRecord where
  subject := dlqSubject A.options.source A.options.durable
  headers := cause.headers (A.delivery i) failedAt
  payload := A.message.payload
  storedAt := now

/-- INTERNAL: what is published is a dead letter of the attempt.
SRC: dlq.rs:113-139 -/
theorem isDeadLetter_letter {cause : Cause} {failedAt : String} {now : ℕ} (hi : i ≤ i64Max) :
    IsDeadLetter A i cause.failureClass (letter A i cause failedAt now) := by
  have hcount : asU64 (A.delivery i).info.delivered = i := asU64_natCast hi
  have hget : (cause.headers (A.delivery i) failedAt).get hdrFailureClass =
        some cause.failureClass ∧
      (cause.headers (A.delivery i) failedAt).get hdrRetryCount =
        some (toString (asU64 (A.delivery i).info.delivered)) := by
    rw [Cause.headers, buildDlqHeaders_eq]
    exact ⟨rfl, rfl⟩
  rw [hcount] at hget
  exact ⟨rfl, rfl, hget.1, hget.2⟩

/-- INTERNAL: a dead letter of the message is not taken for one that is there. -/
theorem publish_of_unwritten {cause : Cause} {failedAt : String} (hsh : Unwritten A sh) :
    (sh.publish (dlqSubject A.options.source A.options.durable)
      (cause.headers (A.delivery i) failedAt) A.message.payload).dlq =
      [letter A i cause failedAt sh.now] ++ sh.dlq := by
  have hnew : sh.isDuplicate (dlqSubject A.options.source A.options.durable)
      ((cause.headers (A.delivery i) failedAt).get hdrNatsMsgId) = false := by
    rw [headers_msgId, Bool.eq_false_iff]
    intro hduplicate
    obtain ⟨r, hr, hsubject, hid, -⟩ := isDuplicate_iff.mp hduplicate
    exact hsh i r hr hsubject hid
  rw [publish_dlq, hnew]
  rfl

/-- INTERNAL: a dead letter, the mark and the TERM.
SRC: subscriber.rs:524-586 -/
theorem did_publish (hU : Undisturbed A C) (hst : keyStatus A C sh = status) {cause : Cause}
    {config : DlqConfig} {failedAt : String} (hi : i ≤ i64Max)
    (hmessage : A.deliveries i = A.delivery i) (hsh : Unwritten A sh)
    (hserved : Answered A i (.publish config cause failedAt) j sh) :
    ∃ r, IsDeadLetter A i cause.failureClass r ∧
      Did A C i (.publish config cause failedAt) j sh
        [(.deadLetter, status), (.markDone, status), (.term, .done)] [r] .done := by
  have hserved' : Answered A i .markTerm (j + 1) _ := hserved.tail rfl
  have hrest := did_markTerm hU (keyStatus_of_quiet hU hst rfl) hserved'
  refine ⟨letter A i cause failedAt (cameTo A i j sh).now, isDeadLetter_letter hi, ?_⟩
  refine Did.writing hU rfl rfl (List.append_nil _) hst ?_ hrest
  rw [leftBy_dlq, hmessage]
  exact publish_of_unwritten (hU.unwritten_kept i j sh hsh)

/-- INTERNAL: a failure for good writes its dead letter and settles the message. -/
theorem did_terminal (hU : Undisturbed A C) (hst : keyStatus A C sh = status) {cause : Cause}
    (hi : i ≤ i64Max) (hmessage : A.deliveries i = A.delivery i) (hsh : Unwritten A sh)
    (hserved : Answered A i (.terminal (A.deliveries i) cause) j sh) :
    ∃ r, IsDeadLetter A i cause.failureClass r ∧
      Did A C i (.terminal (A.deliveries i) cause) j sh
        [(.readClock, status), (.deadLetter, status), (.markDone, status), (.term, .done)]
        [r] .done := by
  obtain ⟨dlqOpts, hdlq⟩ := Option.isSome_iff_exists.mp hU.dlq_enabled
  have hstamp : (Point.terminal (A.deliveries i) cause : Point E) =
      .stamp dlqOpts.config cause := by
    have hopts : (A.deliveries i).options.dlqOpts = some dlqOpts := by
      rw [hmessage]
      exact hdlq
    unfold Point.terminal
    rw [hopts]
  rw [hstamp] at hserved ⊢
  obtain ⟨sh', hst', hkept, hserved', hclock⟩ :=
    exists_next hU rfl rfl hst leftBy_dlq (keyStatus_of_quiet hU hst rfl) hserved
  obtain ⟨r, hr, hrest⟩ := did_publish hU hst' hi hmessage (hkept hsh) hserved'
  exact ⟨r, hr, hclock _ _ _ hrest⟩

/-! ## A whole delivery -/

/-- INTERNAL: the handler is called, and what its result leads to is left. -/
theorem exists_handled (hU : Undisturbed A C) (hst : keyStatus A C sh = status) {event : E}
    {q : Point E} (hafter : .afterHandler (A.deliveries i) (A.result i) = q)
    (hserved : Answered A i (.handle event) j sh) :
    ∃ sh', keyStatus A C sh' = status ∧ (Unwritten A sh → Unwritten A sh') ∧
      Answered A i q (j + 1) sh' ∧
      ∀ acts records status', Did A C i q (j + 1) sh' acts records status' →
        Did A C i (.handle event) j sh ((.handle, status) :: acts) records status' := by
  subst hafter
  exact exists_next hU rfl rfl hst leftBy_dlq (keyStatus_of_quiet hU hst rfl) hserved

/-- INTERNAL: a delivery of the message whose handler fails for now. -/
theorem did_handle_retry (hU : Undisturbed A C) (hst : keyStatus A C sh = status) {event : E}
    {reason : String} (hresult : A.result i = .error (.transient reason))
    (hmessage : A.deliveries i = A.delivery i)
    (hfinal : isFinalAttempt A.options (A.delivery i).info = false)
    (hserved : Answered A i (.handle event) j sh) :
    Did A C i (.handle event) j sh
      [(.handle, status), (.release, status),
        (.nak (computeBackoff A.options.backoff i), .absent)] [] .absent := by
  have hafter : Point.afterHandler (A.deliveries i) (A.result i) =
      (.release (computeBackoff A.options.backoff i) : Point E) := by
    rw [hmessage, hresult]
    show (if isFinalAttempt A.options (A.delivery i).info then _ else _) = _
    rw [hfinal]
    rfl
  obtain ⟨sh', hst', -, hserved', hhandle⟩ := exists_handled hU hst hafter hserved
  exact hhandle _ _ _ (did_release hU hst' hserved')

/-- INTERNAL: the handler, the mark and the ack. -/
theorem did_handle_ok (hU : Undisturbed A C) (hst : keyStatus A C sh = status) {event : E}
    (hresult : A.result i = .ok ()) (hserved : Answered A i (.handle event) j sh) :
    Did A C i (.handle event) j sh
      [(.handle, status), (.markDone, status), (.ack, .done)] [] .done := by
  have hafter : Point.afterHandler (A.deliveries i) (A.result i) = (.markAck : Point E) := by
    rw [hresult]
    rfl
  obtain ⟨sh', hst', -, hserved', hhandle⟩ := exists_handled hU hst hafter hserved
  exact hhandle _ _ _ (did_markAck hU hst' hserved')

/-- INTERNAL: the handler fails for good. -/
theorem did_handle_terminal (hU : Undisturbed A C) (hst : keyStatus A C sh = status) {event : E}
    {cause : Cause} (hi : i ≤ i64Max) (hmessage : A.deliveries i = A.delivery i)
    (hsh : Unwritten A sh)
    (hafter : Point.afterHandler (A.deliveries i) (A.result i) =
      (.terminal (A.deliveries i) cause : Point E))
    (hserved : Answered A i (.handle event) j sh) :
    ∃ r, IsDeadLetter A i cause.failureClass r ∧
      Did A C i (.handle event) j sh
        [(.handle, status), (.readClock, status), (.deadLetter, status), (.markDone, status),
          (.term, .done)] [r] .done := by
  obtain ⟨sh', hst', hkept, hserved', hhandle⟩ := exists_handled hU hst hafter hserved
  obtain ⟨r, hr, hrest⟩ := did_terminal hU hst' hi hmessage (hkept hsh) hserved'
  exact ⟨r, hr, hhandle _ _ _ hrest⟩

/-- INTERNAL: an absent key is claimed. -/
theorem granted (hU : Undisturbed A C) (hst : keyStatus A C sh = .absent)
    (hserved : Answered A i .claim j sh) :
    replied A i j (.tryClaim (A.deliveries i).msgId) sh = .ok .claimed ∧
      keyStatus A C (leftBy A i j (.tryClaim (A.deliveries i).msgId) sh) = .pending := by
  have habsent : C.status (cameTo A i j sh).now (cameTo A i j sh).store
      (A.deliveries i).msgId = .absent := by
    rw [hU.sameKey i, ← hst]
    exact hU.kept i j sh
  have hclaimed := granted_of_serves C (hserved.head rfl) habsent
  have hpending := (C.of_claimed _ _ _ _ hclaimed).2
  rw [hU.sameKey i] at hpending
  refine ⟨hclaimed, ?_⟩
  rw [keyStatus_leftBy, hU.sameKey i]
  exact hpending

/-- INTERNAL: a key that is done is reported done. -/
theorem alreadyDone (hU : Undisturbed A C) (hst : keyStatus A C sh = .done)
    (hserved : Answered A i .claim j sh) :
    replied A i j (.tryClaim (A.deliveries i).msgId) sh = .ok .alreadyDone ∧
      keyStatus A C (leftBy A i j (.tryClaim (A.deliveries i).msgId) sh) = .done := by
  have hdone : C.status (cameTo A i j sh).now (cameTo A i j sh).store A.key = .done := by
    rw [← hst]
    exact hU.kept i j sh
  have hstep := C.tryClaim_step (cameTo A i j sh).now (A.choice i j) (A.deliveries i).msgId
    (cameTo A i j sh).store
  have hok : (replied A i j (.tryClaim (A.deliveries i).msgId) sh).toBool = true :=
    hserved.head rfl
  rw [keyStatus_leftBy]
  change (Γ.store.tryClaim _ _ _ _).1 = _ ∧ C.status _ (Γ.store.tryClaim _ _ _ _).2 _ = _
  change (Γ.store.tryClaim _ _ _ _).1.toBool = true at hok
  rw [hU.sameKey i] at hstep hok ⊢
  rw [hdone] at hstep
  generalize (Γ.store.tryClaim _ _ _ _).1 = answer at *
  generalize C.status _ (Γ.store.tryClaim _ _ _ _).2 _ = left at *
  cases hstep with
  | alreadyDone => exact ⟨rfl, rfl⟩
  | failed status e => cases hok

/-- INTERNAL: a delivery with an absent key does what it does once it has claimed it. -/
theorem exists_claimed (hU : Undisturbed A C) (hst : keyStatus A C sh = .absent)
    (hserved : Answered A i .claim 0 sh) :
    ∃ sh', keyStatus A C sh' = .pending ∧ (Unwritten A sh → Unwritten A sh') ∧
      Answered A i (.afterClaim (A.deliveries i)) 1 sh' ∧
      ∀ acts records status', Did A C i (.afterClaim (A.deliveries i)) 1 sh' acts records status' →
        Did A C i .claim 0 sh ((.claim, .absent) :: acts) records status' := by
  obtain ⟨hclaimed, hpending⟩ := granted hU hst hserved
  have hnext := exists_next hU rfl rfl hst leftBy_dlq hpending hserved
  rw [hclaimed] at hnext
  exact hnext

/-- **A delivery after the last one** is acknowledged and never comes to the handler. -/
theorem did_later (hU : Undisturbed A C) (hst : keyStatus A C sh = .done)
    (hserved : Answered A i .claim 0 sh) :
    Did A C i .claim 0 sh [(.claim, .done), (.ack, .done)] [] .done := by
  obtain ⟨hanswer, hdone⟩ := alreadyDone hU hst hserved
  refine Did.call hU rfl rfl hst leftBy_dlq ?_
  rw [hanswer]
  exact did_ack hU hdone

omit [UuidCrate U] in
/-- INTERNAL: an event that is read is handled. -/
theorem afterClaim_of_ok (hmessage : A.deliveries i = A.delivery i) {event : E}
    (h : Γ.fromSlice A.sub A.message.payload = .ok event) :
    Point.afterClaim (A.deliveries i) = .handle event := by
  have hslice : Γ.fromSlice (A.deliveries i).sub (A.deliveries i).msg.payload = .ok event := by
    rw [hmessage]
    exact h
  unfold Point.afterClaim
  rw [hslice]

omit [UuidCrate U] in
/-- INTERNAL: an event that cannot be read fails for good.
SRC: subscriber.rs:426-447 -/
theorem afterClaim_of_error (hmessage : A.deliveries i = A.delivery i) {e : String}
    (h : Γ.fromSlice A.sub A.message.payload = .error e) :
    Point.afterClaim (A.deliveries i) =
      .terminal (A.deliveries i) ⟨reasonInvalidPayload, classPoison, e⟩ := by
  have hslice : Γ.fromSlice (A.deliveries i).sub (A.deliveries i).msg.payload = .error e := by
    rw [hmessage]
    exact h
  unfold Point.afterClaim
  rw [hslice]

omit [UuidCrate U] in
/-- INTERNAL: what is not poisoned can be read. -/
theorem exists_ok_of_not_poisoned (h : ¬ Poisoned A) :
    ∃ event, Γ.fromSlice A.sub A.message.payload = .ok event := by
  unfold Poisoned at h
  cases hslice : Γ.fromSlice A.sub A.message.payload with
  | ok event => exact ⟨event, rfl⟩
  | error e =>
    rw [hslice] at h
    exact absurd rfl h

omit [UuidCrate U] in
/-- INTERNAL: what is poisoned cannot be read. -/
theorem exists_error_of_poisoned (h : Poisoned A) :
    ∃ e, Γ.fromSlice A.sub A.message.payload = .error e := by
  unfold Poisoned at h
  cases hslice : Γ.fromSlice A.sub A.message.payload with
  | error e => exact ⟨e, rfl⟩
  | ok event =>
    rw [hslice] at h
    cases h

omit [UuidCrate U] in
/-- INTERNAL: the delay of the source is that of the schedule. -/
theorem computeBackoff_eq (hpos : 1 ≤ i) (hi : i ≤ i64Max) :
    computeBackoff A.options.backoff i = retryDelay A i := by
  unfold computeBackoff retryDelay
  split
  · rename_i hnil
    rw [hnil]
    exact List.getD_nil.symm
  · rename_i hne
    have hlength := List.length_pos_iff.mpr hne
    have hindex : min (asU64 i - 1) (A.options.backoff.length - 1) =
        min i A.options.backoff.length - 1 := by
      rw [asU64_natCast hi]
      omega
    rw [← hindex, List.getD_eq_getElem _ _ (by omega), List.get_eq_getElem]

omit [UuidCrate U] in
/-- INTERNAL: a delivery is final from the last one of the budget on. -/
theorem isFinalAttempt_iff : isFinalAttempt A.options (A.delivery i).info = true ↔
    0 < A.options.maxDeliver ∧ A.options.maxDeliver ≤ i := by
  unfold isFinalAttempt
  rw [Bool.and_eq_true, decide_eq_true_eq, decide_eq_true_eq]
  exact Iff.rfl

/-- **A delivery before the last one** gives the key back and is negatively acknowledged, with
the delay of its number. -/
theorem did_retry (hU : Undisturbed A C) (hpos : 1 ≤ i) (hi : i ≤ i64Max)
    (hstay : ∀ j, 1 ≤ j → j ≤ i → ¬ Ends A j) (hst : keyStatus A C sh = .absent)
    (hserved : Answered A i .claim 0 sh) :
    Did A C i .claim 0 sh
      [(.claim, .absent), (.handle, .pending), (.release, .pending),
        (.nak (retryDelay A i), .absent)] [] .absent := by
  have hmessage := hU.repeated i hpos fun j hj hlt => hstay j hj (Nat.le_of_lt hlt)
  have hends := hstay i hpos (Nat.le_refl i)
  unfold Ends at hends
  simp only [not_or, not_exists] at hends
  obtain ⟨hpoison, hok, hpermanent, -⟩ := hends
  obtain ⟨event, hevent⟩ := exists_ok_of_not_poisoned hpoison
  have hfinal : isFinalAttempt A.options (A.delivery i).info = false := by
    rw [Bool.eq_false_iff]
    intro hfinal
    obtain ⟨hbudget, hle⟩ := isFinalAttempt_iff.mp hfinal
    -- the last delivery of the budget would have been an end
    apply hstay A.options.maxDeliver.toNat (by omega) (by omega)
    exact Or.inr (Or.inr (Or.inr ⟨hbudget, by omega⟩))
  have hreason : ∃ reason, A.result i = .error (.transient reason) := by
    cases hresult : A.result i with
    | ok _ => exact absurd hresult hok
    | error e =>
      cases e with
      | transient reason => exact ⟨reason, rfl⟩
      | permanent reason => exact absurd hresult (hpermanent reason)
  obtain ⟨reason, hresult⟩ := hreason
  obtain ⟨sh', hst', -, hserved', hclaim⟩ := exists_claimed hU hst hserved
  apply hclaim
  rw [afterClaim_of_ok hmessage hevent] at hserved' ⊢
  rw [← computeBackoff_eq hpos hi]
  exact did_handle_retry hU hst' hresult hmessage hfinal hserved'

/-- **The last delivery** settles the message, with a dead letter unless it was handled. -/
theorem did_last {k : ℕ} (hU : Undisturbed A C) (hend : EndsAt A k) (hk : k ≤ i64Max)
    (hst : keyStatus A C sh = .absent) (hsh : Unwritten A sh)
    (hserved : Answered A k .claim 0 sh) :
    ∃ records, EndRecords A k records ∧
      Did A C k .claim 0 sh (lastActs A k) records .done := by
  have hmessage := hU.repeated k hend.pos hend.first
  obtain ⟨sh', hst', hkept, hserved', hclaim⟩ := exists_claimed hU hst hserved
  have hsh' := hkept hsh
  by_cases hpoison : Poisoned A
  · obtain ⟨e, he⟩ := exists_error_of_poisoned hpoison
    have hafter : (Point.afterClaim (A.deliveries k) : Point E) = _ :=
      afterClaim_of_error hmessage he
    rw [hafter] at hserved' hclaim
    obtain ⟨r, hr, hdid⟩ := did_terminal hU hst' hk hmessage hsh' hserved'
    have hclass : endClass A k = some classPoison := by
      unfold endClass
      rw [if_pos hpoison]
    refine ⟨[r], ?_, ?_⟩
    · unfold EndRecords
      rw [hclass]
      exact ⟨r, rfl, hr⟩
    · unfold lastActs
      rw [if_pos hpoison, hclass]
      exact hclaim _ _ _ hdid
  · obtain ⟨event, hevent⟩ := exists_ok_of_not_poisoned hpoison
    rw [afterClaim_of_ok hmessage hevent] at hserved' hclaim
    -- a failure for good of the handler
    have hterminal : ∀ cause : Cause, endClass A k = some cause.failureClass →
        Point.afterHandler (A.deliveries k) (A.result k) =
          (.terminal (A.deliveries k) cause : Point E) →
        ∃ records, EndRecords A k records ∧
          Did A C k .claim 0 sh (lastActs A k) records .done := by
      intro cause hclass hafter
      obtain ⟨r, hr, hdid⟩ := did_handle_terminal hU hst' hk hmessage hsh' hafter hserved'
      refine ⟨[r], ?_, ?_⟩
      · unfold EndRecords
        rw [hclass]
        exact ⟨r, rfl, hr⟩
      · unfold lastActs
        rw [if_neg hpoison, hclass]
        exact hclaim _ _ _ hdid
    cases hresult : A.result k with
    | ok _ =>
      have hclass : endClass A k = none := by
        unfold endClass
        rw [if_neg hpoison, hresult]
      refine ⟨[], ?_, ?_⟩
      · unfold EndRecords
        rw [hclass]
      · unfold lastActs
        rw [if_neg hpoison, if_pos hclass]
        exact hclaim _ _ _ (did_handle_ok hU hst' hresult hserved')
    | error e =>
      cases e with
      | permanent reason =>
        apply hterminal ⟨reasonHandlerPermanent, classPermanent, reason⟩
        · unfold endClass
          rw [if_neg hpoison, hresult]
        · rw [hresult]
          rfl
      | transient reason =>
        have hbudget : 0 < A.options.maxDeliver ∧ (k : ℤ) = A.options.maxDeliver := by
          rcases hend.ends with h | h | ⟨_, h⟩ | h
          · exact absurd h hpoison
          · rw [hresult] at h
            cases h
          · rw [hresult] at h
            cases h
          · exact h
        have hfinal : isFinalAttempt A.options (A.delivery k).info = true :=
          isFinalAttempt_iff.mpr ⟨hbudget.1, Int.le_of_eq hbudget.2.symm⟩
        apply hterminal ⟨reasonMaxRetriesExceeded, classTransientExhausted, reason⟩
        · unfold endClass
          rw [if_neg hpoison, hresult]
        · rw [hresult, hmessage]
          show (if isFinalAttempt A.options (A.delivery k).info then _ else _) = _
          rw [hfinal]
          rfl

end Walk

/-! ## All deliveries -/

/-- How often the handler was called. -/
def handled (es : List (Talk Γ)) : ℕ := es.countP fun e => decide (act e.call = .handle)

section Run

variable {A : Attempts Γ} {C : Γ.store.Contract} {i k m : ℕ}

/-- INTERNAL: the handler calls are counted in what is seen. -/
theorem handled_eq (es : List (Talk Γ)) :
    handled es = (es.map (seen A C)).countP fun x => decide (x.1 = .handle) := by
  rw [List.countP_map]
  rfl

/-- INTERNAL: a delivery is the walk of its worker. -/
theorem attempt_eq (hU : Undisturbed A C) (sh : Shared Γ) :
    A.attempt i sh = walk A i .claim 0 sh := by
  have hcode := code_start (A.deliveries i)
  rw [show (pointMachine Γ).start (A.deliveries i) = Point.claim from
    if_pos (hU.readable i)] at hcode
  unfold Attempts.attempt Attempts.worker
  rw [← hcode]
  rfl

/-- INTERNAL: an attempt is part of the life that contains it. -/
theorem exchanges_subset (hpos : 1 ≤ i) (him : i ≤ m) : A.exchanges i ⊆ A.trace m := by
  induction m with
  | zero => omega
  | succ m ih =>
    show A.exchanges i ⊆ A.trace m ++ A.exchanges (m + 1)
    by_cases hlast : i = m + 1
    · rw [hlast]
      exact List.subset_append_right _ _
    · exact List.Subset.trans (ih (by omega)) (List.subset_append_left _ _)

/-- INTERNAL: what a delivery did, of its exchanges and its state. -/
theorem delivery_of_did (hU : Undisturbed A C) {acts : List (Act × KeyStatus)}
    {records : List DlqRecord} {status : KeyStatus}
    (h : Did A C (i + 1) .claim 0 (A.after i) acts records status) :
    (A.exchanges (i + 1)).map (seen A C) = acts ∧
      (A.exchanges (i + 1)).flatMap written = records ∧
      keyStatus A C (A.after (i + 1)) = status ∧
      (records = [] → Unwritten A (A.after i) → Unwritten A (A.after (i + 1))) := by
  have hexchanges : A.exchanges (i + 1) = (walk A (i + 1) .claim 0 (A.after i)).1 := by
    rw [← attempt_eq hU]
    rfl
  have hafter : A.after (i + 1) = (walk A (i + 1) .claim 0 (A.after i)).2 := by
    rw [← attempt_eq hU]
    rfl
  rw [hexchanges, hafter]
  exact ⟨h.acts, h.written, h.status, h.unwritten⟩

/-- INTERNAL: the calls of an attempt are answered when those of the life are. -/
theorem answered_delivery (hU : Undisturbed A C)
    (hserved : ∀ e ∈ A.trace m, answered e.call e.answer = true) (him : i + 1 ≤ m) :
    Answered A (i + 1) .claim 0 (A.after i) := by
  unfold Answered
  rw [← attempt_eq hU]
  intro e he
  exact hserved e (exchanges_subset (by omega) him he)

/-- INTERNAL: one more attempt adds its handler calls. -/
theorem handled_trace_succ :
    handled (A.trace (i + 1)) = handled (A.trace i) + handled (A.exchanges (i + 1)) :=
  List.countP_append

/-- INTERNAL: one more attempt adds its dead letters. -/
theorem written_trace_succ : (A.trace (i + 1)).flatMap written =
    (A.trace i).flatMap written ++ (A.exchanges (i + 1)).flatMap written :=
  List.flatMap_append

/-- Nothing has come of the first `i` deliveries. -/
structure Waiting (A : Attempts Γ) (C : Γ.store.Contract) (i : ℕ) : Prop where
  absent : keyStatus A C (A.after i) = .absent
  unwritten : Unwritten A (A.after i)
  handled : handled (A.trace i) = i
  written : (A.trace i).flatMap written = []

/-- INTERNAL: before its last delivery a message waits for it. -/
theorem waiting (hU : Undisturbed A C) (hm : m ≤ i64Max)
    (hserved : ∀ e ∈ A.trace m, answered e.call e.answer = true)
    (hstay : ∀ j, 1 ≤ j → j ≤ i → ¬ Ends A j) (him : i ≤ m) : Waiting A C i := by
  induction i with
  | zero => exact ⟨hU.absent, hU.unwritten, rfl, rfl⟩
  | succ i ih =>
    have hbefore := ih (fun j hj hji => hstay j hj (by omega)) (by omega)
    have hdid := did_retry hU (by omega) (by omega) hstay hbefore.absent
      (answered_delivery hU hserved him)
    obtain ⟨hacts, hwritten, hstatus, hunwritten⟩ := delivery_of_did hU hdid
    constructor
    · exact hstatus
    · exact hunwritten rfl hbefore.unwritten
    · rw [handled_trace_succ, hbefore.handled, handled_eq (A := A) (C := C), hacts]
      rfl
    · rw [written_trace_succ, hbefore.written, hwritten]
      rfl

/-- The schedule of a message that ends with delivery `k`, for its first `m` deliveries. -/
structure Schedule (A : Attempts Γ) (C : Γ.store.Contract) (k m : ℕ) : Prop where
  /-- The deliveries before the last give the key back and wait. -/
  retried : ∀ i, 1 ≤ i → i < k → (A.exchanges i).map (seen A C) =
    [(.claim, .absent), (.handle, .pending), (.release, .pending), (.nak (retryDelay A i), .absent)]
  last : (A.exchanges k).map (seen A C) = lastActs A k
  /-- Deliveries after the last are acknowledged. -/
  later : ∀ i, k < i → i ≤ m → (A.exchanges i).map (seen A C) = [(.claim, .done), (.ack, .done)]
  handled : handled (A.trace m) = if Poisoned A then 0 else k
  deadLettered : EndRecords A k ((A.trace m).flatMap written)
  done : keyStatus A C (A.after m) = .done

omit [UuidCrate U] in
/-- INTERNAL: how often the handler was called in the end. -/
theorem handled_lastActs (hend : EndsAt A (k + 1)) :
    (k + (lastActs A (k + 1)).countP fun x => decide (x.1 = .handle)) =
      if Poisoned A then 0 else k + 1 := by
  by_cases hpoison : Poisoned A
  · have hk : k = 0 := by
      by_contra hne
      exact hend.first 1 (Nat.le_refl 1) (by omega) (Or.inl hpoison)
    unfold lastActs
    rw [if_pos hpoison, if_pos hpoison, hk]
    split <;> rfl
  · unfold lastActs
    rw [if_neg hpoison, if_neg hpoison]
    split <;> rfl

/-- **The life of a message is its schedule.**  Take a store that keeps its contract, any
budget, delays, payload and results of the handler, and deliveries one after another, of which
`k` is the first whose result is `Ok` or permanent, or the last of the budget, or 1 if the
payload cannot be deserialized.  While nothing fails and no other uses the key, the deliveries
before `k` end in a NAK with the delay of their number, with the key given back; delivery `k`
ends in an ack, or in one dead letter of its class with the count `k` and a `Term`; the key
stays done, and what comes later is acknowledged and not handled.
SRC: subscriber.rs:426-605, dlq.rs:113-139 -/
theorem retry_life (hU : Undisturbed A C) (hend : EndsAt A k) (hkm : k ≤ m) (hm : m ≤ i64Max)
    (hserved : ∀ e ∈ A.trace m, answered e.call e.answer = true) : Schedule A C k m := by
  obtain ⟨k, rfl⟩ : ∃ n, k = n + 1 := ⟨k - 1, by have := hend.pos; omega⟩
  have hwaiting : Waiting A C k :=
    waiting hU hm hserved (fun j hj hjk => hend.first j hj (by omega)) (by omega)
  obtain ⟨records, hrecords, hdid⟩ := did_last hU hend (by omega) hwaiting.absent
    hwaiting.unwritten (answered_delivery hU hserved hkm)
  obtain ⟨hacts, hwritten, hstatus, -⟩ := delivery_of_did hU hdid
  have hsettled : ∀ n, k + 1 ≤ n → n ≤ m → keyStatus A C (A.after n) = .done ∧
      handled (A.trace n) = (if Poisoned A then 0 else k + 1) ∧
      (A.trace n).flatMap written = records := by
    intro n hkn
    induction hkn with
    | refl =>
      intro _
      refine ⟨hstatus, ?_, ?_⟩
      · rw [handled_trace_succ, hwaiting.handled, handled_eq (A := A) (C := C), hacts]
        exact handled_lastActs hend
      · rw [written_trace_succ, hwaiting.written, hwritten]
        rfl
    | @step n hkn ih =>
      intro hnm
      obtain ⟨hdone, hhandled, hsame⟩ := ih (by omega)
      have hlater := did_later hU hdone (answered_delivery hU hserved hnm)
      obtain ⟨hacts', hwritten', hstatus', -⟩ := delivery_of_did hU hlater
      refine ⟨hstatus', ?_, ?_⟩
      · rw [handled_trace_succ, hhandled, handled_eq (A := A) (C := C), hacts']
        rfl
      · rw [written_trace_succ, hsame, hwritten', List.append_nil]
  obtain ⟨hdone, hhandled, hsame⟩ := hsettled m hkm (Nat.le_refl m)
  constructor
  · intro i hpos hik
    obtain ⟨i, rfl⟩ : ∃ n, i = n + 1 := ⟨i - 1, by omega⟩
    have hstay : ∀ j, 1 ≤ j → j ≤ i + 1 → ¬ Ends A j :=
      fun j hj hji => hend.first j hj (by omega)
    have hbefore : Waiting A C i :=
      waiting hU hm hserved (fun j hj hji => hstay j hj (by omega)) (by omega)
    have hretry := did_retry hU (by omega) (by omega) hstay hbefore.absent
      (answered_delivery hU hserved (by omega))
    exact (delivery_of_did hU hretry).1
  · exact hacts
  · intro i hki him
    obtain ⟨i, rfl⟩ : ∃ n, i = n + 1 := ⟨i - 1, by omega⟩
    have hlater := did_later hU (hsettled i (by omega) (by omega)).1
      (answered_delivery hU hserved him)
    exact (delivery_of_did hU hlater).1
  · exact hhandled
  · rw [hsame]
    exact hrecords
  · exact hdone

end Run

/-! ## A message that fails for good at its fourth delivery -/

/-- The handler is busy three times and then rejects the message.  Later a message with the
same id is published again. -/
def rejectedLater : Attempts events where
  sub := "billing"
  message := (eventsDelivery "billing" "6ba7b810-9dad-11d1-80b4-00c04fd430c8" 1 1).msg
  streamSequence := 1
  deliveries i :=
    if i ≤ 4 then eventsDelivery "billing" "6ba7b810-9dad-11d1-80b4-00c04fd430c8" 1 i
    else eventsDelivery "billing" "6ba7b810-9dad-11d1-80b4-00c04fd430c8" 2 1
  result i :=
    if i ≤ 3 then .error (.transient "busy") else .error (.permanent "unknown address")
  choice _ _ := ()
  others _ _ sh := sh
  initial := .initial 0 (fun _ => none) []

/-- INTERNAL: the fourth attempt is the last of the message. -/
theorem endsAt_rejectedLater : EndsAt rejectedLater 4 where
  pos := by decide
  ends := Or.inr (Or.inr (Or.inl ⟨"unknown address", rfl⟩))
  first i hpos hi := by
    have hresult : rejectedLater.result i = .error (.transient "busy") :=
      if_pos (Nat.le_of_lt_succ hi)
    unfold Ends
    rw [hresult]
    rintro (h | h | ⟨reason, h⟩ | ⟨-, h⟩)
    · cases h
    · cases h
    · cases h
    · change (i : ℤ) = 5 at h
      omega

/-- INTERNAL: nothing disturbs the life of the message. -/
theorem undisturbed_rejectedLater :
    Undisturbed rejectedLater (RedisIdempotencyStore.contract (.connect {})) where
  dlq_enabled := rfl
  repeated i hpos hstay := by
    by_cases hi : i ≤ 4
    · exact if_pos hi
    · exact absurd endsAt_rejectedLater.ends (hstay 4 (by decide) (by omega))
  readable i := by
    unfold rejectedLater
    dsimp only
    split <;> rfl
  sameKey i := by
    by_cases hi : i ≤ 4
    · have hfirst : rejectedLater.deliveries i = rejectedLater.delivery i := if_pos hi
      rw [hfirst]
      rfl
    · have hlater : rejectedLater.deliveries i =
          eventsDelivery "billing" "6ba7b810-9dad-11d1-80b4-00c04fd430c8" 2 1 := if_neg hi
      rw [hlater]
      decide +kernel
  absent := rfl
  kept i j sh := rfl
  unwritten i r hr := nomatch hr
  unwritten_kept i j sh hsh := hsh

/-- INTERNAL: the result on this message. -/
theorem retry_life_rejected :
    Schedule rejectedLater (RedisIdempotencyStore.contract (.connect {})) 4 5 :=
  retry_life undisturbed_rejectedLater endsAt_rejectedLater (by decide) (by decide)
    (by decide +kernel)

end EventBus.Analysis
