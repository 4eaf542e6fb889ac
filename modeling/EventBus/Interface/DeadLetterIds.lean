import EventBus.Interface.Faults
import EventBus.Lib.Joined

/-!
# What tells dead letters apart

A dead letter names the message it stands for in three headers, and carries an id from
which the dead letter stream recognises a publish it already has.  Between dead letters
of one stream and consumer the id determines the sequence number and the delivery count,
and nothing else; in particular two deliveries of one message have different ids.
-/

set_option autoImplicit false

namespace EventBus.Interface

open EventBus.Model EventBus.Lib

variable {U E : Type} {Γ : Deployment U E}

/-! ## Numerals -/

/-- INTERNAL: a number can be told from its text. -/
theorem toString_nat_injective : Function.Injective (toString : ℕ → String) := by
  intro m n h
  have hdigits : Nat.toDigits 10 m = Nat.toDigits 10 n := by
    rw [← Nat.toList_repr, ← Nat.toList_repr]
    exact congrArg String.toList h
  rw [← Nat.ofDigitChars_ten_toDigits (n := m), hdigits, Nat.ofDigitChars_ten_toDigits]

/-- INTERNAL: there is no colon in the text of a number. -/
theorem colon_notMem_toString (n : ℕ) : ':' ∉ (toString n).toList := by
  intro h
  have hdigit := Nat.isDigit_of_mem_toDigits (b := 10) (by omega) (by omega)
    (by rw [← Nat.toList_repr]; exact h)
  exact absurd hdigit (by decide)

/-- **Between dead letters of one stream and consumer, the id tells sequence numbers and
delivery counts apart.**
SRC: dlq.rs:115-121 -/
theorem dedupId_injective {f g : FailureInfo} (hstream : f.originalStream = g.originalStream)
    (hconsumer : f.consumer = g.consumer) (h : f.dedupId = g.dedupId) :
    f.originalSeq = g.originalSeq ∧ f.delivered = g.delivered := by
  have hlist := congrArg String.toList h
  have hcolon : (":" : String).toList = [':'] := by decide
  simp only [FailureInfo.dedupId, hstream, hconsumer, String.toList_append, List.append_assoc,
    hcolon, List.append_cancel_left_eq, List.cons_append, List.nil_append, List.cons.injEq,
    true_and] at hlist
  obtain ⟨hseq, hrest⟩ := append_cons_inj (colon_notMem_toString _) (colon_notMem_toString _) hlist
  have hdelivered := (List.cons.inj (List.append_cancel_left hrest)).2
  exact ⟨toString_nat_injective (String.toList_inj.mp hseq),
    toString_nat_injective (String.toList_inj.mp hdelivered)⟩

/-! ## Records -/

/-- The dead letter stands for the message with this origin. -/
def DlqRecord.isOf (r : DlqRecord) (origin : String × String × ℕ) : Prop :=
  r.headers.get hdrOriginalStream = some origin.1 ∧
    r.headers.get hdrConsumer = some origin.2.1 ∧
    r.headers.get hdrOriginalSeq = some (toString origin.2.2)

instance (r : DlqRecord) (origin : String × String × ℕ) : Decidable (DlqRecord.isOf r origin) :=
  inferInstanceAs (Decidable (_ ∧ _ ∧ _))

/-- The id under which a delivery is dead lettered. -/
def dedupIdOf (d : Delivery Γ) : String :=
  FailureInfo.dedupId
    { originalSubject := "", originalStream := d.options.source
      originalSeq := d.info.streamSequence, originalMsgId := ""
      consumer := d.options.durable, delivered := asU64 d.info.delivered
      failureReason := "", failureClass := "", failureDetail := "" }

section

variable [UuidCrate U] (cause : Cause) (d : Delivery Γ) (failedAt : String)

/-- INTERNAL: the id of a dead letter is its dedup id.
SRC: dlq.rs:115-121 -/
theorem headers_msgId : (cause.headers d failedAt).get hdrNatsMsgId = some (dedupIdOf d) := by
  rw [Cause.headers, buildDlqHeaders_eq]
  rfl

/-- INTERNAL: the dead letter of a delivery stands for its message, and for no other. -/
theorem isOf_headers (subject : String) (payload : Bytes) (now : ℕ)
    (origin : String × String × ℕ) :
    DlqRecord.isOf ⟨subject, cause.headers d failedAt, payload, now⟩ origin ↔
      d.origin = origin := by
  have hget : (cause.headers d failedAt).get hdrOriginalStream = some d.options.source ∧
      (cause.headers d failedAt).get hdrConsumer = some d.options.durable ∧
      (cause.headers d failedAt).get hdrOriginalSeq = some (toString d.info.streamSequence) := by
    rw [Cause.headers, buildDlqHeaders_eq]
    exact ⟨rfl, rfl, rfl⟩
  obtain ⟨source, durable, seq⟩ := origin
  unfold DlqRecord.isOf
  rw [hget.1, hget.2.1, hget.2.2]
  simp only [Delivery.origin, Option.some.injEq, Prod.mk.injEq]
  constructor
  · rintro ⟨hs, hd, hq⟩
    exact ⟨hs, hd, toString_nat_injective hq⟩
  · rintro ⟨hs, hd, hq⟩
    exact ⟨hs, hd, by rw [hq]⟩

/-- INTERNAL: a dead letter is of the message that its headers are of. -/
theorem isOf_iff_of_headers {cause : Cause} {d : Delivery Γ} {failedAt : String} {r : DlqRecord}
    (hheaders : r.headers = cause.headers d failedAt) (origin : String × String × ℕ) :
    DlqRecord.isOf r origin ↔ d.origin = origin := by
  rw [← isOf_headers cause d failedAt r.subject r.payload r.storedAt origin, ← hheaders]

end

/-- INTERNAL: a publish is stored unless it is a duplicate. -/
theorem publish_dlq (sh : Shared Γ) (subject : String) (headers : HeaderMap) (payload : Bytes) :
    (sh.publish subject headers payload).dlq =
      if sh.isDuplicate subject (headers.get hdrNatsMsgId) then sh.dlq
      else ⟨subject, headers, payload, sh.now⟩ :: sh.dlq := by
  unfold Shared.publish
  split <;> rfl

/-- INTERNAL: a publish is a duplicate if its id was stored within the duplicate window. -/
theorem isDuplicate_iff {sh : Shared Γ} {subject msgId : String} :
    sh.isDuplicate subject (some msgId) = true ↔
      ∃ r ∈ sh.dlq, r.subject = subject ∧ r.headers.get hdrNatsMsgId = some msgId ∧
        sh.now < r.storedAt + Γ.duplicateWindow subject := by
  simp [Shared.isDuplicate, and_assoc]

end EventBus.Interface
