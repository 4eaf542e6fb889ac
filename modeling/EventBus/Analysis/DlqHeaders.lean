import EventBus.Interface.DeadLetterIds
import EventBus.Lib.HeaderBlock

/-!
# What a dead letter still says when it is read

The headers of a dead letter say where the message came from and why it failed.  The last is
a text that the handler chose, and it goes into the block of headers as it is.

`survives_iff` says that the headers are read back as they were given exactly if none of the
texts has a line break in it.
-/

set_option autoImplicit false

namespace EventBus.Analysis

open EventBus.Lib.HeaderBlock EventBus.Model EventBus.Interface

variable {U E : Type} [UuidCrate U]

/-- The three ways in which processing fails for good. -/
inductive Terminal where
  | poison
  | exhausted
  | permanent

namespace Terminal

def failureReason : Terminal → String
  | .poison => reasonInvalidPayload
  | .exhausted => reasonMaxRetriesExceeded
  | .permanent => reasonHandlerPermanent

def failureClass : Terminal → String
  | .poison => classPoison
  | .exhausted => classTransientExhausted
  | .permanent => classPermanent

/-- The failure `process_message` hands over, with the text of the error.
SRC: subscriber.rs:434-441, subscriber.rs:488-495, subscriber.rs:511-518 -/
def failure (terminal : Terminal) (msgId : MessageId U) (info : Info) (detail : String) :
    TerminalFailure U where
  msgId := msgId
  streamSequence := info.streamSequence
  delivered := asU64 info.delivered
  failureReason := terminal.failureReason
  failureClass := terminal.failureClass
  failureDetail := detail

/-- The failure for good that a result of the handler is, with its text. -/
def ofResult (options : ProcessingOptions) (info : Info) :
    Except HandlerError Unit → Option (Terminal × String)
  | .ok () => none
  | .error (.transient reason) =>
    if isFinalAttempt options info then some (.exhausted, reason) else none
  | .error (.permanent reason) => some (.permanent, reason)

end Terminal

/-- A failed message, with what its dead letter is made of. -/
structure Failed (U : Type) where
  terminal : Terminal
  options : ProcessingOptions
  msg : Message
  info : Info
  msgId : MessageId U
  detail : String
  /-- The clock, in seconds. -/
  failedAt : ℕ

namespace Failed

variable (f : Failed U)

/-- The headers of its dead letter.
SRC: subscriber.rs:537-548, dlq.rs:199-204 -/
def headers : HeaderMap :=
  buildDlqHeaders ((f.terminal.failure f.msgId f.info f.detail).info f.options f.msg)
    (toString f.failedAt)

end Failed

/-! ## The block -/

/-- The version line. -/
def version : List Char := "NATS/1.0".toList

/-- The headers as they are written. -/
def wire (headers : HeaderMap) : List (List Char × List Char) :=
  headers.map fun h => (h.1.toList, h.2.toList)

/-- The headers, written and read, are those that were written, up to the blanks around a
value. -/
def Survives (headers : HeaderMap) : Prop :=
  decode (encode version (wire headers)) = some ((wire headers).map trimmed)

instance (headers : HeaderMap) : Decidable (Survives headers) :=
  inferInstanceAs (Decidable (_ = _))

/-- INTERNAL: headers survive exactly if their values are one line each. -/
theorem survives_iff_values {headers : HeaderMap} (hnames : ∀ h ∈ headers, IsName h.1.toList) :
    Survives headers ↔ ∀ h ∈ headers, ¬ HasBreak h.2.toList := by
  unfold Survives
  rw [decode_encode_iff (by decide)]
  · simp only [wire, List.forall_mem_map]
  · simpa only [wire, List.forall_mem_map] using hnames

/-- None of the texts that go into a dead letter has a line break in it. -/
structure OneLine (f : Failed U) : Prop where
  subject : ¬ HasBreak f.msg.subject.toList
  source : ¬ HasBreak f.options.source.toList
  durable : ¬ HasBreak f.options.durable.toList
  msgId : ¬ HasBreak f.msgId.toString.toList
  detail : ¬ HasBreak f.detail.toList

/-- INTERNAL: a number is one line. -/
theorem not_hasBreak_toString (n : ℕ) : ¬ HasBreak (toString n).toList := by
  intro h
  have hreturn : '\r' ∈ (toString n).toList := h.subset List.mem_cons_self
  have hdigit := Nat.isDigit_of_mem_toDigits (b := 10) (by omega) (by omega)
    (by rw [← Nat.toList_repr]; exact hreturn)
  exact absurd hdigit (by decide)

/-- INTERNAL: the id of a dead letter is made of its names and its numbers. -/
theorem not_hasBreak_dedupId {info : FailureInfo} (hstream : ¬ HasBreak info.originalStream.toList)
    (hconsumer : ¬ HasBreak info.consumer.toList) : ¬ HasBreak info.dedupId.toList := by
  have hcolon : (":" : String).toList = [':'] := rfl
  intro h
  simp only [FailureInfo.dedupId, String.toList_append, hcolon, List.append_assoc,
    List.singleton_append] at h
  rcases h.of_append_cons (by decide) with h | h
  · exact hstream h
  rcases h.of_append_cons (by decide) with h | h
  · exact not_hasBreak_toString _ h
  rcases h.of_append_cons (by decide) with h | h
  · exact hconsumer h
  · exact not_hasBreak_toString _ h

/-- INTERNAL: the names of the headers are names.
SRC: dlq.rs:113-139 -/
theorem isName_headers (f : Failed U) : ∀ h ∈ f.headers, IsName h.1.toList := by
  have hnames : ∀ name ∈ f.headers.map Prod.fst, IsName name.toList := by
    rw [Failed.headers, buildDlqHeaders_eq]
    simp only [List.map_cons, List.map_nil, List.forall_mem_cons]
    refine ⟨?_, ?_, ?_, ?_, ?_, ?_, ?_, ?_, ?_, ?_, ?_, ?_⟩
    all_goals first | exact ⟨by decide, by decide⟩ | exact fun _ h => absurd h List.not_mem_nil
  intro h hmem
  exact hnames h.1 (List.mem_map_of_mem hmem)

/-- INTERNAL: the values of a dead letter's headers. -/
theorem values_iff (f : Failed U) :
    (∀ h ∈ f.headers, ¬ HasBreak h.2.toList) ↔ OneLine f := by
  rw [Failed.headers, buildDlqHeaders_eq]
  simp only [List.forall_mem_cons]
  constructor
  · rintro ⟨-, hsubject, hstream, -, hmsgId, -, -, hdetail, -, hconsumer, -, -⟩
    exact ⟨hsubject, hstream, hconsumer, hmsgId, hdetail⟩
  · intro h
    refine ⟨not_hasBreak_dedupId h.source h.durable, h.subject, h.source,
      not_hasBreak_toString _, h.msgId, ?_, ?_, h.detail, not_hasBreak_toString _, h.durable,
      not_hasBreak_toString _, fun _ hnil => absurd hnil List.not_mem_nil⟩
    · show ¬ HasBreak f.terminal.failureReason.toList
      cases f.terminal <;> decide
    · show ¬ HasBreak f.terminal.failureClass.toList
      cases f.terminal <;> decide

/-- INTERNAL: the headers of a dead letter, in whatever order they are written. -/
theorem survives_of_perm (f : Failed U) {order : HeaderMap} (horder : order.Perm f.headers) :
    Survives order ↔ OneLine f := by
  rw [survives_iff_values, ← values_iff]
  · constructor
    · intro h header hmem
      exact h header (horder.mem_iff.mpr hmem)
    · intro h header hmem
      exact h header (horder.mem_iff.mp hmem)
  · intro header hmem
    exact isName_headers f header (horder.mem_iff.mp hmem)

/-- **The headers of a dead letter survive exactly if its texts are one line each**, in
whatever order they are written.
SRC: dlq.rs:113-139 -/
theorem survives_iff (f : Failed U) {order : HeaderMap} (horder : order.Perm f.headers) :
    Survives order ↔ OneLine f :=
  survives_of_perm f horder

/-! ## One failure of each kind -/

/-- A message whose handler fails for good with a text of its own. -/
def rejected (detail : String) : Failed HyphenatedUuid where
  terminal := .permanent
  options :=
    { dlqOpts := some {}
      source := "EVENTS"
      durable := "billing"
      maxDeliver := 5
      backoff := [] }
  msg :=
    { subject := "orders.created"
      headers := none
      payload := []
      info := .ok ⟨7, 1⟩ }
  info := ⟨7, 1⟩
  msgId := ⟨"00000000-0000-0000-0000-000000000000", isHyphenated_nil⟩
  detail := detail
  failedAt := 1700000000

/-- A text of one line, with what could be taken for a header in it. -/
theorem survives_one_line : Survives (rejected "card declined: X-Retry-Count: 9").headers := by
  apply (survives_iff (rejected _) (List.Perm.refl _)).mpr
  constructor <;> decide

/-- A text of two lines, the second of which is taken for a header: the dead letter says that
it has been delivered nine times, and in a twelfth header. -/
theorem survives_not_two_lines :
    ¬ Survives (rejected "card declined\r\nX-Retry-Count: 9").headers ∧
      (decode (encode version (wire (rejected "card declined\r\nX-Retry-Count: 9").headers))).map
        (fun hs => hs.filter fun h => h.1 = hdrRetryCount.toList) =
        some [(hdrRetryCount.toList, ['9']), (hdrRetryCount.toList, ['1'])] := by
  constructor <;> decide

end EventBus.Analysis
