import EventBus.Interface.DeadLetterIds
import EventBus.Lib.Topic

/-!
# What the key of a message says about it

A worker claims a message under the id in its header, or else under one that it hashes from
the stream, the durable and the sequence number.  Two messages with one header should have one
key, two without should have one exactly if they are the same message, and any other two should
have one only if they are.

`identifies_iff` says for which pairs that is so.  A header that is no UUID is left aside, and
the names are joined by a colon, which may occur in them.
-/

set_option autoImplicit false

namespace EventBus.Analysis

open EventBus.Lib EventBus.Model EventBus.Interface

/-- A message as a worker of a subscription is given it. -/
structure Received where
  options : ProcessingOptions
  msg : Message
  info : Info

namespace Received

variable {U : Type} [UuidCrate U] (r r' : Received)

/-- The `Nats-Msg-Id` header. -/
def header : Option String := r.msg.headers.bind fun h => h.get hdrNatsMsgId

/-- The id in the header, if it is a UUID. -/
def published (U : Type) [UuidCrate U] : Option (MessageId U) := r.header.bind MessageId.fromStr

/-- The stream and the durable. -/
def consumer : String × String := (r.options.source, r.options.durable)

/-- The key under which the message is claimed. -/
def key (U : Type) [UuidCrate U] : MessageId U := messageId r.options r.msg r.info

/-- The name that is hashed.
SRC: subscriber.rs:122-131 -/
def fallbackName : String :=
  r.options.source ++ ":" ++ r.options.durable ++ ":" ++ toString r.info.streamSequence

/-- Stream, durable and sequence number are all equal. -/
def SameSource : Prop :=
  r.consumer = r'.consumer ∧ r.info.streamSequence = r'.info.streamSequence

/-- Stream and durable are told apart only by which colon is between them, and the sequence
numbers are equal. -/
def Confusable : Prop :=
  (Regrouped ":" r.consumer r'.consumer ∨ Regrouped ":" r'.consumer r.consumer) ∧
    r.info.streamSequence = r'.info.streamSequence

/-- The keys of two messages are equal when they should be, and only then. -/
structure Identifies (U : Type) [UuidCrate U] : Prop where
  ofHeader : ∀ h, r.header = some h → r'.header = some h → r.key U = r'.key U
  ofSource : r.header = none → r'.header = none → (r.key U = r'.key U ↔ r.SameSource r')
  /-- Neither is taken for a duplicate of the other. -/
  ofOther : r.header ≠ r'.header → r.key U = r'.key U → r.SameSource r'

/-- A header the two have in common is a UUID, unless they hash the same name, and two
messages without a header are not confusable; nor are two whose headers differ, if neither is a
UUID, and if both are the same one, the messages are the same. -/
structure Distinguishable (U : Type) [UuidCrate U] : Prop where
  parses : ∀ h, r.header = some h → r'.header = some h →
    (MessageId.fromStr (U := U) h).isSome ∨ r.SameSource r' ∨ r.Confusable r'
  notConfusable : r.header = none → r'.header = none → ¬ r.Confusable r'
  notHashed : r.header ≠ r'.header → r.published U = none → r'.published U = none →
    ¬ r.Confusable r'
  notShared : ∀ id, r.header ≠ r'.header → r.published U = some id → r'.published U = some id →
    r.SameSource r'

/-- The assumption on the hash: it tells the two names apart, and gives neither of them an id
under which the other message is published. -/
structure HashApart (U : Type) [UuidCrate U] : Prop where
  names : UuidCrate.newV5 (U := U) r.fallbackName = UuidCrate.newV5 r'.fallbackName →
    r.fallbackName = r'.fallbackName
  fresh : r.published U ≠ some ⟨UuidCrate.newV5 r'.fallbackName⟩
  fresh' : r'.published U ≠ some ⟨UuidCrate.newV5 r.fallbackName⟩

/-! ## The hashed name -/

/-- INTERNAL: the sequence number has no colon, so the last colon is the one before it. -/
theorem join_seq_iff {names names' : String} {seq seq' : ℕ} :
    names ++ ":" ++ toString seq = names' ++ ":" ++ toString seq' ↔
      names = names' ∧ seq = seq' := by
  constructor
  · intro h
    rcases (join_eq_iff (c := ':') rfl (names, toString seq) (names', toString seq')).mp h with
      hsame | hmoved | hmoved
    · obtain ⟨hnames, hseq⟩ := Prod.mk.inj hsame
      exact ⟨hnames, toString_nat_injective hseq⟩
    · obtain ⟨m, -, hseq⟩ := (regrouped_iff (c := ':') rfl _ _).mp hmoved
      have hcolon : ':' ∈ (toString seq).toList := by
        rw [show (toString seq).toList = _ from hseq]
        exact List.mem_append_right _ List.mem_cons_self
      exact absurd hcolon (colon_notMem_toString seq)
    · obtain ⟨m, -, hseq⟩ := (regrouped_iff (c := ':') rfl _ _).mp hmoved
      have hcolon : ':' ∈ (toString seq').toList := by
        rw [show (toString seq').toList = _ from hseq]
        exact List.mem_append_right _ List.mem_cons_self
      exact absurd hcolon (colon_notMem_toString seq')
  · rintro ⟨rfl, rfl⟩
    rfl

/-- INTERNAL: the names that are hashed are equal for one source, and for confusable ones. -/
theorem fallbackName_eq_iff :
    r.fallbackName = r'.fallbackName ↔ r.SameSource r' ∨ r.Confusable r' := by
  have hconsumer := join_eq_iff (show (":" : String).toList = [':'] from rfl) r.consumer r'.consumer
  unfold fallbackName
  rw [join_seq_iff]
  exact (and_congr_left' hconsumer).trans or_and_right

/-- INTERNAL: confusable messages have different sources. -/
theorem Confusable.not_sameSource {r r' : Received} (h : r.Confusable r') : ¬ r.SameSource r' := by
  intro hsame
  rcases h.1 with hmoved | hmoved
  · exact hmoved.ne (by decide) hsame.1
  · exact hmoved.ne (by decide) hsame.1.symm

/-- INTERNAL: the key is the published id, else the hashed one.
SRC: subscriber.rs:379-396 -/
theorem key_eq : r.key U = (r.published U).getD ⟨UuidCrate.newV5 r.fallbackName⟩ := rfl

/-- INTERNAL: a header is published as the id it parses to. -/
theorem published_of_header {h : String} (hheader : r.header = some h) :
    r.published U = MessageId.fromStr h := by
  rw [published, hheader, Option.bind_some]

/-- INTERNAL: nothing is published without a header. -/
theorem published_of_none (hheader : r.header = none) : r.published U = none := by
  rw [published, hheader, Option.bind_none]

/-! ## Equal keys -/

section

variable {r r'} (hapart : r.HashApart r' U)

include hapart

/-- INTERNAL: hashed keys are equal exactly if the names are. -/
theorem hashed_eq_iff (h : r.published U = none) (h' : r'.published U = none) :
    r.key U = r'.key U ↔ r.SameSource r' ∨ r.Confusable r' := by
  rw [key_eq, key_eq, h, h', Option.getD_none, Option.getD_none, ← fallbackName_eq_iff]
  constructor
  · intro hkey
    exact hapart.names (congrArg MessageId.uuid hkey)
  · intro hname
    rw [hname]

/-- INTERNAL: equal keys are both published or both hashed. -/
theorem key_eq_cases (hkey : r.key U = r'.key U) :
    (∃ id, r.published U = some id ∧ r'.published U = some id) ∨
      (r.published U = none ∧ r'.published U = none) := by
  rw [key_eq, key_eq] at hkey
  cases hid : r.published U with
  | some id =>
    cases hid' : r'.published U with
    | some id' =>
      rw [hid, hid'] at hkey
      exact .inl ⟨id, rfl, congrArg some hkey.symm⟩
    | none =>
      rw [hid, hid'] at hkey
      exact absurd (hid.trans (congrArg some hkey)) hapart.fresh
  | none =>
    cases hid' : r'.published U with
    | some id' =>
      rw [hid, hid'] at hkey
      exact absurd (hid'.trans (congrArg some hkey.symm)) hapart.fresh'
    | none => exact .inr ⟨rfl, rfl⟩

/-- INTERNAL: what the keys of two messages say when they identify them. -/
theorem distinguishable_of_identifies (h : r.Identifies r' U) : r.Distinguishable r' U where
  parses value hheader hheader' := by
    cases hid : MessageId.fromStr (U := U) value with
    | some id => exact .inl rfl
    | none =>
      right
      apply (hashed_eq_iff (U := U) hapart _ _).mp (h.ofHeader value hheader hheader')
      · rw [published_of_header r hheader, hid]
      · rw [published_of_header r' hheader', hid]
  notConfusable hheader hheader' hconfusable := by
    have hkey : r.key U = r'.key U := by
      apply (hashed_eq_iff hapart _ _).mpr (.inr hconfusable)
      · exact published_of_none r hheader
      · exact published_of_none r' hheader'
    exact hconfusable.not_sameSource ((h.ofSource hheader hheader').mp hkey)
  notHashed hne hid hid' hconfusable :=
    hconfusable.not_sameSource
      (h.ofOther hne ((hashed_eq_iff hapart hid hid').mpr (.inr hconfusable)))
  notShared id hne hid hid' := by
    apply h.ofOther hne
    rw [key_eq, key_eq, hid, hid', Option.getD_some, Option.getD_some]

/-- INTERNAL: distinguishable messages are identified by their keys. -/
theorem identifies_of_distinguishable (h : r.Distinguishable r' U) : r.Identifies r' U where
  ofHeader value hheader hheader' := by
    have hid := published_of_header (U := U) r hheader
    have hid' := published_of_header (U := U) r' hheader'
    cases hparse : MessageId.fromStr (U := U) value with
    | some id => rw [key_eq, key_eq, hid, hid', hparse, Option.getD_some, Option.getD_some]
    | none =>
      have hnot := h.parses value hheader hheader'
      rw [hparse] at hnot hid hid'
      exact (hashed_eq_iff hapart hid hid').mpr (hnot.resolve_left Bool.false_ne_true)
  ofSource hheader hheader' := by
    rw [hashed_eq_iff hapart (published_of_none r hheader) (published_of_none r' hheader')]
    constructor
    · intro hsame
      exact hsame.resolve_right (h.notConfusable hheader hheader')
    · exact .inl
  ofOther hne hkey := by
    rcases key_eq_cases hapart hkey with ⟨id, hid, hid'⟩ | ⟨hid, hid'⟩
    · exact h.notShared id hne hid hid'
    · have hname := (hashed_eq_iff hapart hid hid').mp hkey
      exact hname.resolve_right (h.notHashed hne hid hid')

/-- **The keys of two messages identify them exactly if they are distinguishable**, for a
hash that tells their names apart and from published ids.
SRC: subscriber.rs:122-131, subscriber.rs:379-396 -/
theorem identifies_iff : r.Identifies r' U ↔ r.Distinguishable r' U :=
  ⟨distinguishable_of_identifies hapart, identifies_of_distinguishable hapart⟩

end

/-! ## Messages of one server -/

/-- UUIDs whose hash is right on the names below. -/
def NamedUuid : Type := HyphenatedUuid

instance : DecidableEq NamedUuid := inferInstanceAs (DecidableEq HyphenatedUuid)

def v5OfName (name : String) : NamedUuid :=
  if name = "EVENTS:billing:7" then ⟨"cb86b326-53da-5925-acaa-ed99d716dbc1", by decide⟩
  else if name = "EVENTS:billing:8" then ⟨"7cb94a23-8bfb-5820-adc2-855c5e2f536d", by decide⟩
  else if name = "EVENTS:eu:billing:7" then ⟨"75900a70-5409-5d5d-8a28-d1b182518b44", by decide⟩
  else ⟨"00000000-0000-0000-0000-000000000000", isHyphenated_nil⟩

instance : UuidCrate NamedUuid where
  parseStr := UuidCrate.parseStr (U := HyphenatedUuid)
  newV5 := v5OfName
  toStr := UuidCrate.toStr (U := HyphenatedUuid)
  toStr_injective := UuidCrate.toStr_injective (U := HyphenatedUuid)

/-- A message with these headers, at this place in the stream. -/
def received (stream durable : String) (seq : ℕ) (headers : Option HeaderMap) : Received where
  options :=
    { dlqOpts := none
      source := stream
      durable := durable
      maxDeliver := 5
      backoff := [] }
  msg :=
    { subject := "orders.created"
      headers := headers
      payload := []
      info := .ok ⟨seq, 1⟩ }
  info := ⟨seq, 1⟩

/-- Two messages of one stream without a header, a message with an id and one without, and a
message that is published twice under one id. -/
theorem identifies_two_seqs :
    (received "EVENTS" "billing" 7 none).Identifies (received "EVENTS" "billing" 8 none)
        NamedUuid ∧
      (received "EVENTS" "billing" 7
        (some [(hdrNatsMsgId, "6ba7b810-9dad-11d1-80b4-00c04fd430c8")])).Identifies
        (received "EVENTS:eu" "billing" 7 none) NamedUuid ∧
      (received "EVENTS" "billing" 7
        (some [(hdrNatsMsgId, "6ba7b810-9dad-11d1-80b4-00c04fd430c8")])).Identifies
        (received "EVENTS" "billing" 8
          (some [(hdrNatsMsgId, "6ba7b810-9dad-11d1-80b4-00c04fd430c8")])) NamedUuid := by
  refine ⟨?_, ?_, ?_⟩
  · apply (identifies_iff ⟨by decide, by decide, by decide⟩).mpr
    constructor
    · intro h hheader
      cases hheader
    · rintro - - ⟨-, hseq⟩
      cases hseq
    · exact fun hne => absurd rfl hne
    · exact fun id hne => absurd rfl hne
  · apply (identifies_iff ⟨by decide, by decide, by decide⟩).mpr
    constructor
    · intro h _ hheader
      cases hheader
    · intro hheader
      cases hheader
    · intro _ hid
      exact absurd hid (by decide)
    · intro id _ _ hid
      cases hid
  · apply (identifies_iff ⟨by decide, by decide, by decide⟩).mpr
    constructor
    · intro h hheader _
      obtain rfl := Option.some.inj hheader
      exact .inl (by decide)
    · intro hheader
      cases hheader
    · exact fun hne => absurd rfl hne
    · exact fun id hne => absurd rfl hne

/-- The streams `EVENTS` and `EVENTS:eu` share the keys of messages without a header, or with
headers that are no UUIDs, and a message that is published twice under such a header has two
keys. -/
theorem keys_of_shared_names :
    (let r := received "EVENTS:eu" "billing" 7 none
     let r' := received "EVENTS" "eu:billing" 7 none
     (∀ name ∈ ["EVENTS:eu", "billing", "EVENTS", "eu:billing"], Topic.admits name = true) ∧
       r.key NamedUuid = r'.key NamedUuid ∧ ¬ r.SameSource r') ∧
    (let r := received "EVENTS" "billing" 7 (some [(hdrNatsMsgId, "order-1")])
     let r' := received "EVENTS" "billing" 8 (some [(hdrNatsMsgId, "order-1")])
     r.header = some "order-1" ∧ r'.header = some "order-1" ∧
       r.key NamedUuid ≠ r'.key NamedUuid) ∧
    (let r := received "EVENTS:eu" "billing" 7 (some [(hdrNatsMsgId, "order-1")])
     let r' := received "EVENTS" "eu:billing" 7 (some [(hdrNatsMsgId, "order-2")])
     r.header ≠ r'.header ∧ r.key NamedUuid = r'.key NamedUuid ∧ ¬ r.SameSource r') := by
  have hother : ∀ headers headers' : Option HeaderMap,
      ¬ (received "EVENTS:eu" "billing" 7 headers).SameSource
        (received "EVENTS" "eu:billing" 7 headers') := by
    rintro headers headers' ⟨hconsumer, -⟩
    have hstream : ("EVENTS:eu" : String) = "EVENTS" := congrArg Prod.fst hconsumer
    exact absurd hstream (by decide)
  refine ⟨⟨by decide, by decide, hother _ _⟩, ⟨by decide, by decide, by decide⟩, by decide,
    by decide, hother _ _⟩

end Received

end EventBus.Analysis
