import EventBus.Analysis.BatchRetry
import EventBus.Model.EventFlow

/-!
# What publishers keep to

Any number of publishers publish to one stream, their events and ids as they please.
`publisherRules` is the protocol they share: a publisher only publishes events that it was asked
for, each with its own id and subject, and an acknowledgement names a message that the stream has.
So a publisher that has returned `Ok` has a truthful receipt for each of its events
(`publishJob_obeys`).
-/

set_option autoImplicit false

namespace EventBus.Analysis

open EventBus.Model EventBus.Lib

variable {U E : Type} [UuidCrate U] {T : EventTrait U E}

/-! ## Messages and receipts -/

/-- The message of an event. -/
def StoredMessage.isOf (T : EventTrait U E) (m : StoredMessage) (e : E) : Prop :=
  m.subject = T.subject e ∧ m.headers = HeaderMap.insert [] hdrNatsMsgId (T.msgId e) ∧
    T.toVec e = .ok m.payload

/-- The call that publishes one of the events. -/
def Publishes (T : EventTrait U E) (events : List E) (c : PublishWithHeaders) : Prop :=
  ∃ e ∈ events, T.subject e = c.subject ∧
    c.headers = HeaderMap.insert [] hdrNatsMsgId (T.msgId e) ∧ T.toVec e = .ok c.payload

/-- INTERNAL: what publishes one of some events publishes one of more. -/
theorem Publishes.mono {events events' : List E} {c : PublishWithHeaders}
    (hevents : events ⊆ events') (h : Publishes T events c) : Publishes T events' c := by
  obtain ⟨e, he, hc⟩ := h
  exact ⟨e, hevents he, hc⟩

/-- The receipt names a message of the stream with the id of the event, and the message of the
event itself unless it is marked as a duplicate. -/
def Truthful (T : EventTrait U E) (s : EventStream) (event : E) (receipt : PubReceipt) : Prop :=
  receipt.stream = s.name ∧ ∃ m ∈ s.messages, m.sequence = receipt.sequence ∧
    m.msgId = some (T.msgId event) ∧ (receipt.duplicate = false → StoredMessage.isOf T m event)

/-- INTERNAL: a true receipt stays true while the stream grows. -/
theorem Truthful.mono {s s' : EventStream} (hmessages : s.messages ⊆ s'.messages)
    (hname : s.name = s'.name) {event : E} {receipt : PubReceipt}
    (h : Truthful T s event receipt) : Truthful T s' event receipt := by
  obtain ⟨hstream, m, hm, hrest⟩ := h
  exact ⟨hstream.trans hname, m, hmessages hm, hrest⟩

/-! ## The protocol -/

/-- Nothing is taken off the stream, and no request is forgotten. -/
def Publications.Grows (p p' : Publications E) : Prop :=
  p.stream.messages ⊆ p'.stream.messages ∧ p.asked ⊆ p'.asked ∧ p.stream.name = p'.stream.name

omit [UuidCrate U] in
/-- INTERNAL: a stream grows from itself. -/
theorem Publications.Grows.refl (p : Publications E) : Publications.Grows p p :=
  ⟨List.Subset.refl _, List.Subset.refl _, rfl⟩

omit [UuidCrate U] in
/-- INTERNAL: a stream that grows twice grows. -/
theorem Publications.Grows.trans {p p' p'' : Publications E} (h : Publications.Grows p p')
    (h' : Publications.Grows p' p'') : Publications.Grows p p'' :=
  ⟨List.Subset.trans h.1 h'.1, List.Subset.trans h.2.1 h'.2.1, h.2.2.trans h'.2.2⟩

/-- The acknowledgement names a message of the stream with the id of the call, and the message
of the call itself unless it is marked as a duplicate. -/
def Acknowledged (s : EventStream) (c : PublishWithHeaders) (ack : PubAck) : Prop :=
  ack.stream = s.name ∧ ∃ m ∈ s.messages, m.sequence = ack.sequence ∧
    m.msgId = c.headers.get hdrNatsMsgId ∧ (ack.duplicate = false →
      m.subject = c.subject ∧ m.headers = c.headers ∧ m.payload = c.payload)

/-- What the publishers of a stream keep to. -/
def publisherRules (T : EventTrait U E) : Protocol (publications E) where
  grows := Publications.Grows
  legal p _ c := Publishes T p.asked c
  told p _ c r := ∀ ack, r = .ok ack → Acknowledged p.stream c ack

section

omit [UuidCrate U]

variable {stream : EventStream} {c : PublishWithHeaders}

/-- INTERNAL: storing renames nothing. -/
theorem take_name : (stream.take c).name = stream.name := by
  unfold EventStream.take
  split <;> rfl

/-- INTERNAL: an acknowledgement is of what is stored. -/
theorem acknowledged_ack : Acknowledged (stream.take c) c (stream.ack c) := by
  cases h : stream.original c with
  | some m =>
    obtain ⟨id, hid, -⟩ := Option.bind_eq_some_iff.mp h
    obtain ⟨hm, hmid⟩ := of_original hid h
    rw [take_of_original h]
    simp only [EventStream.ack, h]
    exact ⟨rfl, m, hm, rfl, hmid.trans hid.symm, fun hnew => by cases hnew⟩
  | none =>
    rw [take_of_new h]
    simp only [EventStream.ack, h]
    exact ⟨rfl, stream.stored c, List.mem_append_right _ List.mem_cons_self, rfl, rfl,
      fun _ => ⟨rfl, rfl, rfl⟩⟩

end

/-- **The stream upholds the protocol**, and with it whatever else is kept of stream and
requests. -/
theorem publisherRules_upheld {I : Publications E → Prop}
    (hasked : ∀ (p : Publications E) events, I p → I { p with asked := events ++ p.asked })
    (htake : ∀ (p : Publications E) c, I p → Publishes T p.asked c →
      I { p with stream := p.stream.take c })
    (helapse : ∀ (p : Publications E) elapsed, I p →
      I { p with stream := { p.stream with now := p.stream.now + elapsed } }) :
    (publisherRules T).Upheld I fun _ _ => True where
  refl := Publications.Grows.refl
  trans := Publications.Grows.trans
  legal_stable hgrows hc := hc.mono hgrows.2.1
  enlist _ job p hp _ :=
    ⟨⟨List.Subset.refl _, List.subset_append_right .., rfl⟩, hasked p job.events hp⟩
  reach _ _ _ p hp _ := ⟨Publications.Grows.refl p, hp⟩
  effect _ _ _ c _ p hp hc :=
    ⟨⟨messages_take.subset, List.Subset.refl _, take_name.symm⟩, htake p c hp hc⟩
  answer _ _ c _ p _ _ ack hack := by
    obtain rfl := Except.ok.inj hack
    exact acknowledged_ack
  failure _ _ _ _ r hr ack hack := by
    obtain rfl := Option.some.inj hr
    cases hack
  drift elapsed p hp := ⟨⟨List.Subset.refl _, List.Subset.refl _, rfl⟩, helapse p elapsed hp⟩

/-! ## The programs -/

variable {job : PublishJob E} {p : Publications E}

/-- INTERNAL: a publish obeys the rules and has a true receipt.
SRC: publisher.rs:26-50 -/
theorem publish_obeys {e : E} (he : e ∈ p.asked) : (publish T e).Obeys (publisherRules T) job
    (fun p result => ∀ receipt, result = .ok receipt → Truthful T p.stream e receipt) p := by
  unfold publish
  cases hpayload : T.toVec e with
  | error error => exact nofun
  | ok payload =>
    refine ⟨⟨e, he, rfl, rfl, hpayload⟩, fun p' r _ htold => ?_⟩
    cases r with
    | error error => exact nofun
    | ok ack =>
      rintro receipt heq
      obtain rfl := Except.ok.inj heq
      obtain ⟨hstream, m, hm, hsequence, hid, hown⟩ := htold ack rfl
      have hget : (HeaderMap.insert [] hdrNatsMsgId (T.msgId e)).get hdrNatsMsgId =
          some (T.msgId e) := by
        simp [HeaderMap.insert, HeaderMap.get]
      refine ⟨hstream, m, hm, hsequence, hid.trans hget, fun hnew => ?_⟩
      obtain ⟨hsubject, hheaders, hbody⟩ := hown hnew
      exact ⟨hsubject, hheaders, hbody ▸ hpayload⟩

/-- What a publisher returns with: if it is `Ok`, a truthful receipt for each event. -/
def ReturnsReceipts (T : EventTrait U E) (events : List E) (p : Publications E)
    (result : Except BusError (List PubReceipt)) : Prop :=
  ∀ receipts, result = .ok receipts → List.Forall₂ (Truthful T p.stream) events receipts

/-- INTERNAL: receipts that are returned stay true. -/
theorem ReturnsReceipts.stable {events : List E} {p' : Publications E}
    {result : Except BusError (List PubReceipt)} (hgrows : Publications.Grows p p')
    (h : ReturnsReceipts T events p result) : ReturnsReceipts T events p' result :=
  fun receipts hreceipts =>
    (h receipts hreceipts).imp fun _ _ hr => hr.mono hgrows.1 hgrows.2.2

/-- INTERNAL: the loop of a batch, with truthful receipts for the events that are done. -/
theorem publishRest_obeys {done rest : List E} (hrest : rest ⊆ p.asked)
    {receipts : List PubReceipt} (hreceipts : List.Forall₂ (Truthful T p.stream) done receipts) :
    (publishRest T receipts rest).Obeys (publisherRules T) job
      (ReturnsReceipts T (done ++ rest)) p := by
  induction rest generalizing p done receipts with
  | nil =>
    rintro receipts' heq
    obtain rfl := Except.ok.inj heq
    rw [List.append_nil]
    exact hreceipts
  | cons e rest ih =>
    obtain ⟨he, hrest⟩ := List.cons_subset.mp hrest
    refine ((publish_obeys he).framed Publications.Grows.trans (Publications.Grows.refl p)).bind
      fun p' result hresult => ?_
    obtain ⟨hgrows, htruthful⟩ := hresult
    cases result with
    | error error =>
      intro receipts' heq
      cases heq
    | ok receipt =>
      have hold : List.Forall₂ (Truthful T p'.stream) done receipts :=
        hreceipts.imp fun _ _ hr => hr.mono hgrows.1 hgrows.2.2
      have hnew : List.Forall₂ (Truthful T p'.stream) [e] [receipt] :=
        .cons (htruthful receipt rfl) .nil
      have hbefore := ih (List.Subset.trans hrest hgrows.2.1) (List.rel_append hold hnew)
      rw [List.append_assoc, List.singleton_append] at hbefore
      exact hbefore

/-- **A publisher keeps to the protocol and returns truthful receipts.** -/
theorem publishJob_obeys (hjob : job.events ⊆ p.asked) :
    (publishJob T job).Obeys (publisherRules T) job (ReturnsReceipts T job.events) p := by
  cases job with
  | batch events => exact publishRest_obeys hjob .nil
  | one e =>
    refine (publish_obeys (hjob List.mem_cons_self)).bind fun p' result hresult => ?_
    rintro receipts heq
    cases result with
    | error error => cases heq
    | ok receipt =>
      obtain rfl := Except.ok.inj heq
      exact .cons (hresult receipt rfl) .nil

end EventBus.Analysis
