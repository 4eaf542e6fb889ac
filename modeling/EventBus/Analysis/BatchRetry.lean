import Mathlib.Data.List.Forall2
import EventBus.Lib.Local
import EventBus.Model.Publisher

/-!
# Publishing a batch again

A batch that fails may have been published in part, and its caller can only publish all of it
again.  What makes that safe is an order: a publisher comes to an event only when it holds a
receipt for each one before it.  So whatever is on its way to the stream, the ids that the
stream has gained are those of a first part of the batch, each once and in the order in which
they first occur (`Gained`).

`batch_retry_safe` says what the stream and the receipts are once a call has returned `Ok`.  It
holds for calls side by side as well.
-/

set_option autoImplicit false

namespace EventBus.Analysis

open EventBus.Lib EventBus.Model

/-! ## First occurrences -/

section

variable {α : Type} [DecidableEq α] {as bs : List α}

/-- INTERNAL: repeating what is there adds nothing new. -/
theorem eraseDups_append_of_subset (h : ∀ b ∈ bs, b ∈ as) :
    (as ++ bs).eraseDups = as.eraseDups := by
  have hnone : bs.removeAll as = [] := by
    apply List.filter_eq_nil_iff.mpr
    intro b hb
    simpa using h b hb
  rw [List.eraseDups_append, hnone, List.eraseDups_nil, List.append_nil]

/-- INTERNAL: what is not there yet comes last. -/
theorem eraseDups_append_of_notMem {b : α} (h : b ∉ as) :
    (as ++ [b]).eraseDups = as.eraseDups ++ [b] := by
  have hone : [b].removeAll as = [b] := by
    apply List.filter_eq_self.mpr
    intro c hc
    obtain rfl := List.mem_singleton.mp hc
    simpa using h
  rw [List.eraseDups_append, hone]
  rfl

/-- INTERNAL: a first part with all that another one has is no other, up to repetitions. -/
theorem eraseDups_take_eq {k j : ℕ} (hkj : k ≤ j) (h : ∀ b ∈ as.take j, b ∈ as.take k) :
    (as.take j).eraseDups = (as.take k).eraseDups := by
  have hsplit : as.take j = as.take k ++ (as.take j).drop k := by
    have htake := List.take_append_drop k (as.take j)
    rw [List.take_take, Nat.min_eq_left hkj] at htake
    exact htake.symm
  rw [hsplit, eraseDups_append_of_subset]
  intro b hb
  exact h b (List.mem_of_mem_drop hb)

end

/-! ## What the stream has gained -/

/-- The ids of a batch that the stream has, in the order of its messages. -/
def gained (ids : List String) (s : EventStream) : List String :=
  (s.messages.filterMap StoredMessage.msgId).filter fun id => decide (id ∈ ids)

/-- INTERNAL: an id is gained when it is wanted and stored. -/
theorem mem_gained {ids : List String} {s : EventStream} {id : String} :
    id ∈ gained ids s ↔ id ∈ ids ∧ ∃ m ∈ s.messages, m.msgId = some id := by
  unfold gained
  rw [List.mem_filter, List.mem_filterMap, decide_eq_true_eq]
  exact and_comm

/-- A stream has kept what it had before a batch, gained ids of a first part of the batch,
each once and in order, and what it gained is young enough to be recognised. -/
structure Gained (ids : List String) (before s : EventStream) : Prop where
  kept : before.messages <+: s.messages
  window : s.duplicateWindow = before.duplicateWindow
  later : before.now ≤ s.now
  recent : ∀ m ∈ s.messages, ∀ id ∈ ids, m.msgId = some id → before.now ≤ m.storedAt
  order : s.now < before.now + before.duplicateWindow →
    ∃ k, gained ids s = (ids.take k).eraseDups

section

variable {ids : List String} {before s : EventStream} {c : PublishWithHeaders}

/-- INTERNAL: a duplicate is not stored. -/
theorem take_of_original {m : StoredMessage} (h : s.original c = some m) : s.take c = s := by
  unfold EventStream.take
  rw [h]

/-- INTERNAL: what is new is stored. -/
theorem take_of_new (h : s.original c = none) :
    s.take c = { s with
      lastSequence := s.lastSequence + 1
      messages := s.messages ++ [s.stored c] } := by
  unfold EventStream.take
  rw [h]

/-- INTERNAL: storing takes no time. -/
@[simp] theorem take_now : (s.take c).now = s.now := by
  unfold EventStream.take
  split <;> rfl

/-- INTERNAL: nothing is lost by it. -/
theorem messages_take : s.messages <+: (s.take c).messages := by
  cases h : s.original c with
  | some m =>
    have hsame := congrArg EventStream.messages (take_of_original h)
    exact hsame.symm ▸ List.prefix_refl s.messages
  | none =>
    rw [take_of_new h]
    exact List.prefix_append _ _

/-- INTERNAL: a duplicate has its original on the stream. -/
theorem of_original {m : StoredMessage} {id : String}
    (hid : c.headers.get hdrNatsMsgId = some id) (h : s.original c = some m) :
    m ∈ s.messages ∧ m.msgId = some id := by
  unfold EventStream.original at h
  rw [hid, Option.bind_some] at h
  have hfound := List.find?_some h
  simp only [Bool.and_eq_true, decide_eq_true_eq] at hfound
  exact ⟨List.mem_of_find?_eq_some h, hfound.1⟩

/-- INTERNAL: an id that is not recognised is not there. -/
theorem notMem_gained_of_new (hs : Gained ids before s) {id : String} (hmem : id ∈ ids)
    (hnow : s.now < before.now + before.duplicateWindow)
    (hid : c.headers.get hdrNatsMsgId = some id) (h : s.original c = none) :
    id ∉ gained ids s := by
  intro hgained
  obtain ⟨m, hm, hmid⟩ := (mem_gained.mp hgained).2
  unfold EventStream.original at h
  rw [hid, Option.bind_some] at h
  have hnot := List.find?_eq_none.mp h m hm
  have hrecent := hs.recent m hm id hmem hmid
  have hwindow : s.now < m.storedAt + s.duplicateWindow := by
    rw [hs.window]
    omega
  exact hnot (by simp only [hmid, decide_true, Bool.true_and, hwindow])

/-- INTERNAL: a new wanted message is gained. -/
theorem gained_take_new (h : s.original c = none) {id : String} (hmem : id ∈ ids)
    (hid : c.headers.get hdrNatsMsgId = some id) :
    gained ids (s.take c) = gained ids s ++ [id] := by
  have hmsgId : (s.stored c).msgId = some id := hid
  rw [take_of_new h]
  unfold gained
  rw [List.filterMap_append, List.filter_append]
  congr 1
  simp [hmsgId, hmem]

/-- INTERNAL: a foreign one is not. -/
theorem gained_take_foreign (hforeign : ∀ id ∈ ids, c.headers.get hdrNatsMsgId ≠ some id) :
    gained ids (s.take c) = gained ids s := by
  cases h : s.original c with
  | some m => rw [take_of_original h]
  | none =>
    rw [take_of_new h]
    unfold gained
    rw [List.filterMap_append, List.filter_append]
    have hnone : ([s.stored c].filterMap StoredMessage.msgId).filter
        (fun id => decide (id ∈ ids)) = [] := by
      apply List.filter_eq_nil_iff.mpr
      intro id hid hmem
      obtain ⟨m, hm, hmid⟩ := List.mem_filterMap.mp hid
      obtain rfl := List.mem_singleton.mp hm
      exact hforeign id (of_decide_eq_true hmem) hmid
    rw [hnone, List.append_nil]

/-- INTERNAL: a publish keeps what it leaves of the order. -/
theorem Gained.of_order (hs : Gained ids before s)
    (horder : s.now < before.now + before.duplicateWindow →
      ∃ k, gained ids (s.take c) = (ids.take k).eraseDups) : Gained ids before (s.take c) where
  kept := hs.kept.trans messages_take
  window := by
    rw [← hs.window]
    unfold EventStream.take
    split <;> rfl
  later := by
    rw [take_now]
    exact hs.later
  recent m hm id hid hmid := by
    cases h : s.original c with
    | some original =>
      rw [take_of_original h] at hm
      exact hs.recent m hm id hid hmid
    | none =>
      rw [take_of_new h] at hm
      rcases List.mem_append.mp hm with hold | hnew
      · exact hs.recent m hold id hid hmid
      · obtain rfl := List.mem_singleton.mp hnew
        exact hs.later
  order hnow := horder (by rwa [take_now] at hnow)

/-- INTERNAL: foreign publishes do not disturb a batch. -/
theorem Gained.foreign (hs : Gained ids before s)
    (hforeign : ∀ id ∈ ids, c.headers.get hdrNatsMsgId ≠ some id) :
    Gained ids before (s.take c) := by
  apply hs.of_order
  intro hnow
  rw [gained_take_foreign hforeign]
  exact hs.order hnow

/-- **A publish of an id whose predecessors are all there keeps the order.** -/
theorem Gained.take (hs : Gained ids before s) {done rest : List String} {id : String}
    (hids : ids = done ++ id :: rest) (hid : c.headers.get hdrNatsMsgId = some id)
    (hdone : ∀ d ∈ done, ∃ m ∈ s.messages, m.msgId = some d) :
    Gained ids before (s.take c) := by
  apply hs.of_order
  intro hnow
  have hmem : id ∈ ids := by
    rw [hids]
    exact List.mem_append_right _ List.mem_cons_self
  obtain ⟨k, hk⟩ := hs.order hnow
  cases h : s.original c with
  | some m =>
    rw [take_of_original h]
    exact ⟨k, hk⟩
  | none =>
    have hnew := notMem_gained_of_new hs hmem hnow hid h
    rw [hk, List.mem_eraseDups] at hnew
    have htake : ids.take done.length = done := by
      rw [hids, List.take_left']
      rfl
    -- the part that the stream has ends before this id
    have hkle : k ≤ done.length := by
      by_contra hlt
      apply hnew
      rw [hids, List.mem_take_iff_getElem]
      refine ⟨done.length, ?_, ?_⟩
      · simp only [List.length_append, List.length_cons]
        omega
      · simp
    have hall : ∀ d ∈ ids.take done.length, d ∈ ids.take k := by
      intro d hd
      have hd' : d ∈ gained ids s := by
        rw [htake] at hd
        refine mem_gained.mpr ⟨?_, hdone d hd⟩
        rw [hids]
        exact List.mem_append_left _ hd
      rw [hk, List.mem_eraseDups] at hd'
      exact hd'
    refine ⟨done.length + 1, ?_⟩
    have hnext : ids.take (done.length + 1) = ids.take done.length ++ [id] := by
      rw [htake, hids, List.take_append, List.take_of_length_le (Nat.le_succ _)]
      simp
    have hnot : id ∉ ids.take done.length := fun hin => hnew (hall id hin)
    rw [gained_take_new h hmem hid, hk, ← eraseDups_take_eq hkle hall, hnext,
      eraseDups_append_of_notMem hnot]

end

/-! ## The publishers -/

section

variable {U E : Type} [UuidCrate U] (T : EventTrait U E) (events : List E)

/-- A receipt carries the sequence at which the message with the id of its event is stored. -/
def Receipted (s : EventStream) (event : E) (receipt : PubReceipt) : Prop :=
  ∃ m ∈ s.messages, m.msgId = some (T.msgId event) ∧ receipt.sequence = m.sequence

/-- A publisher holds a receipt for each event before the one it is at, or has failed. -/
def PublisherAt (s : EventStream) (p : (publishers T events).Point) : Prop :=
  (∃ done rest receipts, events = done ++ rest ∧ p = publishRest T receipts rest ∧
      List.Forall₂ (Receipted T s) done receipts) ∨ ∃ e, p = .pure (.error e)

/-- A publish on its way is of an event whose predecessors are all stored. -/
def OnItsWay (s : EventStream) (c : PublishWithHeaders) : Prop :=
  ∃ done event rest, events = done ++ event :: rest ∧
    c.headers.get hdrNatsMsgId = some (T.msgId event) ∧
    ∀ d ∈ done, ∃ m ∈ s.messages, m.msgId = some (T.msgId d)

variable {T events}

/-- INTERNAL: a receipt stays good while the stream grows. -/
theorem Receipted.mono {s s' : EventStream} (h : s.messages <+: s'.messages) {event : E}
    {receipt : PubReceipt} (hr : Receipted T s event receipt) : Receipted T s' event receipt := by
  obtain ⟨m, hm, hrest⟩ := hr
  exact ⟨m, h.subset hm, hrest⟩

/-- INTERNAL: what has a receipt is stored. -/
theorem stored_of_receipted {s : EventStream} {done : List E} {receipts : List PubReceipt}
    (h : List.Forall₂ (Receipted T s) done receipts) :
    ∀ d ∈ done, ∃ m ∈ s.messages, m.msgId = some (T.msgId d) := by
  induction h with
  | nil => exact fun _ hd => absurd hd List.not_mem_nil
  | cons hr _ ih =>
    obtain ⟨m, hm, hid, -⟩ := hr
    exact List.forall_mem_cons.mpr ⟨⟨m, hm, hid⟩, ih⟩

/-- INTERNAL: a publisher is at the publish of its next event, or has returned. -/
theorem publishRest_cases (receipts : List PubReceipt) (rest : List E) :
    (rest = [] ∧ publishRest T receipts rest = .pure (.ok receipts)) ∨
      (∃ e, publishRest T receipts rest = .pure (.error e)) ∨
      ∃ event later payload, rest = event :: later ∧
        publishRest T receipts rest =
          .call ⟨T.subject event, [(hdrNatsMsgId, T.msgId event)], payload⟩ fun
            | .error e => .pure (.error (.publish e))
            | .ok ack =>
              publishRest T (receipts ++ [⟨ack.stream, ack.sequence, ack.duplicate⟩]) later := by
  cases rest with
  | nil => exact .inl ⟨rfl, rfl⟩
  | cons event later =>
    right
    cases hvec : T.toVec event with
    | error e =>
      left
      refine ⟨.serde e, ?_⟩
      simp only [publishRest, publish, hvec, Prog.pure_eq, Prog.pure_bind']
    | ok payload =>
      right
      refine ⟨event, later, payload, rfl, ?_⟩
      simp only [publishRest, publish, hvec, Prog.perform_bind, Prog.call_bind]
      congr 1
      funext r
      cases r <;> rfl

/-- INTERNAL: the call a publisher makes is of its next event. -/
theorem call_cases {s : EventStream} {p : (publishers T events).Point} {c : PublishWithHeaders}
    {k : c.Resp → (publishers T events).Point} (hp : PublisherAt T events s p)
    (hv : p.view = some ⟨c, k⟩) :
    ∃ done event later receipts, events = done ++ event :: later ∧
      c.headers.get hdrNatsMsgId = some (T.msgId event) ∧
      List.Forall₂ (Receipted T s) done receipts ∧
      (∀ e, k (.error e) = .pure (.error (.publish e))) ∧
      ∀ ack, k (.ok ack) =
        publishRest T (receipts ++ [⟨ack.stream, ack.sequence, ack.duplicate⟩]) later := by
  rcases hp with ⟨done, rest, receipts, hevents, rfl, hreceipts⟩ | ⟨e, rfl⟩
  · rcases publishRest_cases (T := T) receipts rest with
      ⟨-, hp⟩ | ⟨e, hp⟩ | ⟨event, later, payload, rfl, hp⟩
    · rw [hp] at hv
      cases hv
    · rw [hp] at hv
      cases hv
    · rw [hp, Prog.view_call] at hv
      cases hv
      exact ⟨done, event, later, receipts, hevents, rfl, hreceipts, fun _ => rfl, fun _ => rfl⟩
  · cases hv

/-- INTERNAL: an acknowledgement is a good receipt. -/
theorem receipted_take {s : EventStream} {c : PublishWithHeaders} {event : E}
    (hid : c.headers.get hdrNatsMsgId = some (T.msgId event)) :
    Receipted T (s.take c) event ⟨(s.ack c).stream, (s.ack c).sequence, (s.ack c).duplicate⟩ := by
  cases h : s.original c with
  | some m =>
    obtain ⟨hm, hmid⟩ := of_original hid h
    refine ⟨m, ?_, hmid, ?_⟩
    · rw [take_of_original h]
      exact hm
    · simp only [EventStream.ack, h]
  | none =>
    refine ⟨s.stored c, ?_, hid, ?_⟩
    · rw [take_of_new h]
      exact List.mem_append_right _ List.mem_cons_self
    · simp only [EventStream.ack, h, EventStream.stored]

/-- The invariant of the publishers of a batch. -/
def batch (T : EventTrait U E) (events : List E) (before : EventStream) :
    Local (publishers T events) where
  shared s := Gained (msgIds T events) before s
  site s _ p := PublisherAt T events s p
  underWay s _ c := OnItsWay T events s c

/-- INTERNAL: coming to a point does nothing. -/
theorem reachPoint_publishers (i : ℕ) (p : (publishers T events).Point) (s : EventStream) :
    reachPoint (publishers T events) i () p s = s := by
  unfold reachPoint
  split <;> rfl

/-- INTERNAL: every step keeps the invariant. -/
theorem batch_kept (before : EventStream) :
    (batch T events before).Kept (fun _ _ => True) (fun s s' => s.messages <+: s'.messages) where
  site_stable hgrows hp := by
    rcases hp with ⟨done, rest, receipts, hevents, rfl, hreceipts⟩ | he
    · exact .inl ⟨done, rest, receipts, hevents, rfl, hreceipts.imp fun _ _ h => h.mono hgrows⟩
    · exact .inr he
  underWay_stable hgrows hc := by
    obtain ⟨done, event, rest, hevents, hid, hdone⟩ := hc
    refine ⟨done, event, rest, hevents, hid, fun d hd => ?_⟩
    obtain ⟨m, hm, hmid⟩ := hdone d hd
    exact ⟨m, hgrows.subset hm, hmid⟩
  start i job s hs _ := by
    rw [reachPoint_publishers]
    exact ⟨List.prefix_refl _, hs, .inl ⟨[], events, [], rfl, rfl, .nil⟩⟩
  reach i job p s hs hp := by
    rw [reachPoint_publishers]
    exact ⟨List.prefix_refl _, hs⟩
  made hp hc := by
    obtain ⟨⟨c', k⟩, hv, rfl⟩ := Option.map_eq_some_iff.mp hc
    obtain ⟨done, event, later, receipts, hevents, hid, hreceipts, -, -⟩ := call_cases hp hv
    exact ⟨done, event, later, hevents, hid, stored_of_receipted hreceipts⟩
  effect seen i job c ch s hs hc := by
    obtain ⟨done, event, rest, hevents, hid, hdone⟩ := hc
    refine ⟨messages_take, ?_⟩
    have hids : msgIds T events = done.map T.msgId ++ T.msgId event :: rest.map T.msgId := by
      rw [msgIds, hevents, List.map_append, List.map_cons]
    apply Gained.take hs hids hid
    intro d hd
    obtain ⟨e, he, rfl⟩ := List.mem_map.mp hd
    exact hdone e he
  answered i job p c k ch s hs hp hv := by
    obtain ⟨done, event, later, receipts, hevents, hid, hreceipts, -, hok⟩ := call_cases hp hv
    refine .inl ⟨done ++ [event], later, receipts ++ [_], ?_, hok _, ?_⟩
    · rw [hevents, List.append_assoc, List.singleton_append]
    · have hold : List.Forall₂ (Receipted T (EventStream.take s c)) done receipts :=
        hreceipts.imp fun _ _ h => h.mono messages_take
      have hnew : List.Forall₂ (Receipted T (EventStream.take s c)) [event] [_] :=
        .cons (receipted_take hid) .nil
      exact List.rel_append hold hnew
  lost hs hp hlost := by
    cases hlost with
    | failed hv hr =>
      obtain ⟨done, event, later, receipts, -, -, -, herror, -⟩ := call_cases hp hv
      obtain rfl := Option.some.inj hr
      exact .inr ⟨_, herror _⟩
  drift e s hs := by
    cases e with
    | elapse elapsed =>
      refine ⟨List.prefix_refl _, hs.kept, hs.window, ?_, hs.recent, ?_⟩
      · exact Nat.le_trans hs.later (Nat.le_add_right _ _)
      · intro hnow
        exact hs.order (Nat.lt_of_le_of_lt (Nat.le_add_right _ _) hnow)
    | publish c hforeign => exact ⟨messages_take, hs.foreign hforeign⟩

/-- INTERNAL: a publisher that has returned `Ok` has a receipt for each event. -/
theorem receipts_of_returned {s : EventStream} {receipts : List PubReceipt}
    (h : PublisherAt T events s (.pure (.ok receipts))) :
    List.Forall₂ (Receipted T s) events receipts := by
  rcases h with ⟨done, rest, receipts', hevents, hp, hreceipts⟩ | ⟨e, he⟩
  · rcases publishRest_cases (T := T) receipts' rest with
      ⟨rfl, hcase⟩ | ⟨e, hcase⟩ | ⟨event, later, payload, rfl, hcase⟩
    · rw [hcase] at hp
      cases hp
      rw [hevents, List.append_nil]
      exact hreceipts
    · rw [hcase] at hp
      cases hp
    · rw [hcase] at hp
      cases hp
  · cases he

/-- INTERNAL: at first nothing is gained. -/
theorem Gained.initial {ids : List String} {before : EventStream}
    (h : ∀ m ∈ before.messages, ∀ id ∈ ids, m.msgId ≠ some id) : Gained ids before before where
  kept := List.prefix_refl _
  window := rfl
  later := Nat.le_refl _
  recent m hm id hid hmid := absurd hmid (h m hm id hid)
  order _ := by
    refine ⟨0, ?_⟩
    apply List.eq_nil_iff_forall_not_mem.mpr
    intro id hid
    obtain ⟨hmem, m, hm, hmid⟩ := mem_gained.mp hid
    exact h m hm id hmem hmid

/-- INTERNAL: once all ids are there, the first part is the whole batch. -/
theorem gained_eq_of_all {ids : List String} {before s : EventStream} (hs : Gained ids before s)
    (hnow : s.now < before.now + before.duplicateWindow)
    (hall : ∀ id ∈ ids, ∃ m ∈ s.messages, m.msgId = some id) : gained ids s = ids.eraseDups := by
  obtain ⟨k, hk⟩ := hs.order hnow
  rw [hk]
  rcases Nat.le_total k ids.length with hle | hge
  · have hsub : ∀ id ∈ ids.take ids.length, id ∈ ids.take k := by
      intro id hid
      rw [List.take_length] at hid
      have hgained := mem_gained.mpr ⟨hid, hall id hid⟩
      rw [hk, List.mem_eraseDups] at hgained
      exact hgained
    have heq := eraseDups_take_eq hle hsub
    rw [List.take_length] at heq
    exact heq.symm
  · rw [List.take_of_length_le hge]

/-- **Retrying a batch is safe.**  However the publishers of a batch fail, and whatever becomes
of their publishes, once one of them has returned `Ok` within the duplicate window the stream
has gained one message for each id, in the order of first occurrence, and the receipts carry
the sequences of these messages, one for each event. -/
theorem batch_retry_safe {before : EventStream} {as : List (Action (publishing T events))}
    {s : State (publishing T events) (publishers T events).Point}
    (hrun : run (step (publishers T events)) (fresh (publishers T events) before) as = some s)
    (hunused : ∀ m ∈ before.messages, ∀ id ∈ msgIds T events, m.msgId ≠ some id)
    (hwindow : s.shared.now < before.now + before.duplicateWindow) {i : ℕ}
    {receipts : List PubReceipt} (hok : s.sites i = some ((), .pure (.ok receipts))) :
    before.messages <+: s.shared.messages ∧
      gained (msgIds T events) s.shared = (msgIds T events).eraseDups ∧
      List.Forall₂ (Receipted T s.shared) events receipts := by
  have hholds : (batch T events before).Holds s := by
    have hstep : ∀ s a s', step (publishers T events) s a = some s' →
        (batch T events before).Holds s → (batch T events before).Holds s' :=
      fun s a s' h hs => (batch_kept before).step h (fun _ _ _ => trivial) hs
    exact (always_of_step hstep (.fresh (Gained.initial hunused))).last hrun
  have hreceipts := receipts_of_returned (hholds.sites i () _ hok)
  refine ⟨hholds.shared.kept, ?_, hreceipts⟩
  apply gained_eq_of_all hholds.shared hwindow
  intro id hid
  obtain ⟨event, hevent, rfl⟩ := List.mem_map.mp hid
  exact stored_of_receipted hreceipts event hevent

end

/-! ## A batch that repeats an id -/

/-- Events that are named by their id alone. -/
def namedEvents : EventTrait HyphenatedUuid HyphenatedUuid where
  subject _ := "orders.created"
  messageId id := ⟨id⟩
  toVec _ := .ok []

def firstId : HyphenatedUuid := ⟨"0190a6e4-0000-7000-8000-000000000001", by decide⟩

def secondId : HyphenatedUuid := ⟨"0190a6e4-0000-7000-8000-000000000002", by decide⟩

def emptyStream : EventStream where
  name := "EVENTS"
  duplicateWindow := 120000
  now := 0
  lastSequence := 0
  messages := []

/-- The first call stores its first event and is told that it failed; the second call returns
`Ok`. -/
def failThenRetry : List (Action (publishing namedEvents [firstId, secondId, firstId])) :=
  [.spawn 0 (), .fail 0 .served () "timed out", .resume 0, .spawn 1 (), .serve 1 (), .resume 1,
    .serve 1 (), .resume 1, .serve 1 (), .resume 1]

/-- INTERNAL: the result on a batch with a repeated id that fails once and is retried. -/
theorem batch_retry_safe_repeated :
    ∃ s, run (step (publishers namedEvents [firstId, secondId, firstId]))
        (fresh (publishers namedEvents [firstId, secondId, firstId]) emptyStream) failThenRetry =
          some s ∧
      s.sites 1 = some ((), .pure (.ok
        [⟨"EVENTS", 1, true⟩, ⟨"EVENTS", 2, false⟩, ⟨"EVENTS", 1, true⟩])) ∧
      gained (msgIds namedEvents [firstId, secondId, firstId]) s.shared =
        [firstId.val, secondId.val] := by
  have hend : ∃ s, run (step (publishers namedEvents [firstId, secondId, firstId]))
      (fresh (publishers namedEvents [firstId, secondId, firstId]) emptyStream) failThenRetry =
        some s ∧ s.shared.now = 0 ∧
      s.sites 1 = some ((), .pure (.ok
        [⟨"EVENTS", 1, true⟩, ⟨"EVENTS", 2, false⟩, ⟨"EVENTS", 1, true⟩])) :=
    ⟨_, rfl, rfl, rfl⟩
  obtain ⟨s, hrun, hnow, hok⟩ := hend
  have hwindow : s.shared.now < emptyStream.now + emptyStream.duplicateWindow := by
    rw [hnow]
    decide
  have hunused : ∀ m ∈ emptyStream.messages,
      ∀ id ∈ msgIds namedEvents [firstId, secondId, firstId], m.msgId ≠ some id := by
    decide
  have hids : (msgIds namedEvents [firstId, secondId, firstId]).eraseDups =
      [firstId.val, secondId.val] := by
    decide
  exact ⟨s, hrun, hok, (batch_retry_safe hrun hunused hwindow hok).2.1.trans hids⟩

end EventBus.Analysis
