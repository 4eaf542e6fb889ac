import EventBus.Analysis.Publishers
import EventBus.Interface.PublishPoints

/-!
# What receipts say

`Ledger` is what a stream keeps by itself: its sequence numbers rise, and two messages of one id
are at least a duplicate window apart.  That a receipt names the message that stands for its event
is read off the publishers (`publishJob_obeys`); that no message is the new one of two receipts
ties the publishers to each other (`NewOnce`).  `receipts_truthful` puts them together.
-/

set_option autoImplicit false

namespace EventBus.Analysis

open EventBus.Model EventBus.Lib EventBus.Interface

/-! ## The stream -/

/-- The books of a stream. -/
structure Ledger (s : EventStream) : Prop where
  increasing : s.messages.Pairwise fun m m' => m.sequence < m'.sequence
  bounded : ∀ m ∈ s.messages, m.sequence ≤ s.lastSequence
  past : ∀ m ∈ s.messages, m.storedAt ≤ s.now
  apart : s.messages.Pairwise fun m m' =>
    ∀ id, m.msgId = some id → m'.msgId = some id → m.storedAt + s.duplicateWindow ≤ m'.storedAt

section

variable {s : EventStream} {c : PublishWithHeaders}

/-- INTERNAL: sequence numbers go up. -/
theorem lastSequence_take : s.lastSequence ≤ (s.take c).lastSequence := by
  cases h : s.original c with
  | some m => exact Nat.le_of_eq (congrArg EventStream.lastSequence (take_of_original h).symm)
  | none =>
    rw [take_of_new h]
    exact Nat.le_succ s.lastSequence

/-- INTERNAL: a publish that is taken as new has no young message of its id. -/
theorem window_of_new (h : s.original c = none) {id : String}
    (hid : (s.stored c).msgId = some id) :
    ∀ m ∈ s.messages, m.msgId = some id → m.storedAt + s.duplicateWindow ≤ s.now := by
  intro m hm hmid
  have hheader : c.headers.get hdrNatsMsgId = some id := hid
  unfold EventStream.original at h
  rw [hheader, Option.bind_some] at h
  have hnot := List.find?_eq_none.mp h m hm
  simp only [hmid, decide_true, Bool.true_and, decide_eq_true_eq] at hnot
  exact Nat.le_of_not_lt hnot

/-- **A publish keeps the books.** -/
theorem Ledger.take (hs : Ledger s) : Ledger (s.take c) := by
  cases h : s.original c with
  | some m =>
    rw [take_of_original h]
    exact hs
  | none =>
    rw [take_of_new h]
    constructor
    · refine List.pairwise_append.mpr ⟨hs.increasing, List.pairwise_singleton .., ?_⟩
      intro m hm m' hm'
      obtain rfl := List.mem_singleton.mp hm'
      exact Nat.lt_succ_of_le (hs.bounded m hm)
    · intro m hm
      rcases List.mem_append.mp hm with hold | hnew
      · exact Nat.le_succ_of_le (hs.bounded m hold)
      · obtain rfl := List.mem_singleton.mp hnew
        exact Nat.le_refl _
    · intro m hm
      rcases List.mem_append.mp hm with hold | hnew
      · exact hs.past m hold
      · obtain rfl := List.mem_singleton.mp hnew
        exact Nat.le_refl _
    · refine List.pairwise_append.mpr ⟨hs.apart, List.pairwise_singleton .., ?_⟩
      intro m hm m' hm' id hid hid'
      obtain rfl := List.mem_singleton.mp hm'
      exact window_of_new h hid' m hm hid

/-- INTERNAL: time leaves the ledger alone. -/
theorem Ledger.elapse (hs : Ledger s) (elapsed : ℕ) :
    Ledger { s with now := s.now + elapsed } where
  increasing := hs.increasing
  bounded := hs.bounded
  past m hm := Nat.le_add_right_of_le (hs.past m hm)
  apart := hs.apart

end

/-! ## One publisher by itself -/

variable {U E : Type} [UuidCrate U] {T : EventTrait U E}

/-- INTERNAL: every publisher upholds it. -/
theorem ledger_upheld (T : EventTrait U E) :
    (publisherRules T).Upheld (fun p => Ledger p.stream) fun _ _ => True :=
  publisherRules_upheld (fun _ _ hp => hp) (fun _ _ hp _ => hp.take)
    fun _ elapsed hp => hp.elapse elapsed

/-- The invariant of the stream and of each publisher by itself. -/
abbrev receipted (T : EventTrait U E) : Local (allPublishers T) :=
  obeying (W := publications E) (publishJob T) (publisherRules T) (fun p => Ledger p.stream)
    fun job => ReturnsReceipts T job.events

/-- INTERNAL: every publisher keeps its receipts. -/
theorem receipted_kept (T : EventTrait U E) :
    (receipted T).Kept (fun _ _ => True) Publications.Grows :=
  (ledger_upheld T).kept (W := publications E) ReturnsReceipts.stable
    fun _ _ _ _ _ => publishJob_obeys (List.subset_append_left ..)

/-! ## New messages -/

/-- Two receipts are not of one new message. -/
def ApartAsNew (receipt receipt' : PubReceipt) : Prop :=
  receipt.duplicate = false → receipt'.duplicate = false → receipt.sequence ≠ receipt'.sequence

/-- The receipts that a publisher holds. -/
def heldReceipts : PublishPoint E → List PubReceipt
  | .publish receipts _ _ _ => receipts
  | .returned (.ok receipts) => receipts
  | .returned (.error _) => []

omit [UuidCrate U] in
/-- INTERNAL: the receipts in hand are some of those that were. -/
theorem heldReceipts_next (T : EventTrait U E) (receipts : List PubReceipt) (rest : List E) :
    (heldReceipts (PublishPoint.next T receipts rest)).Sublist receipts := by
  cases rest with
  | nil => exact List.Sublist.refl _
  | cons event rest =>
    cases hvec : T.toVec event with
    | error e =>
      rw [PublishPoint.next_of_error T hvec]
      exact List.nil_sublist _
    | ok payload =>
      rw [PublishPoint.next_of_ok T hvec]
      exact List.Sublist.refl _

/-- No new message has two receipts, and none has a receipt before it is stored. -/
structure NewOnce (s : State (publications E) (PublishPoint E)) : Prop where
  stored : ∀ i job p, s.sites i = some (job, p) → ∀ r ∈ heldReceipts p,
    r.sequence ≤ s.shared.stream.lastSequence
  own : ∀ i job p, s.sites i = some (job, p) → (heldReceipts p).Pairwise ApartAsNew
  others : ∀ i j job job' p p', s.sites i = some (job, p) → s.sites j = some (job', p') →
    i ≠ j → ∀ r ∈ heldReceipts p, ∀ r' ∈ heldReceipts p', ApartAsNew r r'

section

variable {s s' : State (publications E) (PublishPoint E)} {a : Action (publications E)}

/-- INTERNAL: two receipts, in either order. -/
theorem ApartAsNew.symm {r r' : PubReceipt} (h : ApartAsNew r r') : ApartAsNew r' r :=
  fun hr' hr heq => h hr hr' heq.symm

/-- INTERNAL: a publisher moves, and what it holds is right by itself and beside the others. -/
theorem NewOnce.move (hs : NewOnce s)
    (hlast : s.shared.stream.lastSequence ≤ s'.shared.stream.lastSequence) {i : ℕ}
    {next : Option (PublishJob E × PublishPoint E)}
    (hsites : s'.sites = Function.update s.sites i next)
    (hstored : ∀ job p, next = some (job, p) → ∀ r ∈ heldReceipts p,
      r.sequence ≤ s'.shared.stream.lastSequence)
    (hown : ∀ job p, next = some (job, p) → (heldReceipts p).Pairwise ApartAsNew)
    (hothers : ∀ job p, next = some (job, p) → ∀ j job' p', j ≠ i →
      s.sites j = some (job', p') → ∀ r ∈ heldReceipts p, ∀ r' ∈ heldReceipts p',
        ApartAsNew r r') : NewOnce s' where
  stored := by
    rw [hsites]
    exact forall_sites_update hs.stored
      (fun _ _ _ _ h r hr => Nat.le_trans (h r hr) hlast) hstored
  own := by
    rw [hsites]
    exact forall_sites_update hs.own (fun _ _ _ _ h => h) hown
  others j k job job' p p' hj hk hjk r hr r' hr' := by
    rw [hsites] at hj hk
    by_cases hji : j = i
    · subst hji
      rw [Function.update_self] at hj
      rw [Function.update_of_ne hjk.symm] at hk
      exact hothers job p hj k job' p' hjk.symm hk r hr r' hr'
    · rw [Function.update_of_ne hji] at hj
      by_cases hki : k = i
      · subst hki
        rw [Function.update_self] at hk
        exact (hothers job' p' hk j job p hji hj r' hr' r hr).symm
      · rw [Function.update_of_ne hki] at hk
        exact hs.others j k job job' p p' hj hk hjk r hr r' hr'

/-- INTERNAL: nobody moves. -/
theorem NewOnce.stay (hs : NewOnce s) (hsites : s'.sites = s.sites)
    (hlast : s.shared.stream.lastSequence ≤ s'.shared.stream.lastSequence) : NewOnce s' where
  stored := by
    rw [hsites]
    exact fun i job p hi r hr => Nat.le_trans (hs.stored i job p hi r hr) hlast
  own := by
    rw [hsites]
    exact hs.own
  others := by
    rw [hsites]
    exact hs.others

/-- INTERNAL: one publisher moves to where it holds no receipts. -/
theorem NewOnce.move_empty (hs : NewOnce s)
    (hlast : s.shared.stream.lastSequence ≤ s'.shared.stream.lastSequence) {i : ℕ}
    {next : Option (PublishJob E × PublishPoint E)}
    (hsites : s'.sites = Function.update s.sites i next)
    (hnothing : ∀ job p, next = some (job, p) → heldReceipts p = []) : NewOnce s' := by
  refine hs.move hlast hsites ?_ ?_ ?_
  · intro job p hp r hr
    rw [hnothing job p hp] at hr
    cases hr
  · intro job p hp
    rw [hnothing job p hp]
    exact List.Pairwise.nil
  · intro job p hp j job' p' hj hsite r hr
    rw [hnothing job p hp] at hr
    cases hr

/-- INTERNAL: a publish that fails is the end of its publisher. -/
theorem lost_publish {job job' : PublishJob E} {p p' : PublishPoint E}
    (h : Lost (publishPoints T) job p (some (job', p'))) :
    job' = job ∧ ∃ e, p' = .returned (.error e) := by
  cases h with
  | failed hv hr =>
    cases p with
    | returned result => cases hv
    | publish receipts event rest payload =>
      cases hv
      obtain rfl := Option.some.inj hr
      exact ⟨rfl, _, rfl⟩

/-- INTERNAL: a publisher that ends with an error, or is aborted, holds nothing. -/
theorem NewOnce.lost (hs : NewOnce s)
    (hlast : s.shared.stream.lastSequence ≤ s'.shared.stream.lastSequence) {i : ℕ}
    {job : PublishJob E} {p : PublishPoint E} {next : Option (PublishJob E × PublishPoint E)}
    (hnext : Lost (publishPoints T) job p next)
    (hsites : s'.sites = Function.update s.sites i next) : NewOnce s' := by
  refine hs.move_empty hlast hsites ?_
  rintro job' p' rfl
  obtain ⟨-, e, rfl⟩ := lost_publish hnext
  rfl

/-- INTERNAL: a receipt is apart from all that are of messages stored before. -/
theorem apart_of_ack {stream : EventStream} {c : PublishWithHeaders} {r : PubReceipt}
    (hr : r.sequence ≤ stream.lastSequence) : ApartAsNew r (receiptOf (stream.ack c)) := by
  intro _ hnew heq
  cases h : stream.original c with
  | some m =>
    simp only [EventStream.ack, h, receiptOf] at hnew
    cases hnew
  | none =>
    simp only [EventStream.ack, h, receiptOf] at heq
    omega

/-- INTERNAL: no receipt is ahead of the stream. -/
theorem ack_le_lastSequence {stream : EventStream} (hstream : Ledger stream)
    (c : PublishWithHeaders) :
    (receiptOf (stream.ack c)).sequence ≤ (stream.take c).lastSequence := by
  cases h : stream.original c with
  | some m =>
    have hm : m ∈ stream.messages := by
      obtain ⟨id, -, hfind⟩ := Option.bind_eq_some_iff.mp h
      exact List.mem_of_find?_eq_some hfind
    rw [take_of_original h]
    simp only [EventStream.ack, h, receiptOf]
    exact hstream.bounded m hm
  | none =>
    rw [take_of_new h]
    simp only [EventStream.ack, h, receiptOf]
    exact Nat.le_refl _

/-- INTERNAL: a publish is acknowledged. -/
theorem NewOnce.acknowledged (hs : NewOnce s) (hstream : Ledger s.shared.stream) {i : ℕ}
    {job : PublishJob E} {receipts : List PubReceipt} {event : E} {rest : List E}
    {payload : List UInt8}
    (hsite : s.sites i = some (job, .publish receipts event rest payload))
    (hsites : s'.sites = Function.update s.sites i (some (job, PublishPoint.afterPublish T receipts
      rest (.ok (s.shared.stream.ack (PublishPoint.call T event payload))))))
    (hshared : s'.shared.stream = s.shared.stream.take (PublishPoint.call T event payload)) :
    NewOnce s' := by
  have hlast : s.shared.stream.lastSequence ≤ s'.shared.stream.lastSequence := by
    rw [hshared]
    exact lastSequence_take
  have hheld : ∀ job' p', some (job, PublishPoint.afterPublish T receipts rest
      (.ok (s.shared.stream.ack (PublishPoint.call T event payload)))) = some (job', p') →
      (heldReceipts p').Sublist
        (receipts ++ [receiptOf (s.shared.stream.ack (PublishPoint.call T event payload))]) := by
    rintro job' p' heq
    obtain ⟨rfl, rfl⟩ := Prod.mk.inj (Option.some.inj heq)
    exact heldReceipts_next T _ rest
  refine hs.move hlast hsites ?_ ?_ ?_
  · intro job' p' hp' r hr
    rcases List.mem_append.mp ((hheld job' p' hp').subset hr) with hold | hnew
    · exact Nat.le_trans (hs.stored i job _ hsite r hold) hlast
    · obtain rfl := List.mem_singleton.mp hnew
      rw [hshared]
      exact ack_le_lastSequence hstream _
  · intro job' p' hp'
    refine List.Pairwise.sublist (hheld job' p' hp') (List.pairwise_append.mpr
      ⟨hs.own i job _ hsite, List.pairwise_singleton .., ?_⟩)
    intro r hr r' hr'
    obtain rfl := List.mem_singleton.mp hr'
    exact apart_of_ack (hs.stored i job _ hsite r hr)
  · intro job' p' hp' j job'' p'' hj hother r hr r' hr'
    rcases List.mem_append.mp ((hheld job' p' hp').subset hr) with hold | hnew
    · exact hs.others i j job job'' _ p'' hsite hother hj.symm r hold r' hr'
    · obtain rfl := List.mem_singleton.mp hnew
      exact (apart_of_ack (hs.stored j job'' p'' hother r' hr')).symm

/-- **A step gives no new message a second receipt.** -/
theorem NewOnce.step (h : Lib.step (publishPoints T) s a = some s')
    (hstream : Ledger s.shared.stream) (hs : NewOnce s) : NewOnce s' := by
  cases (step_cases h).move with
  | spawn i job ha hi hsites hshared hdet =>
    rw [reachPoint_publishPoints] at hshared
    refine hs.move_empty (Nat.le_of_eq (by rw [hshared])) hsites ?_
    rintro job' p heq
    obtain ⟨rfl, rfl⟩ := Prod.mk.inj (Option.some.inj heq)
    exact List.sublist_nil.mp (heldReceipts_next T [] job.events)
  | reach i job p ha hi hsites hshared hdet =>
    rw [reachPoint_publishPoints] at hshared
    exact hs.stay hsites (Nat.le_of_eq (by rw [hshared]))
  | serve i ch job p c k ha hi hv hsites hshared hdet =>
    have hsite : s.sites i = some (job, p) := sites_of_threads s i hi
    cases p with
    | returned result => cases hv
    | publish receipts event rest payload =>
      cases hv
      exact hs.acknowledged hstream hsite hsites (by rw [hshared])
  | drop i job p next ha hi hnext hsites hshared hdet =>
    exact hs.lost (Nat.le_of_eq (by rw [hshared])) hnext hsites
  | act i ch job p c next ha hi hc hlose hnext hsites hshared hdet =>
    refine hs.lost ?_ hnext hsites
    rw [hshared]
    exact lastSequence_take
  | defer i job p c next ha hi hc hlose hnext hsites hshared hdet =>
    exact hs.lost (Nat.le_of_eq (by rw [hshared])) hnext hsites
  | land n ch i job c ha hn hsites hshared hdet =>
    refine hs.stay hsites ?_
    rw [hshared]
    exact lastSequence_take
  | drift e ha hsites hshared hdet =>
    exact hs.stay hsites (Nat.le_of_eq (congrArg (fun sh => sh.stream.lastSequence) hshared).symm)

end

/-! ## The result -/

/-- What receipts say in a state: a publisher that has returned `Ok` has one truthful receipt for
each of its events, and no two receipts are of one new message. -/
structure ReceiptsHold (T : EventTrait U E)
    (s : State (publications E) (Publishing (Except BusError (List PubReceipt)))) : Prop where
  ledger : Ledger s.shared.stream
  truthful : ∀ i job receipts, s.sites i = some (job, .pure (.ok receipts)) →
    List.Forall₂ (Truthful T s.shared.stream) job.events receipts
  own : ∀ i job receipts, s.sites i = some (job, .pure (.ok receipts)) →
    receipts.Pairwise ApartAsNew
  others : ∀ i j job job' receipts receipts', s.sites i = some (job, .pure (.ok receipts)) →
    s.sites j = some (job', .pure (.ok receipts')) → i ≠ j →
      ∀ r ∈ receipts, ∀ r' ∈ receipts', ApartAsNew r r'

/-- INTERNAL: a publisher that has returned is at its end. -/
theorem returned_of_map {s : State (publications E) (PublishPoint E)} {i : ℕ}
    {job : PublishJob E} {receipts : List PubReceipt}
    (hi : (s.map (pointsOfPublish T).map).sites i = some (job, .pure (.ok receipts))) :
    s.sites i = some (job, .returned (.ok receipts)) := by
  rw [sites_map] at hi
  obtain ⟨⟨job', p⟩, hp, heq⟩ := Option.map_eq_some_iff.mp hi
  obtain ⟨rfl, hcode⟩ := Prod.mk.inj heq
  cases p with
  | publish rs event rest payload => cases hcode
  | returned result =>
    obtain rfl : result = .ok receipts := Prog.pure.inj hcode
    exact hp

/-- INTERNAL: in every run of the publishers, no new message has two receipts. -/
theorem always_newOnce (T : EventTrait U E) {stream : EventStream} (asked : List E)
    (as : List (Action (publications E)))
    (hledger : Always (step (allPublishers T)) (fun s => Ledger s.shared.stream)
      (fresh (allPublishers T) ⟨stream, asked⟩) as) :
    Always (step (allPublishers T))
      (fun s => ∃ t : State (publications E) (PublishPoint E),
        t.map (pointsOfPublish T).map = s ∧ NewOnce t)
      (fresh (allPublishers T) ⟨stream, asked⟩) as := by
  have hhom := step_hom (pointsOfPublish T)
  rw [← map_fresh (pointsOfPublish T)] at hledger ⊢
  have hpoints := (always_map hhom _ as).mp hledger
  refine (always_map hhom _ as).mpr ?_
  have hboth : Along (step (publishPoints T)) (fun s _ _ => Ledger s.shared.stream)
      (fresh (publishPoints T) ⟨stream, asked⟩) as :=
    Along.of_always hpoints (Along.of_forall (C := fun _ _ _ => True) (fun _ _ _ _ => trivial) _)
      fun _ _ _ _ _ hs _ => hs
  have honce : Always (step (publishPoints T)) NewOnce
      (fresh (publishPoints T) ⟨stream, asked⟩) as :=
    always_of_invariant (fun _ _ _ h hstream hs => hs.step h hstream) ⟨nofun, nofun, nofun⟩ hboth
  exact honce.mono fun t ht => ⟨t, rfl, ht⟩

/-- **Receipts are truthful.**  Take any publishers of a stream that deduplicates, each asked for
an event or a batch, and any run of them: publishes that fail, are lost or arrive late.  In every
state the sequence numbers of the stream rise, and messages of one id are a duplicate window
apart; a publisher that has returned `Ok` has a receipt for each of its events, which names a
message of its id, and the message of the event itself unless it says that it is a duplicate;
and no stored message is the new one of two receipts.
SRC: publisher.rs:4-35, publisher.rs:22-50 -/
theorem receipts_truthful (T : EventTrait U E) {stream : EventStream} (hstream : Ledger stream)
    (asked : List E) (as : List (Action (publications E))) :
    Always (step (allPublishers T)) (ReceiptsHold T) (fresh (allPublishers T) ⟨stream, asked⟩)
      as := by
  have hreceipted : Always (step (allPublishers T)) (receipted T).Holds
      (fresh (allPublishers T) ⟨stream, asked⟩) as :=
    always_of_step (fun _ _ _ h hs => (receipted_kept T).step h (fun _ _ _ => trivial) hs)
      (.fresh hstream)
  have honce := always_newOnce T asked as (hreceipted.mono fun s hs => hs.shared)
  refine (always_and.mpr ⟨hreceipted, honce⟩).mono fun s hs => ?_
  obtain ⟨hs, t, rfl, honce⟩ := hs
  refine ⟨hs.shared, fun i job receipts hi => hs.sites i job _ hi receipts rfl, ?_, ?_⟩
  · exact fun i job receipts hi => honce.own i job _ (returned_of_map hi)
  · exact fun i j job job' receipts receipts' hi hj hij =>
      honce.others i j job job' _ _ (returned_of_map hi) (returned_of_map hj) hij

/-- Two publishers with one event in common. -/
def twoPublishers : List (Action (publications HyphenatedUuid)) :=
  [.spawn 0 (.one firstId), .spawn 1 (.batch [secondId, firstId]), .serve 0 (), .serve 1 (),
    .resume 1, .serve 1 (), .resume 0, .resume 1]

/-- INTERNAL: the result on a publisher and a batch that repeats its event. -/
theorem receipts_truthful_two :
    ∃ s, run (step (allPublishers namedEvents)) (fresh (allPublishers namedEvents) ⟨emptyStream, []⟩)
        twoPublishers = some s ∧
      s.sites 0 = some (.one firstId, .pure (.ok [⟨"EVENTS", 1, false⟩])) ∧
      s.sites 1 = some (.batch [secondId, firstId],
        .pure (.ok [⟨"EVENTS", 2, false⟩, ⟨"EVENTS", 1, true⟩])) ∧
      List.Forall₂ (Truthful namedEvents s.shared.stream) [secondId, firstId]
        [⟨"EVENTS", 2, false⟩, ⟨"EVENTS", 1, true⟩] := by
  have hend : ∃ s, run (step (allPublishers namedEvents))
        (fresh (allPublishers namedEvents) ⟨emptyStream, []⟩) twoPublishers = some s ∧
      s.sites 0 = some (.one firstId, .pure (.ok [⟨"EVENTS", 1, false⟩])) ∧
      s.sites 1 = some (.batch [secondId, firstId],
        .pure (.ok [⟨"EVENTS", 2, false⟩, ⟨"EVENTS", 1, true⟩])) := ⟨_, rfl, rfl, rfl⟩
  obtain ⟨s, hrun, hfirst, hsecond⟩ := hend
  have hempty : Ledger emptyStream := ⟨.nil, nofun, nofun, .nil⟩
  have hhold := (receipts_truthful namedEvents hempty [] _).last hrun
  exact ⟨s, hrun, hfirst, hsecond, hhold.truthful 1 _ _ hsecond⟩

end EventBus.Analysis
