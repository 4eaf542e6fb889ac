import EventBus.Interface.Faults
import EventBus.Lib.Alone
import EventBus.Analysis.Settlement

/-!
# Fan-out to several consumers over one store

Every subscription of a bus uses the same idempotency store, and the key of a published
event is its bare id.  So a consumer that comes second to a message finds the done marker
of the first and acknowledges the message without having handled it.

The counterexample is such a run, without any fault.  The result says when consumers are
isolated: it is enough that no id is ever delivered to two of them, which is what
`fallback_message_id` ensures for messages without an id in their header.  Then a consumer
settles on evidence of its own and, while nothing fails, does what it would do if it were
the only one.
-/

set_option autoImplicit false

namespace EventBus.Analysis

open EventBus.Model EventBus.Lib EventBus.Interface

variable {U E : Type} [UuidCrate U] {Γ : Deployment U E}

/-! ## Isolation -/

/-- The deliveries to the consumer of `d`. -/
def SameConsumer (d d' : Delivery Γ) : Prop :=
  d'.options.source = d.options.source ∧ d'.options.durable = d.options.durable

/-- The deliveries of the message of `d` to the consumer of `d`. -/
def Own (d d' : Delivery Γ) : Prop :=
  SameId d d' ∧ SameConsumer d d'

instance (d d' : Delivery Γ) : Decidable (SameConsumer d d') :=
  inferInstanceAs (Decidable (_ ∧ _))

instance [DecidableEq U] (d d' : Delivery Γ) : Decidable (Own d d') :=
  inferInstanceAs (Decidable (_ ∧ _))

/-- Every consumer settles a message on evidence of its own: its own handler has returned
`Ok` on it, or its own dead letter stream has acknowledged it. -/
def Isolated (log : List (Entry Γ)) : Prop :=
  SettledOn Own log

instance [DecidableEq U] (log : List (Entry Γ)) : Decidable (Isolated log) :=
  inferInstanceAs (Decidable (SettledOn Own log))

/-- A delivery that is made carries an id that no other consumer was delivered. -/
def OwnKeys {P : Type} (s : State (world Γ) P) (a : Action (world Γ))
    (_ : State (world Γ) P) : Prop :=
  match a with
  | .spawn _ d => ∀ e ∈ s.shared.log, SameId d e.delivery → SameConsumer d e.delivery
  | _ => True

instance [DecidableEq U] {P : Type} (s s' : State (world Γ) P) (a : Action (world Γ)) :
    Decidable (OwnKeys s a s') :=
  match a with
  | .spawn _ _ => inferInstanceAs (Decidable (∀ e ∈ s.shared.log, _))
  | .serve _ _ | .fail _ _ _ _ | .resume _ | .abort _ _ _ | .land _ _ | .drift _ => isTrue trivial

/-! ## What the log knows -/

/-- Something of the delivery is in the log. -/
def Known (log : List (Entry Γ)) (d : Delivery Γ) : Prop :=
  ∃ e ∈ log, e.delivery = d

/-- No two consumers share an id. -/
def ApartIn (log : List (Entry Γ)) : Prop :=
  ∀ e ∈ log, ∀ e' ∈ log, SameId e.delivery e'.delivery → SameConsumer e.delivery e'.delivery

/-- The invariant: no two consumers share an id, and whoever acts is in the log. -/
def apart : Local (pointMachine Γ) where
  shared sh := ApartIn sh.log
  site sh d _ := Known sh.log d
  underWay sh d _ := Known sh.log d

omit [UuidCrate U] in
/-- INTERNAL: what is known stays known. -/
theorem Known.mono {log log' : List (Entry Γ)} {d : Delivery Γ} (h : Known log d)
    (hlog : log ⊆ log') : Known log' d := by
  obtain ⟨e, he, h⟩ := h
  exact ⟨e, hlog he, h⟩

omit [UuidCrate U] in
/-- INTERNAL: two deliveries to one consumer, in either order. -/
theorem SameConsumer.symm {d d' : Delivery Γ} (h : SameConsumer d d') : SameConsumer d' d :=
  ⟨h.1.symm, h.2.symm⟩

/-- INTERNAL: a line of a delivery that shares its id with no other consumer. -/
theorem ApartIn.cons {log : List (Entry Γ)} {new : Entry Γ} (hlog : ApartIn log)
    (hnew : ∀ e ∈ log, SameId new.delivery e.delivery → SameConsumer new.delivery e.delivery) :
    ApartIn (new :: log) := by
  intro e he e' he' hid
  rcases List.mem_cons.mp he with hen | hold <;> rcases List.mem_cons.mp he' with hen' | hold'
  · rw [hen, hen']
    exact ⟨rfl, rfl⟩
  · rw [hen] at hid ⊢
    exact hnew e' hold' hid
  · rw [hen'] at hid ⊢
    exact (hnew e hold hid.symm).symm
  · exact hlog e hold e' hold' hid

/-- INTERNAL: a line of a delivery that is known. -/
theorem ApartIn.addLine {sh : Shared Γ} {d : Delivery Γ} (hlog : ApartIn sh.log)
    (hd : Known sh.log d) (i : ℕ) (what : Option Occurrence) : ApartIn (addLine sh i d what) := by
  cases what with
  | none => exact hlog
  | some what =>
    refine hlog.cons fun e he hid => ?_
    obtain ⟨known, hknown, rfl⟩ := hd
    exact hlog known hknown e he hid

/-- INTERNAL: runs that start no worker on a foreign id keep consumers apart. -/
theorem apart_kept : (apart (Γ := Γ)).Kept
    (fun sh d => ∀ e ∈ sh.log, SameId d e.delivery → SameConsumer d e.delivery)
    fun sh sh' => sh.log ⊆ sh'.log where
  site_stable hlog hd := hd.mono hlog
  underWay_stable hlog hd := hd.mono hlog
  start i d sh hsh hfit := by
    rw [spawn_eq]
    exact ⟨fun e he => List.mem_cons_of_mem _ he, hsh.cons hfit, _, List.mem_cons_self, rfl⟩
  reach i d p sh hsh hd := by
    rw [reachPoint_eq]
    exact ⟨log_subset_addLine i d sh _, hsh.addLine hd i _⟩
  made hd _ := hd
  effect seen i d c ch sh hsh hd := by
    refine ⟨log_subset_effect seen i d c ch sh, ?_⟩
    change ApartIn (Shared.effect seen i d c ch sh).log
    rw [effect_log]
    exact hsh.addLine hd i _
  answered i d p c k ch sh _ hd _ := hd.mono (log_subset_effect true i d c ch sh)
  lost _ hd hnext := by
    cases hnext
    exact hd
  drift e sh hsh := ⟨fun _ he => he, hsh⟩

/-- INTERNAL: with consumers apart, evidence for an id is evidence of the consumer. -/
theorem SettledOn.own {log : List (Entry Γ)} (h : SettledOn SameId log) (hlog : ApartIn log) :
    Isolated log := by
  induction log with
  | nil => trivial
  | cons e older ih =>
    refine ⟨fun hset => ?_, ih h.2 fun e he e' he' => ?_⟩
    · obtain ⟨e', he', hid, hev⟩ := h.1 hset
      have hsame := hlog e List.mem_cons_self e' (List.mem_cons_of_mem _ he') hid
      exact ⟨e', he', ⟨hid, hsame⟩, hev⟩
    · exact hlog e (List.mem_cons_of_mem _ he) e' (List.mem_cons_of_mem _ he')

/-- INTERNAL: in every state of a run that delivers no id to two consumers, consumers are
apart. -/
theorem apart_always {now : ℕ} {store : Γ.store.State} {dlq : List DlqRecord}
    {as : List (Action (world Γ))}
    (hkeys : Along (step (pointMachine Γ)) OwnKeys
      (fresh (pointMachine Γ) (.initial now store dlq)) as) :
    Always (step (pointMachine Γ)) (apart (Γ := Γ)).Holds
      (fresh (pointMachine Γ) (.initial now store dlq)) as := by
  refine always_of_invariant (fun s a s' h ha hs => apart_kept.step h ?_ hs) ?_ hkeys
  · rintro i d rfl
    exact ha
  · exact .fresh fun e he => absurd he List.not_mem_nil

/-! ## A consumer on its own -/

/-- Whether a delivery is made to the consumer, a stream and a durable. -/
def isTo (consumer : String × String) (d : Delivery Γ) : Bool :=
  decide (d.options.source = consumer.1 ∧ d.options.durable = consumer.2)

/-- What happened to the deliveries to the consumer. -/
def linesOf (consumer : String × String) (log : List (Entry Γ)) : List (Entry Γ) :=
  log.filter fun e => isTo consumer e.delivery

/-- Whatever has been delivered under the key was delivered to the consumer. -/
def OnlyTo (consumer : String × String) (log : List (Entry Γ)) (key : MessageId U) : Prop :=
  ∀ e ∈ log, e.delivery.msgId = key → isTo consumer e.delivery = true

/-- What the workers of a consumer see: the clock, what happened to its own deliveries, and
what the store has under keys that are delivered to nobody else. -/
structure Sees (K : Γ.store.PerKey) (consumer : String × String) (sh alone : Shared Γ) :
    Prop where
  now : sh.now = alone.now
  log : alone.log = linesOf consumer sh.log
  slots : ∀ key, OnlyTo consumer sh.log key → K.slot sh.store key = K.slot alone.store key

/-- A delivery that is in the log, with an id that no other consumer was delivered. -/
def Fit (sh : Shared Γ) (d : Delivery Γ) : Prop :=
  Known sh.log d ∧ ∀ e ∈ sh.log, SameId d e.delivery → SameConsumer d e.delivery

section

variable {K : Γ.store.PerKey} {consumer : String × String} {sh alone : Shared Γ} {d : Delivery Γ}

/-- INTERNAL: what was delivered before was delivered. -/
theorem OnlyTo.of_addLine {key : MessageId U} {i : ℕ} {what : Option Occurrence}
    (h : OnlyTo consumer (addLine sh i d what) key) : OnlyTo consumer sh.log key :=
  fun e he => h e (mem_addLine i d sh what he)

/-- INTERNAL: the key of a delivery of another consumer. -/
theorem Fit.not_onlyTo (hfit : Fit sh d) (hd : isTo consumer d = false) :
    ¬ OnlyTo consumer sh.log d.msgId := by
  obtain ⟨⟨e, he, hed⟩, -⟩ := hfit
  intro honly
  have hto := honly e he (by rw [hed])
  rw [hed, hd] at hto
  cases hto

/-- INTERNAL: a delivery that fits is to the one consumer of its id. -/
theorem Fit.onlyTo (hfit : Fit sh d) (hd : isTo consumer d = true) :
    OnlyTo consumer sh.log d.msgId := by
  intro e he hid
  obtain ⟨hsource, hdurable⟩ := hfit.2 e he hid
  obtain ⟨hsource', hdurable'⟩ := of_decide_eq_true hd
  exact decide_eq_true ⟨hsource.trans hsource', hdurable.trans hdurable'⟩

/-- INTERNAL: the consumer's own lines are added on both sides. -/
theorem Sees.grow_own (h : Sees K consumer sh alone) (hd : isTo consumer d = true) (i : ℕ)
    (what : Option Occurrence) {store store' : Γ.store.State} {dlq dlq' : List DlqRecord}
    (hslots : ∀ key, OnlyTo consumer sh.log key → K.slot store key = K.slot store' key) :
    Sees K consumer ⟨sh.now, store, dlq, addLine sh i d what⟩
      ⟨alone.now, store', dlq', addLine alone i d what⟩ := by
  refine ⟨h.now, ?_, fun key honly => hslots key honly.of_addLine⟩
  cases what with
  | none => exact h.log
  | some w =>
    have hline : linesOf consumer (⟨i, d, sh.now, w⟩ :: sh.log) =
        ⟨i, d, sh.now, w⟩ :: linesOf consumer sh.log := List.filter_cons_of_pos hd
    change (⟨i, d, alone.now, w⟩ :: alone.log : List (Entry Γ)) = _
    rw [h.log, ← h.now]
    exact hline.symm

/-- INTERNAL: the lines of others are added on one side, and not seen. -/
theorem Sees.grow_other (h : Sees K consumer sh alone) (hd : isTo consumer d = false) (i : ℕ)
    (what : Option Occurrence) {store : Γ.store.State} {dlq : List DlqRecord}
    (hslots : ∀ key, OnlyTo consumer sh.log key → K.slot store key = K.slot alone.store key) :
    Sees K consumer ⟨sh.now, store, dlq, addLine sh i d what⟩ alone := by
  refine ⟨h.now, ?_, fun key honly => hslots key honly.of_addLine⟩
  cases what with
  | none => exact h.log
  | some w =>
    have hline : linesOf consumer (⟨i, d, sh.now, w⟩ :: sh.log) = linesOf consumer sh.log :=
      List.filter_cons_of_neg (by simp [hd])
    exact h.log.trans hline.symm

variable {p : Point E} {c : Call U E}

/-- INTERNAL: a call leaves all keys but that of its delivery. -/
theorem slot_storeAfter_of_ne (hc : (pointMachine Γ).head d p = some c) (ch : Choice Γ)
    (sh : Shared Γ) {key : MessageId U} (hkey : key ≠ d.msgId) :
    K.slot (storeAfter c ch sh) key = K.slot sh.store key := by
  cases p with
  | claim =>
    cases hc
    exact K.tryClaim_frame _ _ _ _ key hkey
  | markAck | markTerm =>
    cases hc
    exact K.markDone_frame _ _ _ _ key hkey
  | release delay =>
    cases hc
    exact K.release_frame _ _ _ _ key hkey
  | handle event | ack | stamp config cause | publish config cause failedAt | term | nak delay =>
    -- no call to the store
    cases hc
    rfl
  | finished => cases hc

/-- INTERNAL: a call is answered alike, leaves the same and is noted alike where the clock
and the key of its delivery are the same. -/
theorem served_alike (hc : (pointMachine Γ).head d p = some c) (ch : Choice Γ)
    (hnow : sh.now = alone.now) (hslot : K.slot sh.store d.msgId = K.slot alone.store d.msgId) :
    Shared.answer c ch sh = Shared.answer c ch alone ∧
      noted true c ch sh = noted true c ch alone ∧
      K.slot (storeAfter c ch sh) d.msgId = K.slot (storeAfter c ch alone) d.msgId := by
  cases p with
  | claim =>
    cases hc
    obtain ⟨hanswer, hafter⟩ := K.tryClaim_congr alone.now ch.store _ _ _ hslot
    simp only [Shared.answer, noted, storeAfter, hnow, hanswer, hafter, and_self]
  | markAck | markTerm =>
    cases hc
    obtain ⟨hanswer, hafter⟩ := K.markDone_congr alone.now ch.store _ _ _ hslot
    simp only [Shared.answer, noted, storeAfter, hnow, hanswer, hafter, and_self]
  | release delay =>
    cases hc
    obtain ⟨hanswer, hafter⟩ := K.release_congr alone.now ch.store _ _ _ hslot
    simp only [Shared.answer, noted, storeAfter, hnow, hanswer, hafter, and_self]
  | stamp config cause =>
    cases hc
    have htime : toString (sh.now / 1000) = toString (alone.now / 1000) := by rw [hnow]
    exact ⟨htime, rfl, hslot⟩
  | handle event | ack | publish config cause failedAt | term | nak delay =>
    cases hc
    exact ⟨rfl, rfl, hslot⟩
  | finished => cases hc

end

/-- **Workers on ids of their own do not see each other.** -/
theorem unwinding_sees (K : Γ.store.PerKey) (consumer : String × String) :
    Unwinding (pointMachine Γ) (isTo consumer) Fit (Sees K consumer) where
  enlist_own i d sh alone h hd := h.grow_own hd i (some .delivered) h.slots
  enlist_other i d sh alone h hd := h.grow_other hd i (some .delivered) h.slots
  reach_own i d c sh alone h hd := by
    cases c with
    | handle ctx event => exact h.grow_own hd i (some .began) h.slots
    | _ => exact h
  reach_other i d c sh alone h hd := by
    cases c with
    | handle ctx event => exact h.grow_other hd i (some .began) h.slots
    | _ => exact h
  answer_own d p c ch sh alone h hfit hd hc :=
    (served_alike hc ch h.now (h.slots _ (hfit.onlyTo hd))).1
  effect_own i d p c ch sh alone h hfit hd hc := by
    obtain ⟨-, hnoted, hafter⟩ := served_alike hc ch h.now (h.slots _ (hfit.onlyTo hd))
    change Sees K consumer (Shared.effect true i d c ch sh) (Shared.effect true i d c ch alone)
    rw [effect_eq, effect_eq, ← hnoted]
    refine h.grow_own hd i _ fun key honly => ?_
    by_cases hkey : key = d.msgId
    · rw [hkey]
      exact hafter
    · rw [slot_storeAfter_of_ne hc ch sh hkey, slot_storeAfter_of_ne hc ch alone hkey]
      exact h.slots key honly
  effect_other i d p c ch sh alone h hfit hd hc := by
    change Sees K consumer (Shared.effect true i d c ch sh) alone
    rw [effect_eq]
    refine h.grow_other hd i _ fun key honly => ?_
    have hkey : key ≠ d.msgId := fun hkey => hfit.not_onlyTo hd (hkey ▸ honly)
    rw [slot_storeAfter_of_ne hc ch sh hkey]
    exact h.slots key honly
  drift e sh alone h := by
    refine ⟨?_, h.log, fun key honly => K.tick_congr e.store key _ _ (h.slots key honly)⟩
    change sh.now + e.elapsed = alone.now + e.elapsed
    rw [h.now]

/-- INTERNAL: whoever acts while consumers are apart is fit. -/
theorem fit_of_apart {s : State (world Γ) (Point E)} (hs : apart.Holds s) (i : ℕ)
    (d : Delivery Γ) (p : Point E) (hi : s.threads i = some ⟨d, .waiting p⟩) :
    Fit s.shared d := by
  have hknown : Known s.shared.log d := hs.sites i d p (sites_of_threads s i hi)
  refine ⟨hknown, ?_⟩
  obtain ⟨e, he, rfl⟩ := hknown
  exact hs.shared e he

/-- Some of the actions make a run in which nobody but the consumer is delivered anything,
and in which happens what `log` says of its deliveries. -/
def OnItsOwn (sh : Shared Γ) (as : List (Action (world Γ))) (consumer : String × String)
    (log : List (Entry Γ)) : Prop :=
  ∃ bs : List (Action (world Γ)), bs.Sublist as ∧ (∀ b ∈ bs, b.startsOnly (isTo consumer)) ∧
    ∃ t, run (step (codeMachine Γ)) (fresh (codeMachine Γ) sh) bs = some t ∧
      t.shared.log = linesOf consumer log

/-- INTERNAL: without faults, a consumer with ids of its own does what it does on its own. -/
theorem onItsOwn_of_apart (K : Γ.store.PerKey) {now : ℕ} {store : Γ.store.State}
    {dlq : List DlqRecord} {as : List (Action (world Γ))}
    (hapart : Always (step (pointMachine Γ)) apart.Holds
      (fresh (pointMachine Γ) (.initial now store dlq)) as)
    (hfault : Along (step (codeMachine Γ)) NoFault
      (fresh (codeMachine Γ) (.initial now store dlq)) as)
    {s : State (world Γ) (codeMachine Γ).Point}
    (hrun : run (step (codeMachine Γ)) (fresh (codeMachine Γ) (.initial now store dlq)) as =
      some s) (consumer : String × String) :
    OnItsOwn (.initial now store dlq) as consumer s.shared.log := by
  have hcalm : Along (step (pointMachine Γ)) (fun _ a _ => a.calm = true)
      (fresh (pointMachine Γ) (.initial now store dlq)) as := by
    have hpoints := (along_look_hom (pointsOfCode Γ) (C := NoFault) _ as).mp hfault
    refine hpoints.mono fun s a s' _ ha => ?_
    cases a <;> first | rfl | exact ha.elim
  rw [run_hom (pointsOfCode Γ)] at hrun
  obtain ⟨s₀, hs₀, rfl⟩ := Option.map_eq_some_iff.mp hrun
  have hsees : Sees K consumer (.initial now store dlq) (.initial now store dlq) :=
    ⟨rfl, rfl, fun _ _ => rfl⟩
  obtain ⟨bs, hsub, hbs, t₀, ht₀, hbeside⟩ := (unwinding_sees K consumer).run_alone hs₀ hcalm
    (hapart.mono fun s hs => fit_of_apart hs) (beside_fresh (pointMachine Γ) (isTo consumer) hsees)
  refine ⟨bs, hsub, hbs, t₀.map (pointsOfCode Γ).map, ?_, hbeside.shared.log⟩
  rw [run_hom (pointsOfCode Γ), ht₀]
  rfl

/-! ## The result -/

/-- **Consumers are isolated when their ids are.**  Take subscriptions with dead letter
streams over one honest store that keeps the keys apart.  In every run that never delivers
to a consumer an id that another consumer was delivered, whichever faults it has, every
consumer settles messages on evidence of its own.  If the run has no faults, what happens to
the deliveries of a consumer is what happens to them in a run in which the other consumers
do not take part.
SRC: subscriber.rs:379-424, bus.rs:57-91 -/
theorem isolated_of_ownKeys (Γ : Deployment U E) (H : Γ.store.Honest) (K : Γ.store.PerKey)
    (hdlq : ∀ sub, (Γ.options sub).dlqOpts.isSome) (now : ℕ) (store : Γ.store.State)
    (dlq : List DlqRecord) (hstore : ∀ key, ¬ H.isDone now store key)
    (as : List (Action (world Γ)))
    (hkeys : Along (step (codeMachine Γ)) OwnKeys
      (fresh (codeMachine Γ) (.initial now store dlq)) as) :
    Always (step (codeMachine Γ)) (fun s => Isolated s.shared.log)
        (fresh (codeMachine Γ) (.initial now store dlq)) as ∧
      (Along (step (codeMachine Γ)) NoFault
          (fresh (codeMachine Γ) (.initial now store dlq)) as →
        ∀ s, run (step (codeMachine Γ)) (fresh (codeMachine Γ) (.initial now store dlq)) as =
          some s → ∀ consumer, OnItsOwn (.initial now store dlq) as consumer s.shared.log) := by
  have hpoints : Along (step (pointMachine Γ)) OwnKeys
      (fresh (pointMachine Γ) (.initial now store dlq)) as :=
    (along_look_hom (pointsOfCode Γ) (C := OwnKeys) _ as).mp hkeys
  have hapart := apart_always hpoints
  refine ⟨?_, fun hfault s hrun consumer => onItsOwn_of_apart K hapart hfault hrun consumer⟩
  have hboth := always_and.mpr ⟨founded_always hdlq dlq hstore as, hapart⟩
  refine (always_shared_hom (pointsOfCode Γ) (Q := fun sh => Isolated sh.log) _ as).mpr ?_
  exact hboth.mono fun s hs => hs.1.shared.settled.own hs.2.shared

/-- The message 7 as the consumer `durable` gets it. -/
def fannedOut (durable : String) : Delivery events :=
  eventsDelivery durable "6ba7b810-9dad-11d1-80b4-00c04fd430c8" 7 1

/-- The consumer `billing` handles the message, then the consumer `shipping` gets it. -/
def fanOutRun : List (Action (world events)) :=
  undisturbed 0 (fannedOut "billing") (.ok ()) 4 ++
    undisturbed 1 (fannedOut "shipping") (.ok ()) 2

/-- **Settlements are not isolated in general.**  In the run, which has no fault, the
consumer `shipping` acknowledges the message although its handler never ran. -/
theorem not_isolated_events :
    Along (step (codeMachine events)) NoFault
        (fresh (codeMachine events) (.initial 0 (fun _ => none) [])) fanOutRun ∧
      ¬ Always (step (codeMachine events)) (fun s => Isolated s.shared.log)
        (fresh (codeMachine events) (.initial 0 (fun _ => none) [])) fanOutRun := by
  refine ⟨?_, ?_⟩ <;> decide +kernel

/-- Two consumers get messages with ids of their own. -/
def ownKeysRun : List (Action (world events)) :=
  undisturbed 0 (fannedOut "billing") (.ok ()) 4 ++
    undisturbed 1 (eventsDelivery "shipping" "6ba7b811-9dad-11d1-80b4-00c04fd430c8" 8 1)
      (.error (.permanent "unknown address")) 5

/-- The run of two consumers with ids of their own. -/
theorem isolated_of_ownKeys_events :
    Always (step (codeMachine events)) (fun s => Isolated s.shared.log)
        (fresh (codeMachine events) (.initial 0 (fun _ => none) [])) ownKeysRun ∧
      ∃ s, run (step (codeMachine events))
          (fresh (codeMachine events) (.initial 0 (fun _ => none) [])) ownKeysRun = some s ∧
        ∀ consumer, OnItsOwn (.initial 0 (fun _ => none) []) ownKeysRun consumer s.shared.log := by
  have hempty : ∀ key, ¬ (RedisIdempotencyStore.honest (U := HyphenatedUuid)
      (.connect {})).isDone 0 (fun _ => none) key := by
    intro key hdone
    cases hdone
  obtain ⟨hisolated, halone⟩ := isolated_of_ownKeys events _
    (RedisIdempotencyStore.perKey (.connect {})) (fun _ => rfl) 0 _ [] hempty ownKeysRun
    (by decide +kernel)
  have hruns : (run (step (codeMachine events))
      (fresh (codeMachine events) (.initial 0 (fun _ => none) [])) ownKeysRun).isSome := by
    decide +kernel
  obtain ⟨s, hs⟩ := Option.isSome_iff_exists.mp hruns
  exact ⟨hisolated, s, hs, halone (by decide +kernel) s hs⟩

end EventBus.Analysis
