import EventBus.Analysis.Publishers
import EventBus.Analysis.Workers

/-!
# What handlers are called with

An event crosses three borders on its way to a handler: it is written into a message, the stream
stores the message, and a worker reads an event out of it.  `Authentic` says of a stream that it
has nothing but messages of events that its publishers were asked for, `Stocked` of a bus that its
workers were started for such messages, and what a worker calls its handler with is read off the
program (`processMessage_obeys`).  `handled_as_published` puts the three together.
-/

set_option autoImplicit false

namespace EventBus.Analysis

open EventBus.Model EventBus.Lib EventBus.Interface

variable {U E : Type} [UuidCrate U] {T : EventTrait U E}

/-! ## What the stream has -/

/-- The stream has only messages of events that were asked for. -/
def Authentic (T : EventTrait U E) (p : Publications E) : Prop :=
  ∀ m ∈ p.stream.messages, ∃ e ∈ p.asked, StoredMessage.isOf T m e

/-- INTERNAL: a publish of an event leaves the stream authentic. -/
theorem Authentic.take {p : Publications E} (hp : Authentic T p) {c : PublishWithHeaders}
    (hc : Publishes T p.asked c) : Authentic T { p with stream := p.stream.take c } := by
  intro m hm
  cases horiginal : p.stream.original c with
  | some original =>
    have hsame : p.stream.take c = p.stream := take_of_original horiginal
    exact hp m (hsame ▸ hm)
  | none =>
    have hmessages : (p.stream.take c).messages = p.stream.messages ++ [p.stream.stored c] := by
      rw [take_of_new horiginal]
    rcases List.mem_append.mp (hmessages ▸ hm) with hold | hlast
    · exact hp m hold
    · obtain rfl := List.mem_singleton.mp hlast
      obtain ⟨e, he, hsubject, hheaders, hpayload⟩ := hc
      exact ⟨e, he, hsubject.symm, hheaders, hpayload⟩

/-- INTERNAL: all publishers leave the stream authentic. -/
theorem authentic_upheld (T : EventTrait U E) :
    (publisherRules T).Upheld (Authentic T) fun _ _ => True := by
  refine publisherRules_upheld (fun p events hp m hm => ?_) (fun p c hp hc => hp.take hc)
    fun p elapsed hp => hp
  obtain ⟨e, he, hof⟩ := hp m hm
  exact ⟨e, List.mem_append_right _ he, hof⟩

/-- The invariant of the publishers: the stream is authentic, and they keep to the protocol. -/
abbrev published (T : EventTrait U E) : Local (allPublishers T) :=
  obeying (W := publications E) (publishJob T) (publisherRules T) (Authentic T)
    fun job => ReturnsReceipts T job.events

/-- INTERNAL: every publisher publishes what it was asked to. -/
theorem published_kept (T : EventTrait U E) :
    (published T).Kept (fun _ _ => True) Publications.Grows :=
  (authentic_upheld T).kept (W := publications E) ReturnsReceipts.stable
    fun _ _ _ _ _ => publishJob_obeys (List.subset_append_left ..)

/-! ## What workers call -/

variable {Γ : Deployment U E}

section

variable {R : Protocol (world Γ)} {d : Delivery Γ} {sh : Shared Γ}
  (hR : ∀ sh c, c.isHandle = false → R.legal sh d c)

include hR

omit [UuidCrate U]

/-- INTERNAL: whatever comes after a failure calls no handler. -/
theorem obeys_releaseAndNak (msgId : MessageId U) (delay : Duration) :
    (releaseAndNak msgId delay).Obeys R d (fun _ _ => True) sh :=
  ⟨hR _ _ rfl, fun _ _ _ _ => ⟨hR _ _ rfl, fun _ _ _ _ => trivial⟩⟩

/-- INTERNAL: the end of a message calls no handler.
SRC: subscriber.rs:578-586 -/
theorem obeys_markDoneAndTerm (msgId : MessageId U) :
    (markDoneAndTerm msgId).Obeys R d (fun _ _ => True) sh :=
  ⟨hR _ _ rfl, fun _ _ _ _ => ⟨hR _ _ rfl, fun _ _ _ _ => trivial⟩⟩

/-- INTERNAL: a NAK calls no handler.
SRC: subscriber.rs:139-143 -/
theorem obeys_nakOrWarn (delay : Duration) : (nakOrWarn delay).Obeys R d (fun _ _ => True) sh :=
  ⟨hR _ _ rfl, fun _ _ _ _ => trivial⟩

/-- INTERNAL: an ack calls no handler.
SRC: subscriber.rs:133-137 -/
theorem obeys_doubleAckOrWarn : doubleAckOrWarn.Obeys R d (fun _ _ => True) sh :=
  ⟨hR _ _ rfl, fun _ _ _ _ => trivial⟩

variable [UuidCrate U]

/-- INTERNAL: a dead letter calls no handler.
SRC: subscriber.rs:524-586 -/
theorem obeys_handleTerminalFailure (msg : Message) (processingOptions : ProcessingOptions)
    (failure : TerminalFailure U) :
    (handleTerminalFailure msg processingOptions failure).Obeys R d (fun _ _ => True) sh := by
  unfold handleTerminalFailure
  cases processingOptions.dlqOpts with
  | none => exact obeys_markDoneAndTerm hR failure.msgId
  | some dlqOpts =>
    refine ⟨hR _ _ rfl, fun _ failedAt _ _ => ?_⟩
    refine Prog.Obeys.bind (W := world Γ) (p := publishToDlq _ _ _ _) (Q := fun _ _ => True)
      ⟨hR _ _ rfl, fun _ _ _ _ => trivial⟩ fun _ published _ => ?_
    rcases published with e | ⟨⟩
    · exact obeys_releaseAndNak hR failure.msgId _
    · exact obeys_markDoneAndTerm hR failure.msgId

/-- INTERNAL: whatever comes after a handler calls no other. -/
theorem obeys_afterHandler (msg : Message) (processingOptions : ProcessingOptions) (info : Info)
    (msgId : MessageId U) (result : Except HandlerError Unit) :
    (afterHandler msg processingOptions info msgId result).Obeys R d (fun _ _ => True) sh := by
  unfold afterHandler
  rcases result with (reason | reason) | ⟨⟩
  · simp only
    split
    · exact obeys_handleTerminalFailure hR msg processingOptions _
    · exact obeys_releaseAndNak hR msgId _
  · exact obeys_handleTerminalFailure hR msg processingOptions _
  · exact ⟨hR _ _ rfl, fun _ _ _ _ => obeys_doubleAckOrWarn hR⟩

end

/-- The handler is called with the event of the delivery and the context of the delivery. -/
def HandlesOwn (d : Delivery Γ) : Call U E → Prop
  | .handle ctx event =>
    d.readable = true ∧ ctx = handlerCtx d ∧ Γ.fromSlice d.sub d.msg.payload = .ok event
  | _ => True

/-- What workers keep to: they call handlers with what they were given, whatever happens
around them. -/
def workerRules (Γ : Deployment U E) : Protocol (world Γ) where
  grows _ _ := True
  legal _ := HandlesOwn
  told _ _ _ _ := True

/-- **A worker calls its handler with its own event.** -/
theorem processMessage_obeys (d : Delivery Γ) (sh : Shared Γ) :
    (processMessage (Γ.fromSlice d.sub) d.msg d.options).Obeys (workerRules Γ) d
      (fun _ _ => True) sh := by
  have hother : ∀ (sh : Shared Γ) (c : Call U E), c.isHandle = false →
      (workerRules Γ).legal sh d c := by
    intro sh c hc
    cases c with
    | handle ctx event => cases hc
    | _ => trivial
  unfold processMessage
  split
  · trivial
  · rename_i info hinfo
    refine ⟨trivial, fun _ outcome _ _ => ?_⟩
    rcases outcome with e | (_ | _ | _)
    · exact obeys_nakOrWarn hother _
    · show Prog.Obeys (W := world Γ) _ _ _ (afterClaim _ _ _ _ _) _
      unfold afterClaim
      cases hevent : Γ.fromSlice d.sub d.msg.payload with
      | error e => exact obeys_handleTerminalFailure hother _ _ _
      | ok event =>
        refine ⟨⟨?_, ?_, hevent⟩, fun _ result _ _ => ?_⟩
        · simp only [Delivery.readable, hinfo]
          rfl
        · simp only [handlerCtx, Delivery.msgId, Delivery.info, hinfo]
        · exact obeys_afterHandler hother _ _ _ _ result
    · exact obeys_nakOrWarn hother _
    · exact obeys_doubleAckOrWarn hother

/-- The invariant of the workers: they keep to their protocol. -/
abbrev ownHandlers (Γ : Deployment U E) : Local (codeMachine Γ) :=
  obeying (W := world Γ) (fun d => processMessage (Γ.fromSlice d.sub) d.msg d.options)
    (workerRules Γ) (fun _ => True) fun _ _ _ => True

/-- INTERNAL: the workers restrict nothing that is shared. -/
theorem workerRules_upheld (Γ : Deployment U E) :
    (workerRules Γ).Upheld (fun _ => True) fun _ _ => True where
  refl _ := trivial
  trans _ _ := trivial
  legal_stable _ h := h
  enlist _ _ _ _ _ := ⟨trivial, trivial⟩
  reach _ _ _ _ _ _ := ⟨trivial, trivial⟩
  effect _ _ _ _ _ _ _ _ := ⟨trivial, trivial⟩
  answer _ _ _ _ _ _ _ := trivial
  failure _ _ _ _ _ _ := trivial
  drift _ _ _ := ⟨trivial, trivial⟩

/-- INTERNAL: a handler is called with what its delivery holds. -/
theorem ownHandlers_kept (Γ : Deployment U E) :
    (ownHandlers Γ).Kept (fun _ _ => True) fun _ _ => True :=
  (workerRules_upheld Γ).kept (W := world Γ) (fun _ _ => trivial)
    fun _ d _ _ _ => processMessage_obeys d _

/-! ## The way of an event -/

/-- INTERNAL: what a stream can deliver it can deliver when it has grown. -/
theorem delivers_mono {stream stream' : EventStream}
    (hmessages : stream.messages ⊆ stream'.messages)
    (hname : stream.name = stream'.name) {opts : SubscribeOptions} {msg : Message}
    (h : stream.delivers opts msg = true) : stream'.delivers opts msg = true := by
  unfold EventStream.delivers at h ⊢
  obtain ⟨hsource, hmsg⟩ := Bool.and_eq_true_iff.mp h
  obtain ⟨m, hm, hcarried⟩ := List.any_eq_true.mp hmsg
  rw [← hname]
  exact Bool.and_eq_true_iff.mpr ⟨hsource, List.any_eq_true.mpr ⟨m, hmessages hm, hcarried⟩⟩

/-- Every worker was started for a message that the stream has stored. -/
def Stocked {P : Type} (opts : Γ.Sub → SubscribeOptions) (stream : EventStream)
    (workers : State (world Γ) P) : Prop :=
  ∀ i th, workers.threads i = some th → stream.delivers (opts th.job.sub) th.job.msg = true

/-- What is kept of the publishers and the bus. -/
structure Flows (T : EventTrait U E) (opts : Γ.Sub → SubscribeOptions)
    (x : State (publications E) (allPublishers T).Point × BusState Γ (codeMachine Γ).Point) :
    Prop where
  published : (published T).Holds x.1
  stocked : Stocked opts x.1.shared.stream x.2.2
  handles : (ownHandlers Γ).Holds x.2.2

variable [DecidableEq Γ.Sub] {number : Γ.Sub × ℕ ↪ ℕ} {opts : Γ.Sub → SubscribeOptions}
  {x x' : State (publications E) (allPublishers T).Point × BusState Γ (codeMachine Γ).Point}
  {g : FlowAction Γ}

/-- INTERNAL: a step is one of the publishers, or it leaves them alone and the workers too, or
it is one of the workers, and starts one for a message that is there to be delivered. -/
theorem flowStep_cases (h : flowStep T opts number (codeMachine Γ) x g = some x') :
    (∃ a, Lib.step (allPublishers T) x.1 a = some x'.1 ∧ x'.2 = x.2) ∨
      (x'.1 = x.1 ∧ x'.2.2 = x.2.2) ∨
      (x'.1 = x.1 ∧ ∃ a, Lib.step (codeMachine Γ) x.2.2 a = some x'.2.2 ∧
        ∀ i d, a = .spawn i d → x.1.shared.stream.delivers (opts d.sub) d.msg = true) := by
  obtain ⟨hmay, hleft, hright⟩ := Coupling.step_eq_some.mp h
  cases g with
  | publish a => exact .inl ⟨a, hleft, (Option.some.inj hright).symm⟩
  | bus g =>
    have hsame : x'.1 = x.1 := (Option.some.inj hleft).symm
    have hbus : busStep number (codeMachine Γ) x.2 g = some x'.2 := hright
    rcases threads_of_busStep hbus with hworkers | ⟨a, ha, hspawn⟩
    · exact .inr (.inl ⟨hsame, hworkers⟩)
    · refine .inr (.inr ⟨hsame, a, ha, fun i d heq => ?_⟩)
      obtain ⟨n, rfl⟩ := hspawn i d heq
      exact hmay

omit [DecidableEq Γ.Sub] in
/-- INTERNAL: the publishers take nothing away from what a consumer has to deliver. -/
theorem delivers_of_publish {p p' : State (publications E) (allPublishers T).Point}
    {a : Action (publications E)} (h : Lib.step (allPublishers T) p a = some p')
    (hp : (published T).Holds p) {opts : SubscribeOptions} {msg : Message}
    (hmsg : p.shared.stream.delivers opts msg = true) :
    p'.shared.stream.delivers opts msg = true := by
  have hgrows := (published_kept T).grown
    Publications.Grows.refl h (fun _ _ _ => trivial) hp
  exact delivers_mono hgrows.1 hgrows.2.2 hmsg

/-- **A step of the publishers or of the bus keeps the flow.** -/
theorem Flows.step (h : flowStep T opts number (codeMachine Γ) x g = some x')
    (hx : Flows T opts x) : Flows T opts x' := by
  rcases flowStep_cases h with ⟨a, ha, hsame⟩ | ⟨hsame, hworkers⟩ | ⟨hsame, a, ha, hspawn⟩
  · refine ⟨(published_kept T).step ha (fun _ _ _ => trivial) hx.published, ?_, ?_⟩
    · rw [hsame]
      exact fun i th hi => delivers_of_publish ha hx.published (hx.stocked i th hi)
    · rw [hsame]
      exact hx.handles
  · refine ⟨hsame ▸ hx.published, ?_, ?_⟩
    · rw [hsame, hworkers]
      exact hx.stocked
    · rw [hworkers]
      exact hx.handles
  · refine ⟨hsame ▸ hx.published, ?_, ?_⟩
    · intro i th hi
      rw [hsame]
      rcases (step_cases ha).job_cases hi with ⟨th₀, hbefore, hjob⟩ | hnew
      · rw [hjob]
        exact hx.stocked i th₀ hbefore
      · exact hspawn i th.job hnew
    · exact (ownHandlers_kept Γ).step ha (fun _ _ _ => trivial) hx.handles

omit [DecidableEq Γ.Sub] in
/-- INTERNAL: a worker that was given the message of an event works under the id of the
event. -/
theorem msgId_of_carried (hround : ∀ u : U, UuidCrate.parseStr (UuidCrate.toStr u) = some u)
    {m : StoredMessage} {e : E} (hm : StoredMessage.isOf T m e) {d : Delivery Γ}
    (hd : m.carriedBy d.msg = true) : d.msgId = T.messageId e := by
  have hheaders : d.msg.headers = some m.headers := by
    unfold StoredMessage.carriedBy at hd
    simp only [Bool.and_eq_true, decide_eq_true_eq] at hd
    exact hd.1.1.2
  have hid : (m.headers.get hdrNatsMsgId).bind (MessageId.fromStr (U := U)) =
      some (T.messageId e) := by
    have hget : (HeaderMap.insert [] hdrNatsMsgId (T.msgId e)).get hdrNatsMsgId =
        some (T.msgId e) := by
      simp [HeaderMap.insert, HeaderMap.get]
    rw [hm.2.1, hget]
    show (UuidCrate.parseStr (UuidCrate.toStr (T.messageId e).uuid)).map MessageId.mk = _
    rw [hround]
    rfl
  unfold Delivery.msgId messageId
  rw [hheaders, Option.bind_some, hid]
  rfl

/-- What it means that a handler is called as its event was published: there is a stored
message of an event that was asked for, which the filter lets through; the handler is told the
id, the subject and the sequence number of that message, and its event is read from the
payload. -/
def AsPublished (T : EventTrait U E) (opts : Γ.Sub → SubscribeOptions) (p : Publications E)
    (sub : Γ.Sub) (ctx : HandlerCtx U) (event : E) : Prop :=
  ∃ e ∈ p.asked, ∃ m ∈ p.stream.messages, StoredMessage.isOf T m e ∧
    Topic.passes (opts sub).filter m.subject = true ∧ ctx.msgId = T.messageId e ∧
    ctx.subject = T.subject e ∧ ctx.streamSeq = m.sequence ∧
    Γ.fromSlice sub m.payload = .ok event

omit [DecidableEq Γ.Sub] in
/-- INTERNAL: a handler is called with what was published. -/
theorem Flows.asPublished (hround : ∀ u : U, UuidCrate.parseStr (UuidCrate.toStr u) = some u)
    (hx : Flows T opts x) {i : ℕ} {d : Delivery Γ} {ctx : HandlerCtx U} {event : E}
    (hi : (look (codeMachine Γ) x.2.2).awaits i = some (d, .handle ctx event)) :
    AsPublished T opts x.1.shared d.sub ctx event := by
  obtain ⟨hreadable, rfl, hevent⟩ := legal_of_awaits hx.handles hi
  have hdelivers : x.1.shared.stream.delivers (opts d.sub) d.msg = true := by
    obtain ⟨th, hth, rfl⟩ := thread_of_awaits hi
    exact hx.stocked i th hth
  unfold EventStream.delivers at hdelivers
  obtain ⟨m, hm, hboth⟩ := List.any_eq_true.mp (Bool.and_eq_true_iff.mp hdelivers).2
  obtain ⟨hcarried, hpasses⟩ := Bool.and_eq_true_iff.mp hboth
  obtain ⟨e, he, hof⟩ := hx.published.shared m hm
  refine ⟨e, he, m, hm, hof, hpasses, msgId_of_carried hround hof hcarried, ?_⟩
  unfold StoredMessage.carriedBy at hcarried
  simp only [Bool.and_eq_true, decide_eq_true_eq] at hcarried
  obtain ⟨⟨⟨hsubject, -⟩, hpayload⟩, hsequence⟩ := hcarried
  refine ⟨hsubject.trans hof.1, ?_, hpayload ▸ hevent⟩
  unfold Delivery.readable at hreadable
  show d.info.streamSequence = m.sequence
  unfold Delivery.info
  cases hinfo : d.msg.info with
  | error error =>
    rw [hinfo] at hreadable
    cases hreadable
  | ok info =>
    rw [hinfo] at hsequence
    exact of_decide_eq_true hsequence

/-- INTERNAL: the flow is kept through every run that starts with an empty stream and no
workers. -/
theorem flows_always (T : EventTrait U E) (number : Γ.Sub × ℕ ↪ ℕ)
    (opts : Γ.Sub → SubscribeOptions) (stream : EventStream) (hempty : stream.messages = [])
    (tasks : Γ.Sub → LoopState) (sh : Shared Γ) (gs : List (FlowAction Γ)) :
    Always (flowStep T opts number (codeMachine Γ)) (Flows T opts)
      (fresh (allPublishers T) ⟨stream, []⟩, tasks, fresh (codeMachine Γ) sh) gs := by
  refine always_of_step (fun _ _ _ h hx => hx.step h) ⟨.fresh ?_, nofun, .fresh trivial⟩
  intro m hm
  rw [hempty] at hm
  cases hm

/-- INTERNAL: a UUID is read back. -/
theorem parseStr_toStr (u : HyphenatedUuid) : UuidCrate.parseStr (UuidCrate.toStr u) = some u :=
  dif_pos u.property

end EventBus.Analysis
