import EventBus.Analysis.DrainComplete
import EventBus.Analysis.Settlement
import EventBus.Interface.BusSteps

/-!
# The workers of a subscription

What the task of a subscription promises of its book is a promise about its workers, since the
two are tied.  `workers_bounded` carries the bound on the permits to the threads: however the
tasks and the workers of all subscriptions interleave, no more of them live than permits were
made.

`drained_settled` says what a drain that has returned `true` leaves.  A worker comes to its end
from the call that settles its message only, whether or not that call succeeds; and a worker that
does not return has left its handler by a panic, which `Course` follows from its claim on.
-/

set_option autoImplicit false

namespace EventBus.Analysis

open EventBus.Model EventBus.Lib EventBus.Interface

variable {U E : Type} [UuidCrate U] {Γ : Deployment U E} [DecidableEq Γ.Sub]
  {number : Γ.Sub × ℕ ↪ ℕ}

/-! ## How many live -/

omit [UuidCrate U] [DecidableEq Γ.Sub] in
/-- INTERNAL: the workers that live are on the list of their subscription. -/
theorem length_le_running {M : Machine (world Γ)} {x : BusState Γ M.Point}
    (hx : Tied number M x) {sub : Γ.Sub} {is : List ℕ} (hnodup : is.Nodup)
    (his : ∀ i ∈ is, WorksFor (look M x.2) sub i) : is.length ≤ (x.1 sub).running.length := by
  have hsubset : is ⊆ (x.1 sub).running.map fun n => number (sub, n) := by
    intro i hi
    obtain ⟨hlive, th, hth, hjob⟩ := his i hi
    rw [look_threads] at hth
    obtain ⟨th₀, hth₀, rfl⟩ := Option.map_eq_some_iff.mp hth
    obtain ⟨n, hn⟩ := hx.numbered i th₀ hth₀
    have hsub : th₀.job.sub = sub := hjob
    rw [hsub] at hn
    subst hn
    exact List.mem_map_of_mem ((hx.agrees sub).live n hlive)
  have hle := hnodup.length_le_of_subset hsubset
  rwa [List.length_map] at hle

/-- **Never more workers than permits.**  Take any subscriptions over one store, and any run of
their tasks and workers, with faults, panics and aborts.  In every state, the workers of a
subscription that live are at most `concurrency`.
SRC: subscriber.rs:192, subscriber.rs:319-328 -/
theorem workers_bounded (Γ : Deployment U E) [DecidableEq Γ.Sub] (number : Γ.Sub × ℕ ↪ ℕ)
    (opts : Γ.Sub → SubscribeOptions) (tasks : Γ.Sub → LoopState)
    (hstart : ∀ sub, LoopState.start (opts sub) = some (tasks sub)) (sh : Shared Γ)
    (gs : List (BusAction Γ)) :
    Always (busStep number (codeMachine Γ))
      (fun x => ∀ (sub : Γ.Sub) (is : List ℕ), is.Nodup →
        (∀ i ∈ is, WorksFor (look (codeMachine Γ) x.2) sub i) →
          is.length ≤ (opts sub).concurrency)
      (tasks, fresh (codeMachine Γ) sh) gs := by
  have hbalanced : Always (busStep number (codeMachine Γ))
      (fun x => ∀ sub, InBalance (opts sub).concurrency (x.1 sub))
      (tasks, fresh (codeMachine Γ) sh) gs := by
    refine Coupling.always_left (x := (tasks, fresh (codeMachine Γ) sh))
      (Q := fun tasks => ∀ sub, InBalance (opts sub).concurrency (tasks sub)) ?_
    refine always_of_step (fun _ _ _ h hs => ?_) fun sub => balanced_start (hstart sub)
    exact each_keeps (I := fun sub => InBalance (opts sub).concurrency)
      (fun _ _ _ _ hl => balanced_step hl) h hs
  have htied : Always (busStep number (codeMachine Γ)) (Tied number (codeMachine Γ))
      (tasks, fresh (codeMachine Γ) sh) gs :=
    always_of_step (fun _ _ _ h hx => hx.step h) (Tied.fresh hstart sh)
  refine (always_and.mpr ⟨hbalanced, htied⟩).mono ?_
  rintro x ⟨hbalance, htie⟩ sub is hnodup his
  have hle := length_le_running htie hnodup his
  have hsum := hbalance sub
  unfold InBalance at hsum
  omega

/-! ## The course of a worker -/

/-- The call tells the server what became of the message. -/
def Call.isSettlement : Call U E → Bool
  | .doubleAck | .nakWithDelay _ | .term => true
  | _ => false

/-- Worker `i` makes the call that settles the message of the delivery: it acks, naks or terms
it, or tries to.
SRC: subscriber.rs:133-149 -/
def Answering (s : State (world Γ) (Option (Call U E))) (i : ℕ) (d : Delivery Γ) : Prop :=
  ∃ c, s.awaits i = some (d, c) ∧ Call.isSettlement c = true

/-- The handler of worker `i` has begun. -/
def Began (log : List (Entry Γ)) (i : ℕ) : Prop :=
  ∃ e ∈ log, e.worker = i ∧ e.what = .began

/-- The handler of worker `i` has not returned. -/
def Unreturned (log : List (Entry Γ)) (i : ℕ) : Prop :=
  ∀ e ∈ log, e.worker = i → ∀ result, e.what ≠ .handled result

/-- The points of a worker up to its handler. -/
def UpToHandler : Point E → Prop
  | .claim | .handle _ => True
  | _ => False

/-- A worker whose handler has not returned is on record as such, and the record has a handler
that runs. -/
structure Course (s : State (world Γ) (Point E)) : Prop where
  unborn : ∀ i, s.threads i = none → Unreturned s.shared.log i
  unreturned : ∀ i d p, s.sites i = some (d, p) → UpToHandler p → Unreturned s.shared.log i
  began : ∀ i d event, s.threads i = some ⟨d, .waiting (.handle event)⟩ → Began s.shared.log i
  underWay : ∀ i d c, (i, d, c) ∈ s.detached → c.isHandle = false

section

variable {d : Delivery Γ} {p : Point E} {c : Call U E} {k : c.Resp → Point E} {r : c.Resp}

omit [DecidableEq Γ.Sub] [UuidCrate U]

/-- INTERNAL: failing for good comes after the handler and before the end. -/
theorem terminal_later (d : Delivery Γ) (cause : Cause) :
    (Point.terminal d cause : Point E) ≠ .finished ∧
      ¬ UpToHandler (Point.terminal d cause : Point E) := by
  unfold Point.terminal
  cases d.options.dlqOpts <;> exact ⟨nofun, id⟩

/-- INTERNAL: what follows the handler comes before the end. -/
theorem afterHandler_later (d : Delivery Γ) (result : Except HandlerError Unit) :
    (Point.afterHandler d result : Point E) ≠ .finished ∧
      ¬ UpToHandler (Point.afterHandler d result : Point E) := by
  rcases result with (reason | reason) | ⟨⟩
  · simp only [Point.afterHandler]
    split
    · exact terminal_later d _
    · exact ⟨fun heq => (by cases heq), id⟩
  · exact terminal_later d _
  · exact ⟨fun heq => (by cases heq), id⟩

/-- INTERNAL: what follows the dead letter comes before the end. -/
theorem afterPublish_later (config : DlqConfig) (published : Except PublishFailure Unit) :
    (Point.afterPublish config published : Point E) ≠ .finished ∧
      ¬ UpToHandler (Point.afterPublish config published : Point E) := by
  rcases published with failure | ⟨⟩ <;> exact ⟨nofun, id⟩

/-- INTERNAL: no worker returns from its claim. -/
theorem afterTryClaim_ne_finished (d : Delivery Γ) (outcome : Except BusError ClaimOutcome) :
    (Point.afterTryClaim d outcome : Point E) ≠ .finished := by
  rcases outcome with e | (_ | _ | _)
  · nofun
  · unfold Point.afterTryClaim Point.afterClaim
    simp only
    split
    · exact (terminal_later d _).1
    · nofun
  · nofun
  · nofun

variable [UuidCrate U]

/-- INTERNAL: a worker returns from the call that settles its message. -/
theorem settles_of_finished (hv : Point.view d p = some ⟨c, k⟩) (hr : k r = .finished) :
    Call.isSettlement c = true := by
  cases p with
  | claim =>
    cases hv
    exact absurd hr (afterTryClaim_ne_finished d r)
  | handle event =>
    cases hv
    exact absurd hr (afterHandler_later d r).1
  | publish config cause failedAt =>
    cases hv
    exact absurd hr (afterPublish_later config r).1
  | markAck | stamp config cause | markTerm | release delay =>
    cases hv
    cases hr
  | ack | term | nak delay =>
    cases hv
    rfl
  | finished => cases hv

/-- INTERNAL: a worker comes to its handler from its claim. -/
theorem claim_of_upToHandler (hv : Point.view d p = some ⟨c, k⟩) (hr : UpToHandler (k r)) :
    p = .claim := by
  cases p with
  | claim => rfl
  | handle event =>
    cases hv
    exact absurd hr (afterHandler_later d r).2
  | publish config cause failedAt =>
    cases hv
    exact absurd hr (afterPublish_later config r).2
  | markAck | ack | stamp config cause | markTerm | term | release delay | nak delay =>
    cases hv
    exact hr.elim
  | finished => cases hv
/-- INTERNAL: a call that fails brings no worker to its handler, and to its end only from a
call that settles its message. -/
theorem lost_later {d' : Delivery Γ} {p' : Point E}
    (h : Lost (pointMachine Γ) d p (some (d', p'))) :
    d' = d ∧ ¬ UpToHandler p' ∧
      (p' = .finished → ∃ c, (pointMachine Γ).head d p = some c ∧ Call.isSettlement c = true) := by
  cases h with
  | @failed c k r err hv hr =>
    refine ⟨rfl, fun hup => ?_, fun hend => ?_⟩
    · obtain rfl := claim_of_upToHandler hv hup
      cases hv
      obtain rfl := Option.some.inj hr
      exact hup
    · exact ⟨c, Machine.head_of_view hv, settles_of_finished hv hend⟩

end

section

variable {s s' : State (world Γ) (Point E)} {a : Action (world Γ)}

omit [DecidableEq Γ.Sub]

/-- INTERNAL: nothing is taken out of the log. -/
theorem log_grows (h : Lib.step (pointMachine Γ) s a = some s') : s.shared.log ⊆ s'.shared.log := by
  cases (step_cases h).move with
  | spawn i d ha hi hsites hshared hdet =>
    rw [hshared, spawn_eq]
    exact List.subset_cons_self ..
  | reach i d p ha hi hsites hshared hdet =>
    rw [hshared, reachPoint_eq]
    exact log_subset_addLine ..
  | serve i ch d p c k ha hi hv hsites hshared hdet =>
    rw [hshared]
    exact log_subset_effect ..
  | drop i d p next ha hi hnext hsites hshared hdet =>
    rw [hshared]
    exact List.Subset.refl _
  | act i ch d p c next ha hi hc hlose hnext hsites hshared hdet =>
    rw [hshared]
    exact log_subset_effect ..
  | defer i d p c next ha hi hc hlose hnext hsites hshared hdet =>
    rw [hshared]
    exact List.Subset.refl _
  | land n ch i d c ha hn hsites hshared hdet =>
    rw [hshared]
    exact log_subset_effect ..
  | drift e ha hsites hshared hdet =>
    rw [hshared]
    exact List.Subset.refl _

omit [UuidCrate U] in
/-- INTERNAL: only a handler call leaves the line that a handler has returned. -/
theorem isHandle_of_noted {seen : Bool} {c : Call U E} {ch : Choice Γ} {sh : Shared Γ}
    {w : Occurrence} (hnoted : noted seen c ch sh = some w) {result : Except HandlerError Unit}
    (hw : w = .handled result) : c.isHandle = true := by
  subst hw
  cases notes_of_noted hnoted with
  | handled ctx event => rfl

omit [UuidCrate U] in
/-- INTERNAL: no handler call can be lost. -/
theorem not_isHandle_of_losable {c : Call U E} (h : Losable (world Γ) c) : c.isHandle = false := by
  have hremote := isRemote_of_losable h
  cases c <;> first | rfl | cases hremote

/-- INTERNAL: a line that a handler has returned is old, or its worker is served at its
handler. -/
theorem handled_of_step (h : Lib.step (pointMachine Γ) s a = some s')
    (hs : ∀ i d c, (i, d, c) ∈ s.detached → c.isHandle = false) {e : Entry Γ}
    {result : Except HandlerError Unit} (he : e ∈ s'.shared.log) (hw : e.what = .handled result) :
    e ∈ s.shared.log ∨ ∃ d event r, s.threads e.worker = some ⟨d, .waiting (.handle event)⟩ ∧
      s'.sites e.worker = some (d, Point.afterHandler d r) := by
  rcases line_of_step h he with hold | hnew
  · exact .inl hold
  right
  cases hnew with
  | delivered hwhat | began hwhat => cases hwhat.symm.trans hw
  | @served p c k ch hi hv hnoted hsite =>
    have hhandle := isHandle_of_noted hnoted hw
    cases p with
    | handle event =>
      cases hv
      exact ⟨e.delivery, event, ch.handler, hi, hsite⟩
    | finished => cases hv
    | _ =>
      cases hv
      cases hhandle
  | lost hi hc hlose hnoted =>
    cases (isHandle_of_noted hnoted hw).symm.trans (not_isHandle_of_losable hlose)
  | landed hmem hnoted => cases (isHandle_of_noted hnoted hw).symm.trans (hs _ _ _ hmem)

/-- INTERNAL: a worker that awaits its handler is suspended at it. -/
theorem handle_of_awaits {i : ℕ} {d : Delivery Γ} {c : Call U E}
    (hi : (look (pointMachine Γ) s).awaits i = some (d, c)) (hc : c.isHandle = true) :
    ∃ event, s.threads i = some ⟨d, .waiting (.handle event)⟩ := by
  obtain ⟨p, hp, hhead⟩ := waiting_of_awaits hi
  cases p with
  | handle event => exact ⟨event, hp⟩
  | finished => cases hhead
  | _ =>
    obtain rfl := Option.some.inj hhead
    cases hc

/-- INTERNAL: a worker that moves to a point up to its handler was there, or is new. -/
theorem upToHandler_of_step (h : Lib.step (pointMachine Γ) s a = some s') {i : ℕ}
    {d : Delivery Γ} {p : Point E} (hi : s'.sites i = some (d, p)) (hp : UpToHandler p) :
    s.threads i = none ∨ ∃ p, s.sites i = some (d, p) ∧ UpToHandler p := by
  have moved : ∀ {j : ℕ} {next : Option (Delivery Γ × Point E)},
      s'.sites = Function.update s.sites j next →
      (next = some (d, p) → i = j → s.threads i = none ∨
        ∃ p, s.sites i = some (d, p) ∧ UpToHandler p) →
      s.threads i = none ∨ ∃ p, s.sites i = some (d, p) ∧ UpToHandler p := by
    intro j next hsites hnext
    rcases update_cases hsites hi with ⟨hij, hnew⟩ | hold
    · exact hnext hnew hij
    · exact .inr ⟨p, hold, hp⟩
  cases (step_cases h).move with
  | spawn j d' ha hj hsites hshared hdet =>
    exact moved hsites fun _ hij => .inl (hij ▸ hj)
  | reach j d' p' ha hj hsites hshared hdet => exact .inr ⟨p, hsites ▸ hi, hp⟩
  | serve j ch d' p' c k ha hj hv hsites hshared hdet =>
    refine moved hsites fun hnext hij => .inr ?_
    obtain ⟨rfl, rfl⟩ := Prod.mk.inj (Option.some.inj hnext)
    obtain rfl := claim_of_upToHandler hv hp
    rw [hij]
    exact ⟨.claim, sites_of_threads s j hj, trivial⟩
  | drop j d' p' next ha hj hnext hsites hshared hdet =>
    refine moved hsites fun heq _ => absurd hp ?_
    exact (lost_later (heq ▸ hnext)).2.1
  | act j ch d' p' c next ha hj hc hlose hnext hsites hshared hdet =>
    refine moved hsites fun heq _ => absurd hp ?_
    exact (lost_later (heq ▸ hnext)).2.1
  | defer j d' p' c next ha hj hc hlose hnext hsites hshared hdet =>
    refine moved hsites fun heq _ => absurd hp ?_
    exact (lost_later (heq ▸ hnext)).2.1
  | land n ch j d' c ha hn hsites hshared hdet => exact .inr ⟨p, hsites ▸ hi, hp⟩
  | drift e ha hsites hshared hdet => exact .inr ⟨p, hsites ▸ hi, hp⟩

/-- INTERNAL: a handler that has not returned goes on. -/
theorem Unreturned.step (h : Lib.step (pointMachine Γ) s a = some s') {i : ℕ}
    (hs : ∀ i d c, (i, d, c) ∈ s.detached → c.isHandle = false)
    (hold : Unreturned s.shared.log i)
    (hi : ∀ d r, s'.sites i ≠ some (d, Point.afterHandler d r)) :
    Unreturned s'.shared.log i := by
  rintro e he rfl result hw
  rcases handled_of_step h hs he hw with hmem | ⟨d, event, r, -, hsite⟩
  · exact hold e hmem rfl result hw
  · exact hi d r hsite

/-- INTERNAL: a worker at its handler has just come to it, or was there. -/
theorem Began.step (h : Lib.step (pointMachine Γ) s a = some s') (hs : Course s) {i : ℕ}
    {d : Delivery Γ} {event : E} (hi : s'.threads i = some ⟨d, .waiting (.handle event)⟩) :
    Began s'.shared.log i := by
  rcases (step_cases h).waiting_cases hi with hold | ⟨-, hshared⟩ | ⟨-, hstart⟩
  · obtain ⟨e, he, hbegan⟩ := hs.began i d event hold
    exact ⟨e, log_grows h he, hbegan⟩
  · rw [hshared, reachPoint_eq]
    exact ⟨⟨i, d, s.shared.now, .began⟩, List.mem_cons_self, rfl, rfl⟩
  · rcases start_cases d with hclaim | hfinished
    · cases hstart.trans hclaim
    · cases hstart.trans hfinished

/-- INTERNAL: a worker that returns in this step makes the call that settles its message, unless
it cannot read it. -/
theorem settling_of_finished (h : Lib.step (pointMachine Γ) s a = some s') {i : ℕ}
    {d : Delivery Γ} (hd : d.readable = true) (hi : s'.sites i = some (d, .finished)) :
    s.sites i = some (d, .finished) ∨ Answering (look (pointMachine Γ) s) i d := by
  have moved : ∀ {j : ℕ} {next : Option (Delivery Γ × Point E)},
      s'.sites = Function.update s.sites j next →
      (next = some (d, .finished) → Answering (look (pointMachine Γ) s) j d) →
      s.sites i = some (d, .finished) ∨ Answering (look (pointMachine Γ) s) i d := by
    intro j next hsites hnext
    rcases update_cases hsites hi with ⟨rfl, hnew⟩ | hold
    · exact .inr (hnext hnew)
    · exact .inl hold
  -- a call that is lost brings its worker to the end only if it settles the message
  have lost : ∀ {j : ℕ} {d' : Delivery Γ} {p : Point E} {next : Option (Delivery Γ × Point E)},
      s.threads j = some ⟨d', .waiting p⟩ → Lost (pointMachine Γ) d' p next →
      next = some (d, .finished) → Answering (look (pointMachine Γ) s) j d := by
    rintro j d' p next hj hnext rfl
    obtain ⟨rfl, -, hend⟩ := lost_later hnext
    obtain ⟨c, hc, hsettles⟩ := hend rfl
    exact ⟨c, look_waiting hj hc, hsettles⟩
  cases (step_cases h).move with
  | spawn j d' ha hj hsites hshared hdet =>
    refine moved hsites fun hnext => ?_
    obtain ⟨rfl, hstart⟩ := Prod.mk.inj (Option.some.inj hnext)
    have hclaim : (pointMachine Γ).start d' = Point.claim := if_pos hd
    cases hclaim.symm.trans hstart
  | reach j d' p ha hj hsites hshared hdet => exact .inl (hsites ▸ hi)
  | serve j ch d' p c k ha hj hv hsites hshared hdet =>
    refine moved hsites fun hnext => ?_
    obtain ⟨rfl, hend⟩ := Prod.mk.inj (Option.some.inj hnext)
    have hc : (pointMachine Γ).head d' p = some c := Machine.head_of_view hv
    exact ⟨c, look_waiting hj hc, settles_of_finished hv hend⟩
  | drop j d' p next ha hj hnext hsites hshared hdet =>
    refine moved hsites fun heq => ?_
    rcases ha with ⟨hwaiting, -⟩ | ⟨-, fate, ch, -, hnone⟩
    · exact lost hwaiting hnext heq
    · cases hnone.symm.trans heq
  | act j ch d' p c next ha hj hc hlose hnext hsites hshared hdet =>
    exact moved hsites (lost hj hnext)
  | defer j d' p c next ha hj hc hlose hnext hsites hshared hdet =>
    exact moved hsites (lost hj hnext)
  | land n ch j d' c ha hn hsites hshared hdet => exact .inl (hsites ▸ hi)
  | drift e ha hsites hshared hdet => exact .inl (hsites ▸ hi)

/-- INTERNAL: only calls that are made by others are left under way. -/
theorem underWay_of_step (h : Lib.step (pointMachine Γ) s a = some s')
    (hs : ∀ i d c, (i, d, c) ∈ s.detached → c.isHandle = false) :
    ∀ i d c, (i, d, c) ∈ s'.detached → c.isHandle = false := by
  intro i d c hc
  cases (step_cases h).move with
  | defer j d' p c' next ha hj hc' hlose hnext hsites hshared hdet =>
    rw [hdet] at hc
    rcases List.mem_append.mp hc with hold | hnew
    · exact hs i d c hold
    · obtain ⟨rfl, rfl, rfl⟩ := by simpa using hnew
      exact not_isHandle_of_losable hlose
  | land n ch j d' c' ha hn hsites hshared hdet =>
    rw [hdet] at hc
    exact hs i d c (List.mem_of_mem_eraseIdx hc)
  | spawn j d' ha hj hsites hshared hdet => exact hs i d c (hdet ▸ hc)
  | reach j d' p ha hj hsites hshared hdet => exact hs i d c (hdet ▸ hc)
  | serve j ch d' p c' k ha hj hv hsites hshared hdet => exact hs i d c (hdet ▸ hc)
  | drop j d' p next ha hj hnext hsites hshared hdet => exact hs i d c (hdet ▸ hc)
  | act j ch d' p c' next ha hj hc' hlose hnext hsites hshared hdet => exact hs i d c (hdet ▸ hc)
  | drift e ha hsites hshared hdet => exact hs i d c (hdet ▸ hc)

/-- **A step keeps the course of every worker.** -/
theorem Course.step (h : Lib.step (pointMachine Γ) s a = some s') (hs : Course s) :
    Course s' where
  unborn i hi := by
    have hbefore : s.threads i = none := by
      cases hth : s.threads i with
      | none => rfl
      | some th =>
        obtain ⟨th', hth', -⟩ := (step_cases h).job_eq hth
        cases hi.symm.trans hth'
    refine (hs.unborn i hbefore).step h hs.underWay fun d r hsite => ?_
    rw [sites_none s' i hi] at hsite
    cases hsite
  unreturned i d p hi hp := by
    have hbefore : Unreturned s.shared.log i := by
      rcases upToHandler_of_step h hi hp with hnone | ⟨p₀, hp₀, hup⟩
      · exact hs.unborn i hnone
      · exact hs.unreturned i d p₀ hp₀ hup
    refine hbefore.step h hs.underWay fun d' r hsite => ?_
    obtain ⟨rfl, rfl⟩ := Prod.mk.inj (Option.some.inj (hi.symm.trans hsite))
    exact (afterHandler_later d r).2 hp
  began i d event hi := Began.step h hs hi
  underWay := underWay_of_step h hs.underWay

/-- INTERNAL: without workers all is in order. -/
theorem Course.fresh (now : ℕ) (store : Γ.store.State) (dlq : List DlqRecord) :
    Course (Lib.fresh (pointMachine Γ) (.initial now store dlq)) where
  unborn _ _ _ he := absurd he List.not_mem_nil
  unreturned _ _ _ hi := by cases hi
  began _ _ _ hi := by cases hi
  underWay _ _ _ hc := absurd hc List.not_mem_nil

end

/-! ## What a drain leaves -/

section

variable {x x' : BusState Γ (pointMachine Γ).Point} {g : BusAction Γ}

omit [UuidCrate U] in
/-- INTERNAL: a task that was cancelled stays so. -/
theorem cancelled_step {s s' : LoopState} {a : LoopAction} (h : s.step a = some s')
    (hs : s.point = .cancelled) : s'.point = .cancelled := by
  have other : ∀ {p : LoopPoint}, s.point = p → p ≠ .cancelled → s'.point = .cancelled :=
    fun hp hne => absurd (hp.symm.trans hs) hne
  cases loopStep_of_step h with
  | move hmove => exact absurd hs (idle_of_move hmove).1.not_cancelled
  | look hlook => exact absurd hs (idle_of_look hlook).1.not_cancelled
  | message hp => exact other hp nofun
  | joined hp hn => exact other hp nofun
  | joinedLast hp hn => exact other hp nofun
  | acquire hp hfree => exact other hp nofun
  | spawn hp => exact other hp nofun
  | allJoined hp hrunning hfinished => exact other hp nofun
  | finish hn hcancel => exact hs
  | drain hopen => exact hs
  | returned hdraining hp => exact hs
  | timeout hdraining hp => exact hs
  | drop hopen => exact hs
  | cancel haborted hp => rfl

/-- A worker that is dead was cancelled with its task, or its handler has not returned. -/
def Fell (number : Γ.Sub × ℕ ↪ ℕ) (x : BusState Γ (Point E)) : Prop :=
  ∀ sub n d, x.2.threads (number (sub, n)) = some ⟨d, .dead⟩ →
    (x.1 sub).point = .cancelled ∨
      (Began x.2.shared.log (number (sub, n)) ∧ Unreturned x.2.shared.log (number (sub, n)))

omit [UuidCrate U] in
/-- INTERNAL: the same for a step of the bus. -/
theorem cancelled_busStep {M : Machine (world Γ)} {x x' : BusState Γ M.Point}
    (h : busStep number M x g = some x') {sub : Γ.Sub} (hx : (x.1 sub).point = .cancelled) :
    (x'.1 sub).point = .cancelled := by
  refine stepIf_keeps (I := fun tasks : Γ.Sub → LoopState => (tasks sub).point = .cancelled) ?_
    (Coupling.step_eq_some.mp h).2.1 hx
  intro tasks a tasks' hstep htasks
  obtain ⟨l, hl, rfl⟩ := each_eq_some.mp hstep
  by_cases hsub : sub = a.1
  · subst hsub
    rw [Function.update_self]
    exact cancelled_step hl htasks
  · rw [Function.update_of_ne hsub]
    exact htasks

omit [DecidableEq Γ.Sub] in
/-- INTERNAL: the threads move, and whoever is aborted was cancelled or is in its handler. -/
theorem Fell.move {a : Action (world Γ)} {t : State (world Γ) (Point E)}
    {tasks : Γ.Sub → LoopState} (hx : Fell number x) (hcourse : Course x.2)
    (ht : Lib.step (pointMachine Γ) x.2 a = some t)
    (htasks : ∀ sub, (x.1 sub).point = .cancelled → (tasks sub).point = .cancelled)
    (hnew : ∀ sub n, a.aborts = some (number (sub, n)) → (tasks sub).point = .cancelled ∨
      (Began x.2.shared.log (number (sub, n)) ∧ Unreturned x.2.shared.log (number (sub, n)))) :
    Fell number (tasks, t) := by
  intro sub n d hi
  have hbefore : (tasks sub).point = .cancelled ∨
      (Began x.2.shared.log (number (sub, n)) ∧ Unreturned x.2.shared.log (number (sub, n))) := by
    rcases (step_cases ht).dead_cases hi with hold | haborts
    · exact (hx sub n d hold).imp_left (htasks sub)
    · exact hnew sub n haborts
  refine hbefore.imp_right fun hfell => ⟨?_, ?_⟩
  · obtain ⟨e, he, hbegan⟩ := hfell.1
    exact ⟨e, log_grows ht he, hbegan⟩
  · refine hfell.2.step ht hcourse.underWay fun d' r hsite => ?_
    rw [sites_of_threads t _ hi] at hsite
    cases hsite

omit [UuidCrate U] in
/-- INTERNAL: only a task that was cancelled cancels its workers. -/
theorem cancelled_of_finish {s s' : LoopState} {n : ℕ}
    (h : s.step (.finish n .cancelled) = some s') : s.point = .cancelled := by
  cases loopStep_of_step h with
  | move hmove => exact absurd (ofWorker_of_move hmove) nofun
  | finish hn hcancel => exact hcancel rfl

/-- INTERNAL: a step of the bus kills a worker only with its task, or in its handler. -/
theorem Fell.step (h : busStep number (pointMachine Γ) x g = some x') (hcourse : Course x.2)
    (hx : Fell number x) : Fell number x' := by
  have htasks : ∀ sub, (x.1 sub).point = .cancelled → (x'.1 sub).point = .cancelled :=
    fun sub => cancelled_busStep h
  cases busStep_cases h with
  | task ha hl => exact fun sub n d hi => (hx sub n d hi).imp_left (htasks sub)
  | returned hended hl => exact fun sub n d hi => (hx sub n d hi).imp_left (htasks sub)
  | spawn hn hl ht => exact hx.move hcourse ht htasks nofun
  | @work a t ha ht =>
    refine hx.move hcourse ht htasks fun sub n haborts => ?_
    cases a <;> cases ha <;> cases haborts
  | @panicked sub n ch d c l t hawaits hc hl ht =>
    refine hx.move hcourse ht htasks fun sub' m haborts => .inr ?_
    rw [← Option.some.inj haborts]
    obtain ⟨event, hi⟩ := handle_of_awaits hawaits hc
    exact ⟨hcourse.began _ d event hi,
      hcourse.unreturned _ d _ (sites_of_threads x.2 _ hi) trivial⟩
  | @cancelled sub n fate ch l t hl ht =>
    refine hx.move hcourse ht htasks fun sub' m haborts => .inl ?_
    have hpair := number.injective (Option.some.inj haborts)
    obtain ⟨rfl, -⟩ := Prod.mk.inj hpair
    exact htasks sub (cancelled_of_finish hl)

/-- What is kept of a bus: of its tasks, of its workers, and of the two together. -/
structure Orderly (number : Γ.Sub × ℕ ↪ ℕ) (x : BusState Γ (pointMachine Γ).Point) : Prop where
  tasks : ∀ sub, NoneLost (x.1 sub) ∧ Joined (x.1 sub)
  tied : Tied number (pointMachine Γ) x
  course : Course x.2
  fell : Fell number x

/-- INTERNAL: a step of the bus keeps all of it. -/
theorem Orderly.step (h : busStep number (pointMachine Γ) x g = some x')
    (hx : Orderly number x) : Orderly number x' where
  tasks := by
    refine stepIf_keeps (I := fun tasks : Γ.Sub → LoopState =>
      ∀ sub, NoneLost (tasks sub) ∧ Joined (tasks sub)) ?_ (Coupling.step_eq_some.mp h).2.1
      hx.tasks
    intro tasks a tasks' hstep htasks
    exact each_keeps (I := fun _ s => NoneLost s ∧ Joined s)
      (fun _ _ _ _ hl hs => ⟨noneLost_step hl hs.1, joined_step hl hs.2⟩) hstep htasks
  tied := hx.tied.step h
  course := by
    rcases threads_of_busStep h with hsame | ⟨a, ht, -⟩
    · exact hsame ▸ hx.course
    · exact hx.course.step ht
  fell := hx.fell.step h hx.course

omit [DecidableEq Γ.Sub] in
/-- INTERNAL: all of it holds at first. -/
theorem Orderly.fresh {opts : Γ.Sub → SubscribeOptions} {tasks : Γ.Sub → LoopState}
    (hstart : ∀ sub, LoopState.start (opts sub) = some (tasks sub)) (now : ℕ)
    (store : Γ.store.State) (dlq : List DlqRecord) :
    Orderly number (tasks, Lib.fresh (pointMachine Γ) (.initial now store dlq)) := by
  refine ⟨fun sub => ?_, Tied.fresh hstart _, Course.fresh now store dlq, nofun⟩
  obtain ⟨-, hl⟩ := start_eq_some (hstart sub)
  show NoneLost (tasks sub) ∧ Joined (tasks sub)
  rw [hl]
  exact ⟨⟨nofun, nofun⟩, ⟨nofun, nofun⟩⟩

/-- A worker has returned, having settled its message if it could read it, or it has died in its
handler. -/
def WellEnded (settled : Delivery Γ → Prop) (s : State (world Γ) (Option (Call U E))) (i : ℕ) :
    Prop :=
  ∃ th, s.threads i = some th ∧
    ((s.ended i = true ∧ (th.job.readable = true → settled th.job)) ∨
      (th.ctl = .dead ∧ Began s.shared.log i ∧ Unreturned s.shared.log i))

omit [DecidableEq Γ.Sub] in
/-- INTERNAL: a worker that is over and was not cancelled has ended well. -/
theorem wellEnded_of_over (hx : Orderly number x) {sub : Γ.Sub} {n : ℕ}
    (hover : (look (pointMachine Γ) x.2).over (number (sub, n)) = true)
    (hcancelled : (x.1 sub).point ≠ .cancelled) {settled : Delivery Γ → Prop}
    (hsettled : ∀ d, x.2.sites (number (sub, n)) = some (d, .finished) → d.readable = true →
      settled d) :
    WellEnded settled (look (pointMachine Γ) x.2) (number (sub, n)) := by
  rcases over_cases hover with ⟨d, p, hi, hp⟩ | ⟨d, hi⟩
  · obtain rfl : p = Point.finished := by
      cases p <;> first | rfl | cases hp
    refine ⟨⟨d, .waiting none⟩, ?_, .inl ⟨?_, hsettled d (sites_of_threads x.2 _ hi)⟩⟩
    · rw [look_threads, hi]
      rfl
    · unfold State.ended
      rw [look_threads, hi]
      rfl
  · refine ⟨⟨d, .dead⟩, ?_, .inr ⟨rfl, (hx.fell sub n d hi).resolve_left hcancelled⟩⟩
    rw [look_threads, hi]
    rfl

/-- INTERNAL: a worker that has returned made the call that settles its message. -/
theorem sometime_settling {tasks : Γ.Sub → LoopState} {sh : Shared Γ} {gs : List (BusAction Γ)}
    (hrun : run (busStep number (pointMachine Γ)) (tasks, fresh (pointMachine Γ) sh) gs = some x)
    {i : ℕ} {d : Delivery Γ} (hd : d.readable = true)
    (hi : x.2.sites i = some (d, .finished)) :
    Sometime (busStep number (pointMachine Γ))
      (fun y => Answering (busLook (pointMachine Γ) y).2 i d)
      (tasks, fresh (pointMachine Γ) sh) gs := by
  refine sometime_of_change (R := fun y => y.2.sites i = some (d, .finished)) ?_ ?_ hrun hi
  · intro y g y' h hfinished
    rcases threads_of_busStep h with hsame | ⟨a, ht, -⟩
    · exact .inl (hsame ▸ hfinished)
    · exact settling_of_finished ht hd hfinished
  · intro hfinished
    cases hfinished

/-- **What a drain leaves.**  Take any subscriptions over one store, and any run of their tasks
and workers, with faults, panics and aborts.  When `drain` has returned `true`, every message
that the subscription took has had a worker.  The worker has returned, and at some time of the
run made the call that acks, naks or terms its message if it could read it; or it has died in its
handler.
SRC: subscriber.rs:74-89, subscriber.rs:286-343, subscriber.rs:352-596 -/
theorem drained_settled (Γ : Deployment U E) [DecidableEq Γ.Sub] (number : Γ.Sub × ℕ ↪ ℕ)
    (opts : Γ.Sub → SubscribeOptions) (tasks : Γ.Sub → LoopState)
    (hstart : ∀ sub, LoopState.start (opts sub) = some (tasks sub)) (now : ℕ)
    (store : Γ.store.State) (dlq : List DlqRecord) (gs : List (BusAction Γ))
    {x : BusState Γ (codeMachine Γ).Point}
    (hrun : run (busStep number (codeMachine Γ))
      (tasks, fresh (codeMachine Γ) (.initial now store dlq)) gs = some x)
    {sub : Γ.Sub} (hdrained : (x.1 sub).handle = .drained true) {n : ℕ}
    (hn : .taken n ∈ (x.1 sub).log) :
    WellEnded (fun d => Sometime (busStep number (codeMachine Γ))
        (fun y => Answering (look (codeMachine Γ) y.2) (number (sub, n)) d)
        (tasks, fresh (codeMachine Γ) (.initial now store dlq)) gs)
      (look (codeMachine Γ) x.2) (number (sub, n)) := by
  obtain ⟨y, hpoints, hlook⟩ := exists_run_of_busHom (pointsOfCode Γ) hrun
  obtain ⟨htasks, hworkers⟩ := Prod.mk.inj hlook
  have hy : Orderly number y :=
    (always_of_step (fun _ _ _ h hx => Orderly.step h hx)
      (Orderly.fresh hstart now store dlq)).last hpoints
  rw [htasks] at hdrained hn
  obtain ⟨hlost, hjoined⟩ := hy.tasks sub
  have hend := hjoined.drained hdrained
  have hended : .ended n ∈ (y.1 sub).log := by
    have hwhere := hlost.taken n hn
    rw [hend, hjoined.ended hend] at hwhere
    rcases hwhere with h | h | h | h
    · cases h
    · cases h
    · exact h
    · cases h
  rw [hworkers]
  refine wellEnded_of_over hy ((hy.tied.agrees sub).ended n hended) ?_ fun d hi hd => ?_
  · rw [hend]
    nofun
  · exact (sometime_busLook_hom (pointsOfCode Γ)
      (Q := fun y => Answering y.2 (number (sub, n)) d) tasks _ gs).mpr
      (sometime_settling hpoints hd hi)

end

/-! ## A run -/

/-- The options of two subscriptions to the stream `EVENTS`, one worker each. -/
def pairOptions (sub : Bool) : SubscribeOptions where
  durable := if sub then "shipping" else "billing"
  dlq := some {}

/-- The two subscriptions over one Redis store. -/
def pair : Deployment HyphenatedUuid Bytes :=
  .ofSubscriptions pairOptions (fun _ payload => .ok payload)
    (RedisIdempotencyStore.connect {}).store fun _ => defaultDlqDuplicateWindow.asMillis

instance : DecidableEq pair.Sub := inferInstanceAs (DecidableEq Bool)

/-- The workers of one subscription have the even numbers, those of the other the odd ones. -/
def pairNumber : pair.Sub × ℕ ↪ ℕ where
  toFun x := 2 * x.2 + Bool.toNat x.1
  inj' := by
    rintro ⟨a, n⟩ ⟨b, m⟩ h
    have hsum : 2 * n + Bool.toNat a = 2 * m + Bool.toNat b := h
    cases a <;> cases b <;> simp only [Bool.toNat_false, Bool.toNat_true] at hsum
    · exact Prod.ext rfl (by omega)
    · omega
    · omega
    · exact Prod.ext rfl (by omega)

/-- The tasks when they are started. -/
def pairTasks (sub : pair.Sub) : LoopState where
  point := .messages reconnectBackoffInitial
  permits := (pairOptions sub).concurrency
  running := []
  finished := []
  taken := 0
  handle := .open
  aborted := false
  log := []

/-- INTERNAL: both tasks of the pair start. -/
theorem pair_start (sub : pair.Sub) : LoopState.start (pairOptions sub) = some (pairTasks sub) := by
  cases sub <;> rfl

/-- Message number `n`, delivered for the first time. -/
def pairMessage (n : ℕ) (id : String) : Message where
  subject := "events.order.created"
  headers := some [(hdrNatsMsgId, id)]
  payload := [123, 125]
  info := .ok ⟨n + 1, 1⟩

/-- A worker that is served at three calls, and then loses its ack. -/
def pairServed (i : ℕ) : List (BusAction pair) :=
  (List.replicate 3 [.work (.serve i ⟨(), .ok ()⟩), .work (.resume i)]).flatten ++
    [.work (.fail i .dropped ⟨(), .ok ()⟩ ⟨.nats "broken pipe", .sendTimeout⟩), .work (.resume i)]

/-- The first message is taken, and its worker comes to its handler while the second one waits
for the permit. -/
def pairWaits : List (BusAction pair) :=
  [.task false (.answered true), .task false .look, .task false (.item .message),
    .task false .acquire, .spawn false 0 (pairMessage 0 "6ba7b810-9dad-11d1-80b4-00c04fd430c8"),
    .work (.serve 0 ⟨(), .ok ()⟩), .work (.resume 0), .task false .look,
    .task false (.item .message)]

/-- The handler panics, and the subscription is drained while it processes the second message. -/
def pairDrains : List (BusAction pair) :=
  pairWaits ++
    [.panicked false 0 ⟨(), .ok ()⟩, .task false .acquire,
      .spawn false 1 (pairMessage 1 "6ba7b810-9dad-11d1-80b4-00c04fd430c9"),
      .task false .drain] ++ pairServed 2 ++
    [.returned false 1, .task false .look, .task false (.joined 0), .task false (.joined 1),
      .task false .allJoined, .task false .returned]

/-- The bus before its first message. -/
def pairInitial : BusState pair (codeMachine pair).Point :=
  (pairTasks, fresh (codeMachine pair) (.initial 0 (fun _ => none) []))

/-- INTERNAL: the result on a worker and a message that waits for its permit. -/
theorem workers_bounded_pair :
    ∃ x, run (busStep pairNumber (codeMachine pair)) pairInitial pairWaits = some x ∧
      (look (codeMachine pair) x.2).live 0 = true ∧
      ∀ is : List ℕ, is.Nodup →
        (∀ i ∈ is, WorksFor (look (codeMachine pair) x.2) (false : Bool) i) → is.length ≤ 1 := by
  have hend : (run (busStep pairNumber (codeMachine pair)) pairInitial pairWaits).map
      (fun x => (look (codeMachine pair) x.2).live 0) = some true := by decide +kernel
  obtain ⟨x, hrun, hlive⟩ := Option.map_eq_some_iff.mp hend
  have hbound := (workers_bounded pair pairNumber pairOptions pairTasks pair_start _ _).last hrun
  exact ⟨x, hrun, hlive, hbound false⟩

/-- INTERNAL: the result on a worker whose ack is lost and one that panics. -/
theorem drained_settled_pair :
    ∃ x, run (busStep pairNumber (codeMachine pair)) pairInitial pairDrains = some x ∧
      (x.1 (false : Bool)).handle = .drained true ∧
      ∀ i ∈ [0, 2], WellEnded (fun d => Sometime (busStep pairNumber (codeMachine pair))
          (fun y => Answering (look (codeMachine pair) y.2) i d) pairInitial pairDrains)
        (look (codeMachine pair) x.2) i := by
  have hend : (run (busStep pairNumber (codeMachine pair)) pairInitial pairDrains).map
      (fun x => decide ((x.1 (false : Bool)).handle = .drained true ∧
        .taken 0 ∈ (x.1 (false : Bool)).log ∧ .taken 1 ∈ (x.1 (false : Bool)).log)) =
      some true := by decide +kernel
  obtain ⟨x, hrun, hx⟩ := Option.map_eq_some_iff.mp hend
  obtain ⟨hdrained, hfirst, hsecond⟩ := of_decide_eq_true hx
  refine ⟨x, hrun, hdrained, List.forall_mem_cons.mpr ⟨?_, List.forall_mem_singleton.mpr ?_⟩⟩
  · exact drained_settled pair pairNumber pairOptions pairTasks pair_start 0 _ [] _ hrun
      hdrained hfirst
  · exact drained_settled pair pairNumber pairOptions pairTasks pair_start 0 _ [] _ hrun
      hdrained hsecond

end EventBus.Analysis
