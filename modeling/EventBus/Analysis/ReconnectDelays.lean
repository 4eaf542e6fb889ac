import EventBus.Interface.Reconnects

/-!
# The delays of the two loops

The task of a subscription waits at three places before it tries again, the advisory logger at
two, and each place changes the length of the next wait itself.  Yet both obey one law, which
knows neither the loop nor the place: the wait number `k` since the beginning or since the
stream was last opened is 200 ms times `2 ^ k`, or 30 s if that is less
(`reconnect_delays`).

The statements are about every run of finite length.  An infinite run has no waits but those
of its beginnings.
-/

set_option autoImplicit false

namespace EventBus.Analysis

open EventBus.Model EventBus.Lib EventBus.Interface

/-- What has come of the stream of a subscription. -/
abbrev subscriptionOutcomes (s : LoopState) (as : List LoopAction) : List ReconnectOutcome :=
  observed LoopState.step (fun s a _ => subscriptionOutcome s.point a) s as

/-- The streams that a subscription has opened, and its waits. -/
abbrev subscriptionMarks (s : LoopState) (as : List LoopAction) : List (Mark Duration) :=
  observed LoopState.step (fun s a s' => subscriptionMark s.point a s'.point) s as

abbrev advisoryOutcomes (opts : AdvisoryLogOptions) (p : AdvisoryPoint)
    (as : List AdvisoryAction) : List ReconnectOutcome :=
  observed (AdvisoryPoint.step opts) (fun p a _ => advisoryOutcome p a) p as

abbrev advisoryMarks (opts : AdvisoryLogOptions) (p : AdvisoryPoint)
    (as : List AdvisoryAction) : List (Mark Duration) :=
  observed (AdvisoryPoint.step opts) (advisoryMark opts) p as

/-- The waits that follow the outcomes are those of the law. -/
structure FollowsLaw (outcomes : List ReconnectOutcome) (marks : List (Mark Duration)) : Prop where
  /-- There is one wait for each stream that is not to be had or ends, and no other. -/
  isOpened : marks.map Mark.isOpened = outcomes.map ReconnectOutcome.isOpened
  delay : ∀ before d after, marks = before ++ .wait d :: after →
    d = min (.fromMillis 200 * 2 ^ waitsAfter 0 before) (.fromSecs 30)
  reopened : ∀ before d after, marks = before ++ .opened :: .wait d :: after →
    d = .fromMillis 200

/-- The length that is kept for the next wait is within its bounds, and may be doubled. -/
def InRange (phase : Phase Duration) : Prop :=
  ∀ b, phase.stored = some b →
    .fromMillis 200 ≤ b ∧ b ≤ .fromSecs 30 ∧ b * 2 ≤ durationMax

/-! ## One machine -/

/-- INTERNAL: what the library says of lawful waits is what is asked of the waits here. -/
theorem followsLaw_of_lawful {outcomes : List ReconnectOutcome} {marks : List (Mark Duration)}
    (hopened : marks.map Mark.isOpened = outcomes.map ReconnectOutcome.isOpened)
    (hlaw : reconnectWaits.LawfulFrom 0 marks) : FollowsLaw outcomes marks := by
  refine ⟨hopened, hlaw, ?_⟩
  intro before d after hsplit
  exact hlaw.after_opened hsplit

/-- INTERNAL: a length that may be kept can be doubled. -/
theorem inRange_of_bounds {phase : Phase Duration}
    (h : ∀ b, phase.stored = some b → reconnectWaits.initial ≤ b ∧ b ≤ reconnectWaits.cap) :
    InRange phase := by
  intro b hb
  obtain ⟨hlow, hhigh⟩ := h b hb
  refine ⟨hlow, hhigh, ?_⟩
  calc
    b * 2 ≤ reconnectWaits.cap * 2 := Nat.mul_le_mul_right 2 hhigh
    _ ≤ durationMax := by decide

section Machine

variable {σ α : Type} {step : σ → α → Option σ} {phase : σ → Phase Duration}
  {mark : σ → α → σ → Option (Mark Duration)} {outcome : σ → α → σ → Option ReconnectOutcome}

/-- INTERNAL: a machine whose steps reconnect as they should obeys the law, from a state that
keeps the first length. -/
theorem followsLaw_of_reconnects
    (hstep : ∀ s a s', step s a = some s' →
      Reconnects (phase s) (mark s a s') (outcome s a s') (phase s'))
    {s₀ : σ} (hs₀ : phase s₀ = .ready (.fromMillis 200)) (as : List α) :
    FollowsLaw (observed step outcome s₀ as) (observed step mark s₀ as) ∧
      Always step (fun s => InRange (phase s)) s₀ as := by
  have hpaced : ∀ s a s', step s a = some s' →
      reconnectWaits.Paced (phase s) (mark s a s') (phase s') :=
    fun s a s' h => (hstep s a s' h).paced
  have hat : reconnectWaits.At 0 (phase s₀) := by
    rw [hs₀]
    exact reconnectWaits.delay_zero.symm
  constructor
  · apply followsLaw_of_lawful
    · exact observed_map_congr (fun s a s' h => (hstep s a s' h).isOpened) s₀ as
    · exact Backoff.lawful_observed hpaced hat as
  · exact (Backoff.always_stored hpaced hat as).mono fun s => inRange_of_bounds

end Machine

/-- INTERNAL: outcomes that correspond are followed by the same waits. -/
theorem FollowsLaw.unique {outcomes outcomes' : List ReconnectOutcome}
    {marks marks' : List (Mark Duration)} (h : FollowsLaw outcomes marks)
    (h' : FollowsLaw outcomes' marks')
    (hsame : outcomes.map ReconnectOutcome.isOpened = outcomes'.map ReconnectOutcome.isOpened) :
    marks = marks' := by
  have hlaw : reconnectWaits.LawfulFrom 0 marks := h.delay
  apply hlaw.unique h'.delay
  rw [h.isOpened, hsame, h'.isOpened]

/-! ## Both loops -/

/-- INTERNAL: the law of the task of a subscription. -/
theorem subscription_followsLaw {opts : SubscribeOptions} {s₀ : LoopState}
    (hstart : LoopState.start opts = some s₀) (as : List LoopAction) :
    FollowsLaw (subscriptionOutcomes s₀ as) (subscriptionMarks s₀ as) ∧
      Always LoopState.step (fun s => InRange (subscriptionPhase s.point)) s₀ as := by
  apply followsLaw_of_reconnects
  · intro s a s' h
    exact subscription_reconnects h
  · obtain ⟨-, rfl⟩ := start_eq_some hstart
    rfl

/-- INTERNAL: the law of the advisory logger. -/
theorem advisory_followsLaw (opts : AdvisoryLogOptions) {p₀ : AdvisoryPoint}
    (hp₀ : p₀ = .subscribe ∨ p₀ = .next AdvisoryPoint.initialBackoff)
    (as : List AdvisoryAction) :
    FollowsLaw (advisoryOutcomes opts p₀ as) (advisoryMarks opts p₀ as) ∧
      Always (AdvisoryPoint.step opts) (fun p => InRange (advisoryPhase p)) p₀ as := by
  apply followsLaw_of_reconnects
  · intro p a q h
    exact advisory_reconnects h
  · rcases hp₀ with rfl | rfl
    · rfl
    · rfl

/-- **The reconnects of both loops follow one law.**  In every run of the task of a
subscription, and in every run of the advisory logger, from its call or from the beginning of
its loop, each wait is as long as its number says and 200 ms again after a stream is opened; the
length that is kept never leaves its bounds, and its double is a `Duration`.  Where the outcomes
of two runs correspond, the waits are the same.
SRC: subscriber.rs:212-316, advisory.rs:137-194 -/
theorem reconnect_delays {opts : SubscribeOptions} {s₀ : LoopState}
    (hstart : LoopState.start opts = some s₀) (as : List LoopAction)
    (advisory : AdvisoryLogOptions) {p₀ : AdvisoryPoint}
    (hp₀ : p₀ = .subscribe ∨ p₀ = .next AdvisoryPoint.initialBackoff)
    (bs : List AdvisoryAction) :
    (FollowsLaw (subscriptionOutcomes s₀ as) (subscriptionMarks s₀ as) ∧
        Always LoopState.step (fun s => InRange (subscriptionPhase s.point)) s₀ as) ∧
      (FollowsLaw (advisoryOutcomes advisory p₀ bs) (advisoryMarks advisory p₀ bs) ∧
        Always (AdvisoryPoint.step advisory) (fun p => InRange (advisoryPhase p)) p₀ bs) ∧
      ((subscriptionOutcomes s₀ as).map ReconnectOutcome.isOpened =
          (advisoryOutcomes advisory p₀ bs).map ReconnectOutcome.isOpened →
        subscriptionMarks s₀ as = advisoryMarks advisory p₀ bs) := by
  have hsubscription := subscription_followsLaw hstart as
  have hadvisory := advisory_followsLaw advisory hp₀ bs
  exact ⟨hsubscription, hadvisory, hsubscription.1.unique hadvisory.1⟩

/-- A subscription that loses its stream, does not get a consumer at once, and loses the stream
that it has opened again. -/
def lostTwice : List LoopAction :=
  [.answered true, .look, .item .ended, .look, .timer, .answered false, .look, .timer,
    .answered true, .answered true, .answered true, .look, .item .ended]

/-- A logger to which the same happens. -/
def advisoriesLostTwice : List AdvisoryAction :=
  [.subscribed (.ok ()), .received true, .received false, .slept, .subscribed (.error "down"),
    .slept, .subscribed (.ok ()), .received false]

/-- The two of them wait 200 ms, 400 ms and 200 ms. -/
theorem reconnect_delays_lostTwice :
    ∃ s₀, LoopState.start {} = some s₀ ∧
      subscriptionMarks s₀ lostTwice =
        [.opened, .wait (.fromMillis 200), .wait (.fromMillis 400), .opened,
          .wait (.fromMillis 200)] ∧
      subscriptionMarks s₀ lostTwice = advisoryMarks {} .subscribe advisoriesLostTwice := by
  have hrun : ∃ s₀, LoopState.start {} = some s₀ ∧
      (subscriptionOutcomes s₀ lostTwice).map ReconnectOutcome.isOpened =
        (advisoryOutcomes {} .subscribe advisoriesLostTwice).map ReconnectOutcome.isOpened ∧
      subscriptionMarks s₀ lostTwice =
        [.opened, .wait (.fromMillis 200), .wait (.fromMillis 400), .opened,
          .wait (.fromMillis 200)] :=
    ⟨_, rfl, by decide, by decide⟩
  obtain ⟨s₀, hstart, hsame, hmarks⟩ := hrun
  have hlaw := reconnect_delays hstart lostTwice {} (Or.inl rfl) advisoriesLostTwice
  exact ⟨s₀, hstart, hmarks, hlaw.2.2 hsame⟩

end EventBus.Analysis
