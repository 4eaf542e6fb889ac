import EventBus.Lib.Local

/-!
# Programs that keep to a protocol

Programs that run side by side need not know each other: it is enough that all of them keep to
one `Protocol`.  It says which calls are legal, what an answer tells its caller, and how the
shared state grows, whoever moves it.  `Prog.Obeys` reads off the text of a program that it makes
only legal calls and returns what it should, as long as the others keep to the protocol as well,
and has a rule for each construct of a program.  What the world owes to a protocol is
`Protocol.Upheld`, and then every thread keeps to it in every state of every run
(`Protocol.Upheld.kept`).
-/

set_option autoImplicit false

namespace EventBus.Lib

/-- The rules by which programs share a world. -/
structure Protocol (W : World) where
  /-- What a thread relies on between two of its own calls. -/
  grows : W.Shared → W.Shared → Prop
  /-- What a thread guarantees of its calls. -/
  legal : W.Shared → W.Job → W.Call → Prop
  told : W.Shared → W.Job → (c : W.Call) → W.Resp c → Prop

namespace Prog

variable {W : World} {R : Protocol W} {job : W.Job} {α β : Type} {sh sh' : W.Shared}

/-- A program makes only legal calls, whatever it is told, and returns with `Q`. -/
def Obeys (R : Protocol W) (job : W.Job) (Q : W.Shared → α → Prop) :
    Prog W.Call W.Resp α → W.Shared → Prop
  | .pure a, sh => Q sh a
  | .call c k, sh => R.legal sh job c ∧
      ∀ sh' r, R.grows sh sh' → R.told sh' job c r → (k r).Obeys R job Q sh'

variable {Q : W.Shared → α → Prop}

/-- INTERNAL: a program that returns must have its result. -/
@[simp] theorem obeys_pure (a : α) :
    (.pure a : Prog W.Call W.Resp α).Obeys R job Q sh ↔ Q sh a := Iff.rfl

/-- INTERNAL: a program that makes a call must be allowed to, and obey whatever it is told. -/
@[simp] theorem obeys_call (c : W.Call) (k : W.Resp c → Prog W.Call W.Resp α) :
    (Prog.call c k).Obeys R job Q sh ↔ R.legal sh job c ∧
      ∀ sh' r, R.grows sh sh' → R.told sh' job c r → (k r).Obeys R job Q sh' := Iff.rfl

/-- **The rule of sequencing.** -/
theorem Obeys.bind {p : Prog W.Call W.Resp α} {f : α → Prog W.Call W.Resp β}
    {Q' : W.Shared → β → Prop} (hp : p.Obeys R job Q sh)
    (hf : ∀ sh a, Q sh a → (f a).Obeys R job Q' sh) : (p >>= f).Obeys R job Q' sh := by
  induction p generalizing sh with
  | pure a => exact hf sh a hp
  | call c k ih => exact ⟨hp.1, fun sh' r hgrows htold => ih r (hp.2 sh' r hgrows htold)⟩

/-- **The rule of interference.**  A program that keeps to the protocol does so when others have
moved. -/
theorem Obeys.stable {p : Prog W.Call W.Resp α}
    (htrans : ∀ {sh sh' sh''}, R.grows sh sh' → R.grows sh' sh'' → R.grows sh sh'')
    (hlegal : ∀ {sh sh' c}, R.grows sh sh' → R.legal sh job c → R.legal sh' job c)
    (hQ : ∀ {sh sh' a}, R.grows sh sh' → Q sh a → Q sh' a) (hgrows : R.grows sh sh')
    (hp : p.Obeys R job Q sh) : p.Obeys R job Q sh' := by
  cases p with
  | pure a => exact hQ hgrows hp
  | call c k =>
    exact ⟨hlegal hgrows hp.1, fun sh'' r h htold => hp.2 sh'' r (htrans hgrows h) htold⟩

/-- **The rule of framing.**  What a program returns with comes after the state it starts in. -/
theorem Obeys.framed {p : Prog W.Call W.Resp α}
    (htrans : ∀ {sh sh' sh''}, R.grows sh sh' → R.grows sh' sh'' → R.grows sh sh'')
    {before : W.Shared} (hgrows : R.grows before sh) (hp : p.Obeys R job Q sh) :
    p.Obeys R job (fun sh' a => R.grows before sh' ∧ Q sh' a) sh := by
  induction p generalizing sh with
  | pure a => exact ⟨hgrows, hp⟩
  | call c k ih =>
    exact ⟨hp.1, fun sh' r h htold => ih r (htrans hgrows h) (hp.2 sh' r h htold)⟩

/-- INTERNAL: the call a program is suspended on is legal, and its rest keeps to the protocol. -/
theorem Obeys.of_view {p : Prog W.Call W.Resp α} {c : W.Call} {k : W.Resp c → Prog W.Call W.Resp α}
    (hp : p.Obeys R job Q sh) (hv : p.view = some ⟨c, k⟩) : R.legal sh job c ∧
      ∀ sh' r, R.grows sh sh' → R.told sh' job c r → (k r).Obeys R job Q sh' := by
  cases p with
  | pure a => cases hv
  | call c' k' =>
    cases hv
    exact hp

end Prog

/-- The machine of threads that run programs. -/
abbrev programs (W : World) (α : Type) (start : W.Job → Prog W.Call W.Resp α) : Machine W where
  Point := Prog W.Call W.Resp α
  start := start
  view _ p := p.view

/-- What the world owes to a protocol, where `I` is kept of the shared state and threads are
started for jobs that are `fit`. -/
structure Protocol.Upheld {W : World} (R : Protocol W) (I : W.Shared → Prop)
    (fit : W.Shared → W.Job → Prop) : Prop where
  refl : ∀ sh, R.grows sh sh
  trans : ∀ {sh sh' sh''}, R.grows sh sh' → R.grows sh' sh'' → R.grows sh sh''
  legal_stable : ∀ {sh sh' job c}, R.grows sh sh' → R.legal sh job c → R.legal sh' job c
  enlist : ∀ i job sh, I sh → fit sh job → R.grows sh (W.enlist i job sh) ∧ I (W.enlist i job sh)
  reach : ∀ i job c sh, I sh → R.legal sh job c →
    R.grows sh (W.reach i job c sh) ∧ I (W.reach i job c sh)
  effect : ∀ seen i job c ch sh, I sh → R.legal sh job c →
    R.grows sh (W.effect seen i job c ch sh) ∧ I (W.effect seen i job c ch sh)
  answer : ∀ i job c ch sh, I sh → R.legal sh job c →
    R.told (W.effect true i job c ch sh) job c (W.answer job c ch sh)
  failure : ∀ sh job c e r, W.failure c e = some r → R.told sh job c r
  drift : ∀ e sh, I sh → R.grows sh (W.drift e sh) ∧ I (W.drift e sh)

section

variable {W : World} {α : Type} {start : W.Job → Prog W.Call W.Resp α} {R : Protocol W}
  {I : W.Shared → Prop} {fit : W.Shared → W.Job → Prop} {Q : W.Job → W.Shared → α → Prop}

/-- All threads keep to the protocol, and so do the calls that are under way. -/
def obeying (start : W.Job → Prog W.Call W.Resp α) (R : Protocol W) (I : W.Shared → Prop)
    (Q : W.Job → W.Shared → α → Prop) : Local (programs W α start) where
  shared := I
  site sh job p := p.Obeys R job (Q job) sh
  underWay := R.legal

namespace Protocol.Upheld

variable (hR : R.Upheld I fit)

include hR

/-- INTERNAL: a thread that comes to a point keeps to the protocol. -/
theorem reachPoint (i : ℕ) {job : W.Job} {p : Prog W.Call W.Resp α} {sh : W.Shared} (hsh : I sh)
    (hp : p.Obeys R job (Q job) sh) :
    R.grows sh (Lib.reachPoint (programs W α start) i job p sh) ∧
      I (Lib.reachPoint (programs W α start) i job p sh) := by
  cases p with
  | pure a => exact ⟨hR.refl sh, hsh⟩
  | call c k => exact hR.reach i job c sh hsh hp.1

/-- **The rule of parallel composition.**  Let every program keep to the protocol from the state
in which it is started.  Then all threads keep to it. -/
theorem kept (hQ : ∀ {sh sh' job a}, R.grows sh sh' → Q job sh a → Q job sh' a)
    (hstart : ∀ i job sh, I sh → fit sh job →
      (start job).Obeys R job (Q job) (W.enlist i job sh)) :
    (obeying start R I Q).Kept fit R.grows where
  site_stable hgrows hp := hp.stable hR.trans hR.legal_stable hQ hgrows
  underWay_stable := hR.legal_stable
  start i job sh hsh hfit := by
    obtain ⟨hgrows, henlisted⟩ := hR.enlist i job sh hsh hfit
    have hp := hstart i job sh hsh hfit
    have hreach : R.grows _ (Lib.reachPoint (programs W α start) i job (start job) _) ∧ _ :=
      hR.reachPoint i henlisted hp
    exact ⟨hR.trans hgrows hreach.1, hreach.2,
      hp.stable hR.trans hR.legal_stable hQ hreach.1⟩
  reach i job p sh hsh hp := hR.reachPoint i hsh hp
  made hp hc := by
    obtain ⟨⟨c', k⟩, hv, rfl⟩ := Option.map_eq_some_iff.mp hc
    exact (hp.of_view hv).1
  effect := hR.effect
  answered i job p c k ch sh hsh hp hv := by
    obtain ⟨hlegal, hk⟩ := hp.of_view hv
    exact hk _ _ (hR.effect true i job c ch sh hsh hlegal).1 (hR.answer i job c ch sh hsh hlegal)
  lost _ hp hlost := by
    cases hlost with
    | failed hv hr => exact (hp.of_view hv).2 _ _ (hR.refl _) (hR.failure _ _ _ _ _ hr)
  drift := hR.drift

end Protocol.Upheld

/-- INTERNAL: the call that a thread is suspended on is legal. -/
theorem legal_of_awaits {s : State W (Prog W.Call W.Resp α)}
    (hs : (obeying start R I Q).Holds s) {i : ℕ} {job : W.Job} {c : W.Call}
    (hi : (look (programs W α start) s).awaits i = some (job, c)) : R.legal s.shared job c := by
  unfold State.awaits at hi
  rw [look_threads] at hi
  rcases hth : s.threads i with _ | ⟨job', p | p | _⟩ <;> rw [hth] at hi
  · cases hi
  · cases p with
    | pure a => cases hi
    | call c' k =>
      obtain ⟨rfl, rfl⟩ := Prod.mk.inj (Option.some.inj hi)
      exact (hs.sites i job' _ (sites_of_threads s i hth)).1
  · cases hi
  · cases hi

end

end EventBus.Lib
