import EventBus.Lib.Pool

/-!
# Calls that are programs

The calls of a program may themselves be carried out by programs over other calls, those of the
layer below: `Prog.expand` writes them out.

That the layer below does no more than the layer above allows is a simulation in which one step
below is mirrored by any number of steps above (`always_of_simulation`): by none while a call is
on its way, and by one where it takes effect.
-/

set_option autoImplicit false

namespace EventBus.Lib

namespace Prog

variable {Call Call' : Type} {Resp : Call → Type} {Resp' : Call' → Type} {α : Type}

/-- Each call is carried out by its program. -/
def expand (impl : (c : Call) → Prog Call' Resp' (Resp c)) : Prog Call Resp α → Prog Call' Resp' α
  | .pure a => .pure a
  | .call c k => impl c >>= fun r => (k r).expand impl

end Prog

/-- INTERNAL: every instance of a rule is an action that is enabled. -/
theorem Step.enabled {W : World} {M : Machine W} {s s' : State W M.Point} {a : Action W}
    (h : Step M s a s') : step M s a = some s' := by
  cases h with
  | spawn hfree => simp only [step, hfree]
  | serve hi hv => simp only [step, hi, hv, Option.map_some]
  | fail hi hv hr => simp only [step, hi, hv, hr, Option.bind_some, Option.map_some]
  | resume hi => simp only [step, hi]
  | abortWaiting hi hv hfate => simp only [step, hi, hv, Option.bind_some, if_pos hfate]
  | abortAnswered hi => simp only [step, hi]
  | land hn => simp only [step, hn]
  | drift => rfl

/-! ## Simulation by runs -/

section

variable {σ τ α β : Type} {step : σ → α → Option σ} {step' : τ → β → Option τ}

/-- INTERNAL: a run of one step. -/
theorem run_single {t t' : τ} {b : β} (h : step' t b = some t') : run step' t [b] = some t' :=
  run_cons_eq_some.mpr ⟨t', h, rfl⟩

/-- INTERNAL: what holds throughout a run holds throughout the rest of it. -/
theorem always_of_append {Q : τ → Prop} {t t' : τ} {bs bs' : List β}
    (hrun : run step' t bs = some t') (h : Always step' Q t (bs ++ bs')) :
    Always step' Q t' bs' := by
  induction bs generalizing t with
  | nil =>
    obtain rfl := Option.some.inj hrun
    exact h
  | cons b bs ih =>
    obtain ⟨m, hm, hrest⟩ := run_cons_eq_some.mp hrun
    exact ih hrest (h.2 m hm)

/-- INTERNAL: a condition along a run and along the rest of it. -/
theorem Along.append {D : τ → β → τ → Prop} {t t' : τ} {bs bs' : List β}
    (hrun : run step' t bs = some t') (h : Along step' D t bs) (h' : Along step' D t' bs') :
    Along step' D t (bs ++ bs') := by
  induction bs generalizing t with
  | nil =>
    obtain rfl := Option.some.inj hrun
    exact h'
  | cons b bs ih =>
    intro u hu
    obtain ⟨m, hm, hrest⟩ := run_cons_eq_some.mp hrun
    obtain rfl := Option.some.inj (hm.symm.trans hu)
    exact ⟨(h m hu).1, ih hrest (h m hu).2⟩

/-- A step from `s` to `s'` below, mirrored from `t` by a run above whose steps meet `D`. -/
def Mirrored (step' : τ → β → Option τ) (D : τ → β → τ → Prop) (R : σ → τ → Prop) (s' : σ)
    (t : τ) : Prop :=
  ∃ bs t', Along step' D t bs ∧ run step' t bs = some t' ∧ R s' t'

variable {D D' : τ → β → τ → Prop} {R : σ → τ → Prop} {C : σ → α → σ → Prop}

/-- INTERNAL: by no step at all. -/
theorem Mirrored.stutter {s' : σ} {t : τ} (h : R s' t) : Mirrored step' D R s' t :=
  ⟨[], t, trivial, rfl, h⟩

/-- INTERNAL: by one step. -/
theorem Mirrored.single {s' : σ} {t t' : τ} (b : β) (hb : D t b t') (ht : step' t b = some t')
    (h : R s' t') : Mirrored step' D R s' t := by
  refine ⟨[b], t', fun u hu => ⟨?_, trivial⟩, run_single ht, h⟩
  obtain rfl := Option.some.inj (ht.symm.trans hu)
  exact hb

/-- INTERNAL: the steps above meet what `D` implies. -/
theorem Mirrored.mono {s' : σ} {t : τ} (h : Mirrored step' D R s' t)
    (hD : ∀ t b t', step' t b = some t' → D t b t' → D' t b t') : Mirrored step' D' R s' t := by
  obtain ⟨bs, t', hbs, hrest⟩ := h
  exact ⟨bs, t', hbs.mono hD, hrest⟩

/-- **The rule of simulation by runs.**  What every run above whose steps meet `D` keeps to, a run
below does as far as the relation carries it. -/
theorem always_of_simulation
    (hstep : ∀ s a s' t, step s a = some s' → C s a s' → R s t → Mirrored step' D R s' t)
    {Q : σ → Prop} {J : τ → Prop} (hQ : ∀ s t, R s t → J t → Q s) {s : σ} {t : τ} {as : List α}
    (habove : ∀ bs, Along step' D t bs → Always step' J t bs) (hC : Along step C s as)
    (hR : R s t) : Always step Q s as := by
  induction as generalizing s t with
  | nil => exact hQ s t hR (habove [] trivial)
  | cons a as ih =>
    refine ⟨hQ s t hR (habove [] trivial), fun s' hs' => ?_⟩
    obtain ⟨hCs, hrest⟩ := hC s' hs'
    obtain ⟨bs, t', hbs, hrun, hR'⟩ := hstep s a s' t hs' hCs hR
    refine ih (fun bs' hbs' => ?_) hrest hR'
    exact always_of_append hrun (habove (bs ++ bs') (hbs.append hrun hbs'))

end

end EventBus.Lib
