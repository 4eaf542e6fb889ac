import Mathlib.Data.Option.Basic

/-!
# Runs of a machine given by a partial step function

A machine is a function `step : σ → α → Option σ`: in state `s` the action `a` either
is not enabled or leads to exactly one state.  Whatever a real system leaves open (who
moves next, what the network does, what a caller decides) is part of the action, so a
run is a list of actions.

Three predicates speak about whole runs.  `Always step Q s as` says that `Q` holds in
every state of the run of `as` from `s`, the first one included; `Along step C s as`
says that every transition `s --a--> s'` of the run satisfies `C s a s'`.  `Sometime step Q s as`
says that `Q` holds in some state of the run.  The rules
below turn a fact about one step into a fact about every run; `always_iff_of_invariant`
does it in both directions, for a condition on steps that is exactly what keeps a property of
states.
-/

set_option autoImplicit false

namespace EventBus.Lib

variable {σ τ α : Type}

/-- The state after the actions of a list, if each of them is enabled when its turn
comes. -/
def run (step : σ → α → Option σ) : σ → List α → Option σ
  | s, [] => some s
  | s, a :: as => (step s a).bind fun s' => run step s' as

/-- Every transition of the run satisfies `C`. -/
def Along (step : σ → α → Option σ) (C : σ → α → σ → Prop) : σ → List α → Prop
  | _, [] => True
  | s, a :: as => ∀ s', step s a = some s' → C s a s' ∧ Along step C s' as

/-- Every state of the run satisfies `Q`. -/
def Always (step : σ → α → Option σ) (Q : σ → Prop) : σ → List α → Prop
  | s, [] => Q s
  | s, a :: as => Q s ∧ ∀ s', step s a = some s' → Always step Q s' as

/-- Some state of the run satisfies `Q`. -/
def Sometime (step : σ → α → Option σ) (Q : σ → Prop) : σ → List α → Prop
  | s, [] => Q s
  | s, a :: as => Q s ∨ ∃ s', step s a = some s' ∧ Sometime step Q s' as

/-- What is noted of the transitions of the run, oldest first. -/
def observed {β : Type} (step : σ → α → Option σ) (f : σ → α → σ → Option β) :
    σ → List α → List β
  | _, [] => []
  | s, a :: as =>
    match step s a with
    | none => []
    | some s' => (f s a s').toList ++ observed step f s' as

variable {step : σ → α → Option σ} {C D : σ → α → σ → Prop} {I J Q R : σ → Prop}

/-- INTERNAL: a run of no action stays where it is. -/
@[simp] theorem run_nil (s : σ) : run step s [] = some s := rfl

/-- INTERNAL: no step, no condition. -/
@[simp] theorem along_nil (s : σ) : Along step C s [] ↔ True := Iff.rfl

/-- INTERNAL: a run of no step has one state. -/
@[simp] theorem always_nil (s : σ) : Always step Q s [] ↔ Q s := Iff.rfl

/-- INTERNAL: the first action, and then the others. -/
theorem run_cons (s : σ) (a : α) (as : List α) :
    run step s (a :: as) = (step s a).bind fun s' => run step s' as := rfl

/-- INTERNAL: a run ends somewhere when its first step does and the rest does from there. -/
theorem run_cons_eq_some {s t : σ} {a : α} {as : List α} :
    run step s (a :: as) = some t ↔ ∃ s', step s a = some s' ∧ run step s' as = some t := by
  rw [run_cons, Option.bind_eq_some_iff]

/-- INTERNAL: a weaker condition holds along the same run. -/
theorem Along.mono {s : σ} {as : List α} (h : Along step C s as)
    (hCD : ∀ s a s', step s a = some s' → C s a s' → D s a s') : Along step D s as := by
  induction as generalizing s with
  | nil => trivial
  | cons a as ih =>
    intro s' hs
    obtain ⟨hC, hrest⟩ := h s' hs
    exact ⟨hCD s a s' hs hC, ih hrest⟩

/-- INTERNAL: a condition that the actions of a run satisfy in whatever state they are
taken. -/
theorem Along.of_forall {as : List α} (h : ∀ a ∈ as, ∀ s s', C s a s') (s : σ) :
    Along step C s as := by
  induction as generalizing s with
  | nil => trivial
  | cons a as ih =>
    intro s' _
    exact ⟨h a List.mem_cons_self s s', ih (fun b hb => h b (List.mem_cons_of_mem _ hb)) s'⟩

/-- INTERNAL: two conditions hold along a run together or each on its own. -/
theorem along_and {s : σ} {as : List α} :
    Along step (fun s a s' => C s a s' ∧ D s a s') s as ↔
      Along step C s as ∧ Along step D s as := by
  induction as generalizing s with
  | nil => simp
  | cons a as ih =>
    constructor
    · intro h
      refine ⟨fun s' hs => ⟨(h s' hs).1.1, (ih.mp (h s' hs).2).1⟩, fun s' hs => ?_⟩
      exact ⟨(h s' hs).1.2, (ih.mp (h s' hs).2).2⟩
    · rintro ⟨hC, hD⟩ s' hs
      exact ⟨⟨(hC s' hs).1, (hD s' hs).1⟩, ih.mpr ⟨(hC s' hs).2, (hD s' hs).2⟩⟩

/-- INTERNAL: what holds throughout holds at first. -/
theorem Always.head {s : σ} {as : List α} (h : Always step Q s as) : Q s := by
  cases as with
  | nil => exact h
  | cons a as => exact h.1

/-- INTERNAL: what holds throughout holds in a weaker form. -/
theorem Always.mono {s : σ} {as : List α} (h : Always step Q s as) (hQR : ∀ s, Q s → R s) :
    Always step R s as := by
  induction as generalizing s with
  | nil => exact hQR s h
  | cons a as ih => exact ⟨hQR s h.1, fun s' hs => ih (h.2 s' hs)⟩

/-- INTERNAL: two properties hold in every state together or each on its own. -/
theorem always_and {s : σ} {as : List α} :
    Always step (fun s => Q s ∧ R s) s as ↔ Always step Q s as ∧ Always step R s as := by
  induction as generalizing s with
  | nil => exact Iff.rfl
  | cons a as ih =>
    constructor
    · rintro ⟨⟨hQ, hR⟩, h⟩
      exact ⟨⟨hQ, fun s' hs => (ih.mp (h s' hs)).1⟩, ⟨hR, fun s' hs => (ih.mp (h s' hs)).2⟩⟩
    · rintro ⟨hQ, hR⟩
      exact ⟨⟨hQ.1, hR.1⟩, fun s' hs => ih.mpr ⟨hQ.2 s' hs, hR.2 s' hs⟩⟩

/-- INTERNAL: the last state of a run is one of its states. -/
theorem Always.last {s t : σ} {as : List α} (h : Always step Q s as)
    (hrun : run step s as = some t) : Q t := by
  induction as generalizing s with
  | nil =>
    obtain rfl : s = t := Option.some.inj hrun
    exact h
  | cons a as ih =>
    obtain ⟨s', hs, ht⟩ := run_cons_eq_some.mp hrun
    exact ih (h.2 s' hs) ht

/-- **The invariant rule.**  What one step keeps, as long as it meets `C`, holds in
every state of a run whose steps meet `C`. -/
theorem always_of_invariant {s : σ} {as : List α}
    (hstep : ∀ s a s', step s a = some s' → C s a s' → I s → I s')
    (hs : I s) (hC : Along step C s as) : Always step I s as := by
  induction as generalizing s with
  | nil => exact hs
  | cons a as ih =>
    refine ⟨hs, fun s' hs' => ?_⟩
    obtain ⟨hCs, hrest⟩ := hC s' hs'
    exact ih (hstep s a s' hs' hCs hs) hrest

/-- INTERNAL: the invariant rule for a property that every step keeps. -/
theorem always_of_step {s : σ} {as : List α}
    (hstep : ∀ s a s', step s a = some s' → I s → I s') (hs : I s) :
    Always step I s as := by
  induction as generalizing s with
  | nil => exact hs
  | cons a as ih => exact ⟨hs, fun s' hs' => ih (hstep s a s' hs' hs)⟩

/-- INTERNAL: a condition that holds of every step taken in a state satisfying the
invariant holds along the run. -/
theorem Along.of_always {s : σ} {as : List α} (hI : Always step I s as)
    (hC : Along step C s as)
    (hstep : ∀ s a s', step s a = some s' → C s a s' → I s → I s' → D s a s') :
    Along step D s as := by
  induction as generalizing s with
  | nil => trivial
  | cons a as ih =>
    intro s' hs
    obtain ⟨hCs, hrest⟩ := hC s' hs
    exact ⟨hstep s a s' hs hCs hI.1 (hI.2 s' hs).head, ih (hI.2 s' hs) hrest⟩

/-- INTERNAL: a property holds sometime unless its negation holds always. -/
theorem sometime_iff {s : σ} {as : List α} :
    Sometime step Q s as ↔ ¬ Always step (fun s => ¬ Q s) s as := by
  induction as generalizing s with
  | nil => exact not_not.symm
  | cons a as ih =>
    constructor
    · rintro (hQ | ⟨s', hs, hrest⟩) h
      · exact h.1 hQ
      · exact ih.mp hrest (h.2 s' hs)
    · intro h
      by_contra hnever
      rw [Sometime, not_or] at hnever
      refine h ⟨hnever.1, fun s' hs => ?_⟩
      by_contra hrest
      exact hnever.2 ⟨s', hs, ih.mpr hrest⟩

/-- **The rule of the cause.**  What does not hold at first and holds at last, and comes to hold
in states satisfying `Q` only, has had a state satisfying `Q` before it. -/
theorem sometime_of_change {s t : σ} {as : List α}
    (hstep : ∀ s a s', step s a = some s' → R s' → R s ∨ Q s) (hs : ¬ R s)
    (hrun : run step s as = some t) (ht : R t) : Sometime step Q s as := by
  induction as generalizing s with
  | nil =>
    obtain rfl : s = t := Option.some.inj hrun
    exact absurd ht hs
  | cons a as ih =>
    obtain ⟨s', hs', hrest⟩ := run_cons_eq_some.mp hrun
    by_cases hR : R s'
    · exact .inl ((hstep s a s' hs' hR).resolve_left hs)
    · exact .inr ⟨s', hs', ih hR hrest⟩

/-- **The exactness rule.**  Let the invariant `I` be kept by every step that meets `A` and
`C` and imply `Q`, and let a step that meets `A` and leads from `I` to `Q` meet `C`.  Then
along a run that meets `A` the property `Q` holds throughout exactly when every step meets
`C`. -/
theorem always_iff_of_invariant {A : σ → α → σ → Prop} {s : σ} {as : List α}
    (hI : ∀ s a s', step s a = some s' → A s a s' → C s a s' → I s → I s')
    (hIQ : ∀ s, I s → Q s)
    (hQC : ∀ s a s', step s a = some s' → A s a s' → I s → Q s' → C s a s')
    (hs : I s) (hA : Along step A s as) : Always step Q s as ↔ Along step C s as := by
  induction as generalizing s with
  | nil => simpa using hIQ s hs
  | cons a as ih =>
    constructor
    · rintro ⟨-, h⟩ s' hs'
      obtain ⟨hAs, hrest⟩ := hA s' hs'
      have hCs : C s a s' := hQC s a s' hs' hAs hs (h s' hs').head
      exact ⟨hCs, (ih (hI s a s' hs' hAs hCs hs) hrest).mp (h s' hs')⟩
    · intro h
      refine ⟨hIQ s hs, fun s' hs' => ?_⟩
      obtain ⟨hAs, hrest⟩ := hA s' hs'
      obtain ⟨hCs, hC⟩ := h s' hs'
      exact (ih (hI s a s' hs' hAs hCs hs) hrest).mpr hC

/-- INTERNAL: the exactness rule for an invariant `J` that does not depend on `C`, when
from `J` and `Q` a step keeps `Q` exactly when it meets `C`. -/
theorem always_iff_along {A : σ → α → σ → Prop} {s : σ} {as : List α}
    (hJ : ∀ s a s', step s a = some s' → A s a s' → J s → J s')
    (hQ : ∀ s a s', step s a = some s' → A s a s' → J s → Q s → (Q s' ↔ C s a s'))
    (hJs : J s) (hQs : Q s) (hA : Along step A s as) :
    Always step Q s as ↔ Along step C s as := by
  refine always_iff_of_invariant (I := fun s => J s ∧ Q s) ?_ (fun s hs => hs.2) ?_
    ⟨hJs, hQs⟩ hA
  · exact fun s a s' h hAs hCs hs => ⟨hJ s a s' h hAs hs.1, (hQ s a s' h hAs hs.1 hs.2).mpr hCs⟩
  · exact fun s a s' h hAs hs hQ' => (hQ s a s' h hAs hs.1 hs.2).mp hQ'

/-- INTERNAL: two ways of noting the transitions that agree on each agree on the run. -/
theorem observed_map_congr {β γ δ : Type} {f : σ → α → σ → Option β} {g : σ → α → σ → Option γ}
    {u : β → δ} {v : γ → δ}
    (hstep : ∀ s a s', step s a = some s' → (f s a s').map u = (g s a s').map v)
    (s : σ) (as : List α) : (observed step f s as).map u = (observed step g s as).map v := by
  induction as generalizing s with
  | nil => rfl
  | cons a as ih =>
    cases hs : step s a with
    | none => simp only [observed, hs, List.map_nil]
    | some s' =>
      have hhead : (f s a s').toList.map u = (g s a s').toList.map v := by
        rw [← Option.toList_map, ← Option.toList_map, hstep s a s' hs]
      simp only [observed, hs, List.map_append, hhead, ih s']

section Decidable

/-- Conditions that can be evaluated can be evaluated along a run. -/
instance Along.decidable [∀ s a s', Decidable (C s a s')] :
    (s : σ) → (as : List α) → Decidable (Along step C s as)
  | _, [] => isTrue trivial
  | s, a :: as =>
    match h : step s a with
    | none => isTrue fun s' hs => by simp [h] at hs
    | some s' =>
      have : Decidable (Along step C s' as) := Along.decidable s' as
      decidable_of_iff (C s a s' ∧ Along step C s' as)
        ⟨fun hC t ht => by rwa [← Option.some.inj (h.symm.trans ht)], fun hC => hC s' h⟩

/-- Properties that can be evaluated can be evaluated in every state of a run. -/
instance Always.decidable [DecidablePred Q] :
    (s : σ) → (as : List α) → Decidable (Always step Q s as)
  | s, [] => inferInstanceAs (Decidable (Q s))
  | s, a :: as =>
    match h : step s a with
    | none => decidable_of_iff (Q s)
        ⟨fun hQ => ⟨hQ, fun s' hs => by simp [h] at hs⟩, fun hQ => hQ.1⟩
    | some s' =>
      have : Decidable (Always step Q s' as) := Always.decidable s' as
      decidable_of_iff (Q s ∧ Always step Q s' as)
        ⟨fun hQ => ⟨hQ.1, fun t ht => by rw [← Option.some.inj (h.symm.trans ht)]; exact hQ.2⟩,
          fun hQ => ⟨hQ.1, hQ.2 s' h⟩⟩

end Decidable

section Morphism

variable {step' : τ → α → Option τ} {f : σ → τ}

/-- INTERNAL: a map that commutes with the steps commutes with the runs. -/
theorem run_map (hf : ∀ s a, step' (f s) a = (step s a).map f) (s : σ) (as : List α) :
    run step' (f s) as = (run step s as).map f := by
  induction as generalizing s with
  | nil => rfl
  | cons a as ih =>
    rw [run_cons, run_cons, hf]
    cases step s a with
    | none => rfl
    | some s' => exact ih s'

/-- INTERNAL: properties of states transfer along a map that commutes with the steps. -/
theorem always_map (hf : ∀ s a, step' (f s) a = (step s a).map f) {Q' : τ → Prop}
    (s : σ) (as : List α) :
    Always step' Q' (f s) as ↔ Always step (fun s => Q' (f s)) s as := by
  induction as generalizing s with
  | nil => exact Iff.rfl
  | cons a as ih =>
    refine and_congr_right fun _ => ?_
    rw [hf]
    cases step s a with
    | none => simp
    | some s' => simpa using ih s'

/-- INTERNAL: conditions on steps transfer along a map that commutes with the steps. -/
theorem along_map (hf : ∀ s a, step' (f s) a = (step s a).map f) {C' : τ → α → τ → Prop}
    (s : σ) (as : List α) :
    Along step' C' (f s) as ↔ Along step (fun s a s' => C' (f s) a (f s')) s as := by
  induction as generalizing s with
  | nil => exact Iff.rfl
  | cons a as ih =>
    simp only [Along]
    rw [hf]
    cases step s a with
    | none => simp
    | some s' => simpa using fun _ => ih s'

end Morphism

/-- **The simulation rule.**  Let every step that meets `C` be answered, from related
states, by no step at all or by a step for the same action, which is then a `B`.  Then a run
whose steps meet `C` is answered by a run of some of its actions. -/
theorem exists_run_of_simulation {step' : τ → α → Option τ} {R : σ → τ → Prop} {B : α → Prop}
    (hstep : ∀ s a s' t, step s a = some s' → C s a s' → R s t →
      R s' t ∨ (B a ∧ ∃ t', step' t a = some t' ∧ R s' t'))
    {s s' : σ} {t : τ} {as : List α} (hrun : run step s as = some s') (hC : Along step C s as)
    (hR : R s t) :
    ∃ bs : List α, bs.Sublist as ∧ (∀ b ∈ bs, B b) ∧ ∃ t', run step' t bs = some t' ∧ R s' t' := by
  induction as generalizing s t with
  | nil =>
    obtain rfl := Option.some.inj hrun
    exact ⟨[], List.Sublist.refl [], fun b hb => absurd hb List.not_mem_nil, t, rfl, hR⟩
  | cons a as ih =>
    obtain ⟨m, hm, hrest⟩ := run_cons_eq_some.mp hrun
    obtain ⟨hCm, hCrest⟩ := hC m hm
    rcases hstep s a m t hm hCm hR with hskip | ⟨hB, t', ht', hR'⟩
    · obtain ⟨bs, hsub, hbs, hanswer⟩ := ih hrest hCrest hskip
      exact ⟨bs, hsub.cons a, hbs, hanswer⟩
    · obtain ⟨bs, hsub, hbs, u, hu, hRu⟩ := ih hrest hCrest hR'
      refine ⟨a :: bs, hsub.cons_cons a, ?_, u, run_cons_eq_some.mpr ⟨t', ht', hu⟩, hRu⟩
      intro b hb
      rcases List.mem_cons.mp hb with rfl | hold
      · exact hB
      · exact hbs b hold

end EventBus.Lib
