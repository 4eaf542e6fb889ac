import Mathlib.Data.Nat.Notation
import EventBus.Lib.Run

/-!
# Progress of a machine

That a machine comes to a state is a statement about its runs as a whole: none of them stops
before it gets there, and none goes on for ever without it.  `Inevitably step A Q s` says this
of the runs from `s` in which only actions that satisfy `A` are taken.

The rule is that of a rank: it is enough that some action can be taken and that every one that
can be taken brings the rank down.

Where a part of a machine shares it with others, `InevitablyAmid` says the same of the steps of
that part alone: the others may take any number of steps in between.
-/

set_option autoImplicit false

namespace EventBus.Lib

variable {σ α : Type}

/-- Whatever happens, as long as it satisfies `A`, the machine comes to a state with `Q`. -/
inductive Inevitably (step : σ → α → Option σ) (A : α → Prop) (Q : σ → Prop) : σ → Prop where
  | now {s : σ} (h : Q s) : Inevitably step A Q s
  | later {s s' : σ} {a : α} (ha : A a) (hs : step s a = some s')
      (h : ∀ b t, A b → step s b = some t → Inevitably step A Q t) : Inevitably step A Q s

variable {step : σ → α → Option σ} {A : α → Prop} {I Q : σ → Prop}

/-- **The rule of ranks.**  Let `I` be an invariant of the states that do not have `Q` yet.  If
in each of them some action can be taken, and each that can be taken leads to `Q` or brings the
rank down, the machine comes to a state with `Q`. -/
theorem inevitably_of_rank (rank : σ → ℕ)
    (hlive : ∀ s, I s → ¬ Q s → ∃ a s', A a ∧ step s a = some s')
    (hdown : ∀ s a s', I s → ¬ Q s → A a → step s a = some s' →
      Q s' ∨ (I s' ∧ rank s' < rank s))
    {s : σ} (hs : I s) : Inevitably step A Q s := by
  have hbound : ∀ n s, rank s < n → I s → Inevitably step A Q s := by
    intro n
    induction n with
    | zero =>
      intro s hn
      omega
    | succ n ih =>
      intro s hn hs
      by_cases hQ : Q s
      · exact .now hQ
      · obtain ⟨a, s', ha, hs'⟩ := hlive s hs hQ
        apply Inevitably.later ha hs'
        intro b t hb ht
        rcases hdown s b t hs hQ hb ht with hQt | ⟨hI, hlt⟩
        · exact .now hQt
        · exact ih t (by omega) hI
  exact hbound (rank s + 1) s (Nat.lt_succ_self _) hs

/-- Nothing comes of a state in which nothing can happen. -/
theorem not_inevitably_of_stuck {s : σ} (hQ : ¬ Q s) (hstuck : ∀ a, A a → step s a = none) :
    ¬ Inevitably step A Q s := by
  intro h
  cases h with
  | now h => exact hQ h
  | later ha hs =>
    rw [hstuck _ ha] at hs
    cases hs

/-! ## Progress amid the steps of others -/

/-- Whatever happens, the machine comes to a state with `Q` by steps that satisfy `A`.  Before
each of them there may be any number of steps that satisfy `other`, and after them a step that
satisfies `A` can still be taken; so `Q` is reached unless only others move from some time on. -/
inductive InevitablyAmid (step : σ → α → Option σ) (other A : α → Prop) (Q : σ → Prop) :
    σ → Prop where
  | now {s : σ} (h : Q s) : InevitablyAmid step other A Q s
  | later {s : σ}
      (hlive : ∀ as t, (∀ a ∈ as, other a) → run step s as = some t →
        ∃ a t', A a ∧ step t a = some t')
      (h : ∀ as t a t', (∀ a ∈ as, other a) → run step s as = some t → A a →
        step t a = some t' → InevitablyAmid step other A Q t') :
      InevitablyAmid step other A Q s

variable {other : α → Prop}

/-- INTERNAL: others keep the invariant and do not bring the rank up. -/
theorem rank_of_others {rank : σ → ℕ}
    (hother : ∀ s a s', I s → other a → step s a = some s' → I s' ∧ rank s' ≤ rank s)
    {s t : σ} {as : List α} (has : ∀ a ∈ as, other a) (hrun : run step s as = some t) (hs : I s) :
    I t ∧ rank t ≤ rank s := by
  induction as generalizing s with
  | nil =>
    obtain rfl : s = t := Option.some.inj hrun
    exact ⟨hs, Nat.le_refl _⟩
  | cons a as ih =>
    obtain ⟨s', hs', hrest⟩ := run_cons_eq_some.mp hrun
    obtain ⟨hI, hle⟩ := hother s a s' hs (has a List.mem_cons_self) hs'
    obtain ⟨hIt, hlet⟩ := ih (fun b hb => has b (List.mem_cons_of_mem a hb)) hrest hI
    exact ⟨hIt, Nat.le_trans hlet hle⟩

/-- **The rule of ranks amid others.**  It is enough that others keep an invariant and do not
bring the rank up, that under the invariant some step with `A` can be taken, and that each that
can be taken leads to `Q` or keeps the invariant and brings the rank down. -/
theorem inevitablyAmid_of_rank (rank : σ → ℕ)
    (hlive : ∀ s, I s → ∃ a s', A a ∧ step s a = some s')
    (hdown : ∀ s a s', I s → A a → step s a = some s' → Q s' ∨ (I s' ∧ rank s' < rank s))
    (hother : ∀ s a s', I s → other a → step s a = some s' → I s' ∧ rank s' ≤ rank s)
    {s : σ} (hs : I s) : InevitablyAmid step other A Q s := by
  have hbound : ∀ n s, rank s < n → I s → InevitablyAmid step other A Q s := by
    intro n
    induction n with
    | zero =>
      intro s hn
      omega
    | succ n ih =>
      intro s hn hs
      apply InevitablyAmid.later
      · intro as t has hrun
        exact hlive t (rank_of_others hother has hrun hs).1
      · intro as t a t' has hrun ha ht'
        obtain ⟨hI, hle⟩ := rank_of_others hother has hrun hs
        rcases hdown t a t' hI ha ht' with hQ | ⟨hI', hlt⟩
        · exact .now hQ
        · exact ih t' (by omega) hI'
  exact hbound (rank s + 1) s (Nat.lt_succ_self _) hs

/-- INTERNAL: progress transfers along a map that commutes with the steps. -/
theorem InevitablyAmid.map {τ : Type} {step' : τ → α → Option τ} {f : σ → τ}
    (hf : ∀ s a, step' (f s) a = (step s a).map f) {Q' : τ → Prop} (hQ : ∀ s, Q s → Q' (f s))
    {s : σ} (h : InevitablyAmid step other A Q s) : InevitablyAmid step' other A Q' (f s) := by
  induction h with
  | now h => exact .now (hQ _ h)
  | @later s hlive _ ih =>
    apply InevitablyAmid.later
    · intro as u has hrun
      rw [run_map hf] at hrun
      obtain ⟨t, ht, rfl⟩ := Option.map_eq_some_iff.mp hrun
      obtain ⟨a, t', ha, ht'⟩ := hlive as t has ht
      refine ⟨a, f t', ha, ?_⟩
      rw [hf, ht', Option.map_some]
    · intro as u a u' has hrun ha hu'
      rw [run_map hf] at hrun
      obtain ⟨t, ht, rfl⟩ := Option.map_eq_some_iff.mp hrun
      rw [hf] at hu'
      obtain ⟨t', ht', rfl⟩ := Option.map_eq_some_iff.mp hu'
      exact ih as t a t' has ht ha ht'

end EventBus.Lib
