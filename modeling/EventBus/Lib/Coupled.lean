import Mathlib.Logic.Function.Basic
import EventBus.Lib.Run

/-!
# Systems of two parts

Two machines may run side by side and meet in some of their actions.  A `Coupling` says of
every action of the system what each of the parts does in it, an action of its own or
nothing, and when the parts allow it.  Whatever one part keeps on its own it keeps in the
system (`Coupling.always_left`, `Coupling.always_right`), and the system is the same over two
machines of which one is the other read through a map (`Coupling.step_map`).

`each` runs one machine for every index, an action at a time.
-/

set_option autoImplicit false

namespace EventBus.Lib

open Function (update)

variable {σ τ τ' α β γ : Type}

/-- An action, or nothing at all. -/
def stepIf (step : σ → α → Option σ) (s : σ) : Option α → Option σ
  | none => some s
  | some a => step s a

/-- INTERNAL: without an action nothing changes. -/
@[simp] theorem stepIf_none (step : σ → α → Option σ) (s : σ) : stepIf step s none = some s := rfl

/-- INTERNAL: an action is a step. -/
@[simp] theorem stepIf_some (step : σ → α → Option σ) (s : σ) (a : α) :
    stepIf step s (some a) = step s a := rfl

/-- INTERNAL: what a step keeps is kept by an action or nothing. -/
theorem stepIf_keeps {step : σ → α → Option σ} {I : σ → Prop} {s s' : σ} {a : Option α}
    (hstep : ∀ s a s', step s a = some s' → I s → I s') (h : stepIf step s a = some s')
    (hs : I s) : I s' := by
  cases a with
  | none =>
    obtain rfl := Option.some.inj h
    exact hs
  | some a => exact hstep s a s' h hs

/-- The actions of a system, each with what its parts do in it. -/
structure Coupling (σ τ α β γ : Type) where
  /-- The parts allow the action. -/
  may : σ → τ → γ → Bool
  left : γ → Option α
  right : γ → Option β

namespace Coupling

variable (K : Coupling σ τ α β γ) (step₁ : σ → α → Option σ) (step₂ : τ → β → Option τ)

/-- One action of the system. -/
def step (x : σ × τ) (g : γ) : Option (σ × τ) :=
  if K.may x.1 x.2 g then
    (stepIf step₁ x.1 (K.left g)).bind fun s =>
      (stepIf step₂ x.2 (K.right g)).map fun t => (s, t)
  else
    none

variable {K step₁ step₂} {x x' : σ × τ} {g : γ}

/-- **A step of the system** is allowed and is a step of each part that takes part in it. -/
theorem step_eq_some : K.step step₁ step₂ x g = some x' ↔
    K.may x.1 x.2 g = true ∧ stepIf step₁ x.1 (K.left g) = some x'.1 ∧
      stepIf step₂ x.2 (K.right g) = some x'.2 := by
  obtain ⟨s', t'⟩ := x'
  unfold step
  rw [Option.ite_none_right_eq_some, Option.bind_eq_some_iff]
  refine and_congr_right fun _ => ?_
  constructor
  · rintro ⟨s, hs, hpair⟩
    obtain ⟨t, ht, hst⟩ := Option.map_eq_some_iff.mp hpair
    obtain ⟨rfl, rfl⟩ := Prod.mk.inj hst
    exact ⟨hs, ht⟩
  · rintro ⟨hs, ht⟩
    exact ⟨s', hs, Option.map_eq_some_iff.mpr ⟨t', ht, rfl⟩⟩

/-- INTERNAL: what holds in every run of the left part holds of it in every run of the
system. -/
theorem always_left {Q : σ → Prop} {gs : List γ}
    (h : Always step₁ Q x.1 (gs.filterMap K.left)) :
    Always (K.step step₁ step₂) (fun x => Q x.1) x gs := by
  induction gs generalizing x with
  | nil => exact h
  | cons g gs ih =>
    refine ⟨h.head, fun x' hx => ?_⟩
    obtain ⟨-, hleft, -⟩ := step_eq_some.mp hx
    cases hg : K.left g with
    | none =>
      rw [List.filterMap_cons_none hg] at h
      rw [hg, stepIf_none] at hleft
      obtain hsame := Option.some.inj hleft
      exact ih (hsame ▸ h)
    | some a =>
      rw [List.filterMap_cons_some hg] at h
      rw [hg, stepIf_some] at hleft
      exact ih (h.2 x'.1 hleft)

/-- **The system over a machine that is read through a map.**  If `f` commutes with the steps
of the right part, and the two couplings allow the same actions, it commutes with the steps of
the system. -/
theorem step_map {K' : Coupling σ τ' α β γ} {step₂' : τ' → β → Option τ'} {f : τ → τ'}
    (hf : ∀ t b, step₂' (f t) b = (step₂ t b).map f)
    (hmay : ∀ s t g, K'.may s (f t) g = K.may s t g) (hleft : K'.left = K.left)
    (hright : K'.right = K.right) (x : σ × τ) (g : γ) :
    K'.step step₁ step₂' (x.1, f x.2) g =
      (K.step step₁ step₂ x g).map fun x => (x.1, f x.2) := by
  have hpart : stepIf step₂' (f x.2) (K.right g) = (stepIf step₂ x.2 (K.right g)).map f := by
    cases K.right g with
    | none => rfl
    | some b => exact hf x.2 b
  unfold step
  rw [hmay, hleft, hright, hpart]
  split
  · cases stepIf step₁ x.1 (K.left g) with
    | none => rfl
    | some s =>
      simp only [Option.bind_some, Option.map_map]
      rfl
  · rfl

end Coupling

/-! ## A machine for every index -/

section Each

variable {ι : Type} [DecidableEq ι]

/-- One action of the machine of an index. -/
def each (step : σ → α → Option σ) (f : ι → σ) (a : ι × α) : Option (ι → σ) :=
  (step (f a.1) a.2).map fun s => update f a.1 s

variable {step : σ → α → Option σ} {f f' : ι → σ} {a : ι × α}

/-- INTERNAL: one member of a family makes its step, and the others stay. -/
theorem each_eq_some : each step f a = some f' ↔
    ∃ s, step (f a.1) a.2 = some s ∧ f' = update f a.1 s := by
  unfold each
  rw [Option.map_eq_some_iff]
  exact exists_congr fun s => and_congr_right fun _ => eq_comm

/-- INTERNAL: what each machine keeps, all of them keep. -/
theorem each_keeps {I : ι → σ → Prop}
    (hstep : ∀ i s a s', step s a = some s' → I i s → I i s') (h : each step f a = some f')
    (hf : ∀ i, I i (f i)) : ∀ i, I i (f' i) := by
  obtain ⟨s, hs, rfl⟩ := each_eq_some.mp h
  intro i
  by_cases hi : i = a.1
  · subst hi
    rw [Function.update_self]
    exact hstep a.1 (f a.1) a.2 s hs (hf a.1)
  · rw [Function.update_of_ne hi]
    exact hf i

end Each

end EventBus.Lib
