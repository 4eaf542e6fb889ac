import Mathlib.Data.Option.Basic
import Mathlib.Data.List.Basic

/-!
# Actions that do not notice each other

A machine here answers every action: `step s a` is the answer and the state after it, and
`outputs` are the answers of a run, each with its action.

Take the actions of one kind, those that are `mine`.  If they cannot notice the others, they
are answered alike in a run without the others.  `Purges` is the condition: a relation
between the states of the two runs that is kept by an action of the kind when it is taken in
both, and by another one when it is taken in the first.

`Keyed` machines have the relation for free.  Their state has a slot for every key and a
clock, an action is about one key or lets time pass, and it reads and writes no slot but that
of its key.  So actions that are about other keys are not noticed.
-/

set_option autoImplicit false

namespace EventBus.Lib

variable {σ α ο κ : Type}

/-- The answers of a run. -/
def outputs (step : σ → α → ο × σ) : σ → List α → List (α × ο)
  | _, [] => []
  | s, a :: as => (a, (step s a).1) :: outputs step (step s a).2 as

variable {step : σ → α → ο × σ} {mine : α → Bool} {s t : σ}

/-- Actions of a kind do not notice the others. -/
structure Purges (step : σ → α → ο × σ) (mine : α → Bool) (R : σ → σ → Prop) : Prop where
  answer : ∀ a s t, mine a = true → R s t → (step s a).1 = (step t a).1
  own : ∀ a s t, mine a = true → R s t → R (step s a).2 (step t a).2
  other : ∀ a s t, mine a = false → R s t → R (step s a).2 t

/-- **The actions of a kind are answered as if there were no others.** -/
theorem Purges.outputs_filter {R : σ → σ → Prop} (h : Purges step mine R) (as : List α)
    (hst : R s t) :
    (outputs step s as).filter (fun e => mine e.1) = outputs step t (as.filter mine) := by
  induction as generalizing s t with
  | nil => rfl
  | cons a as ih =>
    cases ha : mine a with
    | true =>
      have hrest := ih (h.own a s t ha hst)
      simp only [List.filter_cons, outputs, ha, if_true]
      rw [hrest, h.answer a s t ha hst]
    | false =>
      have hrest := ih (h.other a s t ha hst)
      simp only [List.filter_cons, outputs, ha, Bool.false_eq_true, if_false]
      exact hrest

/-! ## Machines with a slot for every key -/

/-- An action is about one key, or lets time pass. -/
structure Keyed (step : σ → α → ο × σ) (κ : Type) where
  Slot : Type
  slot : σ → κ → Slot
  Clock : Type
  clock : σ → Clock
  key : α → Option κ
  answer_congr : ∀ a s t, clock s = clock t → (∀ k, key a = some k → slot s k = slot t k) →
    (step s a).1 = (step t a).1
  slot_congr : ∀ a k s t, clock s = clock t → key a = some k → slot s k = slot t k →
    slot (step s a).2 k = slot (step t a).2 k
  slot_frame : ∀ a k s, key a ≠ some k → slot (step s a).2 k = slot s k
  clock_congr : ∀ a s t, clock s = clock t → clock (step s a).2 = clock (step t a).2
  clock_frame : ∀ a k s, key a = some k → clock (step s a).2 = clock s

namespace Keyed

variable (K : Keyed step κ)

/-- Some action of the kind is about the key. -/
def About (mine : α → Bool) (k : κ) : Prop := ∃ a, mine a = true ∧ K.key a = some k

/-- The states have the same time and the same slots for the keys of a kind. -/
structure Agree (mine : α → Bool) (s t : σ) : Prop where
  clock : K.clock s = K.clock t
  slots : ∀ k, K.About mine k → K.slot s k = K.slot t k

variable {K}

/-- **keyed servers can be purged**: what is about other keys may be left out. -/
theorem purges (hother : ∀ b, mine b = false → ∃ k, K.key b = some k ∧ ¬ K.About mine k) :
    Purges step mine (K.Agree mine) where
  answer a s t ha hst := by
    apply K.answer_congr a s t hst.clock
    intro k hk
    exact hst.slots k ⟨a, ha, hk⟩
  own a s t ha hst := by
    constructor
    · exact K.clock_congr a s t hst.clock
    · intro k hk
      by_cases hkey : K.key a = some k
      · exact K.slot_congr a k s t hst.clock hkey (hst.slots k hk)
      · rw [K.slot_frame a k s hkey, K.slot_frame a k t hkey, hst.slots k hk]
  other b s t hb hst := by
    obtain ⟨k', hkey, hnot⟩ := hother b hb
    constructor
    · rw [K.clock_frame b k' s hkey]
      exact hst.clock
    · intro k hk
      have hne : K.key b ≠ some k := by
        intro heq
        obtain rfl := Option.some.inj (hkey.symm.trans heq)
        exact hnot hk
      rw [K.slot_frame b k s hne]
      exact hst.slots k hk

/-- **Actions about other keys are not noticed.** -/
theorem outputs_filter (K : Keyed step κ) (mine : α → Bool) (s : σ) (as : List α)
    (hother : ∀ b, mine b = false → ∃ k, K.key b = some k ∧ ¬ K.About mine k) :
    (outputs step s as).filter (fun e => mine e.1) = outputs step s (as.filter mine) :=
  (purges hother).outputs_filter as ⟨rfl, fun _ _ => rfl⟩

end Keyed

end EventBus.Lib
