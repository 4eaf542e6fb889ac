import Mathlib.Algebra.Order.Ring.Defs
import Mathlib.Algebra.Order.Ring.Unbundled.Basic
import EventBus.Lib.Run

/-!
# Waiting longer and longer

Something that is tried until it succeeds waits after every failure: `initial` at first, each
time `factor` times as long as before, and never longer than `cap`.  A program keeps the
length of its next wait; `Backoff.next` is what it makes of it, and `Backoff.delay` is the
length of the wait number `k` since the last success, in closed form.

`Phase` is such a program seen from outside, and `Backoff.Paced` says what it may do.  A
machine whose steps are paced obeys the law: `Backoff.lawful_observed` for the waits of its
runs, `Backoff.always_stored` for what it keeps.
-/

set_option autoImplicit false

namespace EventBus.Lib

/-- How long to wait. -/
structure Backoff (D : Type) [Semiring D] [LinearOrder D] where
  initial : D
  factor : D
  cap : D
  initial_nonneg : 0 ≤ initial
  one_le_factor : 1 ≤ factor
  initial_le_cap : initial ≤ cap

/-- What is seen of something that is tried again. -/
inductive Mark (D : Type) where
  /-- It has succeeded. -/
  | opened
  | wait (length : D)
  deriving DecidableEq

/-- Where something that is tried again is: it goes on, with a length kept for its next wait,
or it waits, or it has been given up. -/
inductive Phase (D : Type) where
  | ready (stored : D)
  | waiting (stored : D)
  | ended

/-- The number of waits since the last success, of `k` that came before. -/
def waitsAfter {D : Type} (k : ℕ) : List (Mark D) → ℕ
  | [] => k
  | .opened :: ms => waitsAfter 0 ms
  | .wait _ :: ms => waitsAfter (k + 1) ms

def Mark.isOpened {D : Type} : Mark D → Bool
  | .opened => true
  | .wait _ => false

/-- INTERNAL: nothing has been waited for since a success. -/
theorem waitsAfter_opened {D : Type} (k : ℕ) (ms : List (Mark D)) :
    waitsAfter k (ms ++ [.opened]) = 0 := by
  induction ms generalizing k with
  | nil => rfl
  | cons m ms ih => cases m <;> exact ih _

/-- What a mark makes of the number of waits. -/
theorem waitsAfter_cons {D : Type} (k : ℕ) (m : Mark D) (ms : List (Mark D)) :
    waitsAfter k (m :: ms) = waitsAfter (waitsAfter k [m]) ms := by
  cases m <;> rfl

/-- The length that is kept. -/
def Phase.stored {D : Type} : Phase D → Option D
  | .ready b | .waiting b => some b
  | .ended => none

namespace Backoff

variable {D : Type} [Semiring D] [LinearOrder D] (B : Backoff D)

/-- The length of the wait after one of length `b`. -/
def next (b : D) : D := min (b * B.factor) B.cap

/-- The length of the wait number `k` since the last success. -/
def delay (k : ℕ) : D := min (B.initial * B.factor ^ k) B.cap

/-- Every wait is as long as its number says, when `k` came before. -/
def LawfulFrom (k : ℕ) (ms : List (Mark D)) : Prop :=
  ∀ before d after, ms = before ++ .wait d :: after → d = B.delay (waitsAfter k before)

/-- What may happen: a wait of the length that is kept, the end of a wait, after which the
next one is kept, a success, which brings back the first length, or the end. -/
inductive Paced : Phase D → Option (Mark D) → Phase D → Prop where
  | stay (p : Phase D) : Paced p none p
  | wait (b : D) : Paced (.ready b) (some (.wait b)) (.waiting b)
  | resume (b : D) : Paced (.waiting b) none (.ready (B.next b))
  | opened (b : D) : Paced (.ready b) (some .opened) (.ready B.initial)
  | stop (p : Phase D) : Paced p none .ended

/-- The length that is kept belongs to `k` waits since the last success, the one under way
included. -/
def At (k : ℕ) : Phase D → Prop
  | .ready b => b = B.delay k
  | .waiting b => ∃ j, k = j + 1 ∧ b = B.delay j
  | .ended => True

/-! ## The law -/

section Law

variable {B}

/-- INTERNAL: one mark before a lawful sequence. -/
theorem LawfulFrom.cons {k : ℕ} {m : Mark D} {ms : List (Mark D)}
    (hm : ∀ d, m = .wait d → d = B.delay k) (hms : B.LawfulFrom (waitsAfter k [m]) ms) :
    B.LawfulFrom k (m :: ms) := by
  intro before d after hsplit
  cases before with
  | nil =>
    obtain ⟨rfl, -⟩ := List.cons.inj hsplit
    exact hm d rfl
  | cons m' before =>
    obtain ⟨rfl, hrest⟩ := List.cons.inj hsplit
    rw [waitsAfter_cons]
    exact hms before d after hrest

/-- INTERNAL: the first wait of a lawful sequence. -/
theorem LawfulFrom.head {k : ℕ} {d : D} {ms : List (Mark D)}
    (h : B.LawfulFrom k (.wait d :: ms)) : d = B.delay k := h [] d ms rfl

/-- INTERNAL: the rest of a lawful sequence. -/
theorem LawfulFrom.tail {k : ℕ} {m : Mark D} {ms : List (Mark D)}
    (h : B.LawfulFrom k (m :: ms)) : B.LawfulFrom (waitsAfter k [m]) ms := by
  intro before d after hsplit
  have hlaw := h (m :: before) d after (congrArg (List.cons m) hsplit)
  rwa [waitsAfter_cons] at hlaw

/-- **The law leaves nothing open**: where successes and waits follow each other in the same
way the waits are the same. -/
theorem LawfulFrom.unique {k : ℕ} {ms ms' : List (Mark D)} (h : B.LawfulFrom k ms)
    (h' : B.LawfulFrom k ms') (hshape : ms.map Mark.isOpened = ms'.map Mark.isOpened) :
    ms = ms' := by
  induction ms generalizing k ms' with
  | nil =>
    cases ms' with
    | nil => rfl
    | cons m' ms' => cases hshape
  | cons m ms ih =>
    cases ms' with
    | nil => cases hshape
    | cons m' ms' =>
      obtain ⟨hopened, hrest⟩ := List.cons.inj hshape
      have hm : m = m' := by
        cases m with
        | opened =>
          cases m' with
          | opened => rfl
          | wait d' => cases hopened
        | wait d =>
          cases m' with
          | opened => cases hopened
          | wait d' => rw [h.head, h'.head]
      subst hm
      rw [ih h.tail h'.tail hrest]

/-- INTERNAL: what is kept has the length of some wait. -/
theorem At.stored {k : ℕ} {p : Phase D} (h : B.At k p) {b : D} (hb : p.stored = some b) :
    ∃ j, b = B.delay j := by
  cases p with
  | ready c =>
    obtain rfl := Option.some.inj hb
    exact ⟨k, h⟩
  | waiting c =>
    obtain rfl := Option.some.inj hb
    obtain ⟨j, -, hj⟩ := h
    exact ⟨j, hj⟩
  | ended => cases hb

end Law

/-! ## The closed form -/

/-- INTERNAL: the first wait is the initial one. -/
theorem delay_zero : B.delay 0 = B.initial := by
  unfold delay
  rw [pow_zero, mul_one]
  exact min_eq_left B.initial_le_cap

/-- INTERNAL: the first wait after a success has the first length. -/
theorem LawfulFrom.after_opened {B : Backoff D} {k : ℕ} {ms before after : List (Mark D)} {d : D}
    (h : B.LawfulFrom k ms) (hsplit : ms = before ++ .opened :: .wait d :: after) :
    d = B.initial := by
  have hsplit' : ms = (before ++ [.opened]) ++ .wait d :: after := by
    rw [hsplit, List.append_assoc]
    rfl
  rw [h _ d after hsplit', waitsAfter_opened, B.delay_zero]

/-- INTERNAL: no wait is over the cap. -/
theorem delay_le_cap (k : ℕ) : B.delay k ≤ B.cap := min_le_right _ _

variable [IsOrderedRing D]

/-- INTERNAL: what follows a wait is the next one. -/
theorem next_delay (k : ℕ) : B.next (B.delay k) = B.delay (k + 1) := by
  have hfactor : 0 ≤ B.factor := zero_le_one.trans B.one_le_factor
  have hcap : B.cap ≤ B.cap * B.factor :=
    le_mul_of_one_le_right (B.initial_nonneg.trans B.initial_le_cap) B.one_le_factor
  unfold next delay
  rw [min_mul_of_nonneg _ _ hfactor, min_assoc, min_eq_right hcap, pow_succ, mul_assoc]

/-- INTERNAL: no wait is below the first. -/
theorem initial_le_delay (k : ℕ) : B.initial ≤ B.delay k := by
  apply le_min _ B.initial_le_cap
  exact le_mul_of_one_le_right B.initial_nonneg (one_le_pow₀ B.one_le_factor)

/-! ## Machines that are paced -/

variable {B}

/-- INTERNAL: what is paced waits as its number says, and counts its waits. -/
theorem Paced.keeps {k : ℕ} {p p' : Phase D} {m : Option (Mark D)} (h : B.Paced p m p')
    (hp : B.At k p) :
    B.At (waitsAfter k m.toList) p' ∧ ∀ d, m = some (.wait d) → d = B.delay k := by
  cases h with
  | stay p => exact ⟨hp, nofun⟩
  | wait b =>
    refine ⟨⟨k, rfl, hp⟩, ?_⟩
    rintro d hd
    obtain rfl := Mark.wait.inj (Option.some.inj hd)
    exact hp
  | resume b =>
    obtain ⟨j, rfl, rfl⟩ := hp
    exact ⟨B.next_delay j, nofun⟩
  | opened b => exact ⟨B.delay_zero.symm, nofun⟩
  | stop p => exact ⟨trivial, nofun⟩

section Machine

variable {σ α : Type} {step : σ → α → Option σ} {mark : σ → α → σ → Option (Mark D)}
  {phase : σ → Phase D}

/-- **A machine that is paced obeys the law.** -/
theorem lawful_observed
    (hpaced : ∀ s a s', step s a = some s' → B.Paced (phase s) (mark s a s') (phase s'))
    {k : ℕ} {s : σ} (hs : B.At k (phase s)) (as : List α) :
    B.LawfulFrom k (observed step mark s as) := by
  induction as generalizing k s with
  | nil =>
    intro before d after hsplit
    exact absurd hsplit.symm (by simp [observed])
  | cons a as ih =>
    cases hstep : step s a with
    | none =>
      intro before d after hsplit
      exact absurd hsplit.symm (by simp [observed, hstep])
    | some s' =>
      obtain ⟨hs', hwait⟩ := (hpaced s a s' hstep).keeps hs
      have hrest := ih hs'
      simp only [observed, hstep]
      cases hm : mark s a s' with
      | none =>
        rw [hm] at hrest
        exact hrest
      | some m =>
        rw [hm] at hrest
        apply LawfulFrom.cons _ hrest
        intro d hd
        exact hwait d (by rw [hm, hd])

/-- **A machine that is paced keeps lengths between the first and the greatest.** -/
theorem always_stored
    (hpaced : ∀ s a s', step s a = some s' → B.Paced (phase s) (mark s a s') (phase s'))
    {k : ℕ} {s : σ} (hs : B.At k (phase s)) (as : List α) :
    Always step (fun s => ∀ b, (phase s).stored = some b → B.initial ≤ b ∧ b ≤ B.cap) s as := by
  have hall : Always step (fun s => ∃ k, B.At k (phase s)) s as := by
    apply always_of_step _ ⟨k, hs⟩
    intro s a s' hstep hat
    obtain ⟨k, hk⟩ := hat
    exact ⟨_, ((hpaced s a s' hstep).keeps hk).1⟩
  apply hall.mono
  intro s hat b hb
  obtain ⟨k, hk⟩ := hat
  obtain ⟨j, rfl⟩ := hk.stored hb
  exact ⟨B.initial_le_delay j, B.delay_le_cap j⟩

end Machine

end Backoff

end EventBus.Lib
