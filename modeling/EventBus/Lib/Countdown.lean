import EventBus.Lib.Lifetimes

/-!
# Threads that come to their ends

A program without loops makes a bounded number of calls, whatever it is answered.  A `Countdown`
of a machine says how many a thread still makes at each point; it falls with every answer.

So a thread that lives can always go on, and each step it takes brings it nearer to its end.
What the other threads do leaves it where it is.
-/

set_option autoImplicit false

namespace EventBus.Lib

open Function (update)

variable {W : World} {M : Machine W}

/-- The thread that an action starts, moves or aborts. -/
def Action.thread : Action W → Option ℕ
  | .spawn i _ | .serve i _ | .fail i _ _ _ | .resume i | .abort i _ _ => some i
  | .land _ _ | .drift _ => none

/-- A bound on the calls that a thread still makes. -/
structure Countdown (M : Machine W) where
  left : W.Job → M.Point → ℕ
  falls : ∀ {job : W.Job} {p : M.Point} {c : W.Call} {k : W.Resp c → M.Point},
    M.view job p = some ⟨c, k⟩ → ∀ r, left job (k r) < left job p

namespace Countdown

variable (L : Countdown M)

/-- A bound on the steps that a thread still takes: a call is served, and the thread goes on with
its answer. -/
def steps : Option (Thread W M.Point) → ℕ
  | some ⟨job, .waiting p⟩ => 2 * L.left job p
  | some ⟨job, .answered p⟩ => 2 * L.left job p + 1
  | _ => 0

end Countdown

variable {L : Countdown M} {s s' : State W M.Point} {a : Action W} {i : ℕ}

/-- **Nobody moves another's thread.** -/
theorem Step.threads_of_ne (h : Step M s a s') (hi : a.thread ≠ some i) :
    s'.threads i = s.threads i := by
  have other : ∀ {j : ℕ} {th : Thread W M.Point}, some j ≠ some i →
      update s.threads j (some th) i = s.threads i := by
    intro j th hj
    apply Function.update_of_ne
    rintro rfl
    exact hj rfl
  cases h with
  | spawn hfree => exact other hi
  | serve hj hv => exact other hi
  | fail hj hv hr => simpa [State.setThread] using other hi
  | resume hj => exact other hi
  | abortWaiting hj hv hfate => simpa [State.setThread] using other hi
  | abortAnswered hj => exact other hi
  | land hn => rfl
  | drift => rfl

/-- INTERNAL: an aborted thread takes no more steps. -/
theorem Step.steps_of_abort (h : Step M s a s') (ha : a.aborts = some i) :
    L.steps (s'.threads i) = 0 := by
  cases h with
  | abortWaiting hi hv hfate =>
    obtain rfl := Option.some.inj ha
    rw [setThread_self]
    rfl
  | abortAnswered hi =>
    obtain rfl := Option.some.inj ha
    rw [setThread_self]
    rfl
  | _ => cases ha

/-- **A step of a thread brings it nearer to its end.** -/
theorem Step.steps_lt (h : Step M s a s') (ha : a.thread = some i) (hstart : a.starts = none)
    (habort : a.aborts = none) : L.steps (s'.threads i) < L.steps (s.threads i) := by
  cases h with
  | @serve j ch job p c k hj hv =>
    obtain rfl := Option.some.inj ha
    have hfalls := L.falls hv (W.answer job c ch s.shared)
    have hafter := setThread_self s j ⟨job, .answered (k (W.answer job c ch s.shared))⟩
    change L.steps ((s.setThread j ⟨job, .answered _⟩).threads j) < _
    rw [hafter, hj]
    simp only [Countdown.steps]
    omega
  | @fail j fate ch err job p c k r hj hv hr =>
    obtain rfl := Option.some.inj ha
    have hfalls := L.falls hv r
    rw [setThread_self, hj]
    simp only [Countdown.steps]
    omega
  | @resume j job p hj =>
    obtain rfl := Option.some.inj ha
    rw [enter_threads, Function.update_self, hj]
    simp only [Countdown.steps]
    omega
  | land hn => cases ha
  | drift => cases ha
  | spawn hfree => cases hstart
  | abortWaiting hi hv hfate => cases habort
  | abortAnswered hi => cases habort

/-- INTERNAL: only the start of a thread gives it more to do. -/
theorem Step.steps_le (h : Step M s a s') (hstart : a.starts ≠ some i) :
    L.steps (s'.threads i) ≤ L.steps (s.threads i) := by
  by_cases hi : a.thread = some i
  · by_cases habort : a.aborts = some i
    · rw [h.steps_of_abort habort]
      exact Nat.zero_le _
    · apply Nat.le_of_lt
      apply h.steps_lt hi
      · cases a <;> first | rfl | exact absurd hi hstart
      · cases a <;> first | rfl | exact absurd hi habort
  · exact Nat.le_of_eq (congrArg L.steps (h.threads_of_ne hi))

/-- INTERNAL: what a thread has to do when it is started. -/
theorem Step.steps_of_spawn {job : W.Job} (h : Step M s (.spawn i job) s') :
    L.steps (s'.threads i) = 2 * L.left job (M.start job) := by
  cases h with
  | spawn hfree =>
    rw [enter_threads, Function.update_self]
    rfl

/-- A number that no thread has is free for one. -/
theorem exists_spawn (job : W.Job) (hi : s.threads i = none) :
    ∃ s', step M s (.spawn i job) = some s' := by
  simp only [step, hi]
  exact ⟨_, rfl⟩

/-- **A thread that is not dead has come to its end or can go on.** -/
theorem ended_or_goes_on (ch : W.Choice) {th : Thread W M.Point} (hi : s.threads i = some th)
    (hdead : th.ctl ≠ .dead) :
    (look M s).ended i = true ∨
      ∃ a, a.thread = some i ∧ a.starts = none ∧ a.aborts = none ∧
        (step M s a).isSome = true := by
  obtain ⟨job, p | p | _⟩ := th
  · cases hv : M.view job p with
    | none =>
      left
      unfold State.ended
      rw [look_threads, hi]
      simp [Thread.map, Ctl.map, Machine.head, hv]
    | some ck =>
      right
      refine ⟨.serve i ch, rfl, rfl, rfl, ?_⟩
      simp only [step, hi, hv, Option.map_some, Option.isSome_some]
  · right
    refine ⟨.resume i, rfl, rfl, rfl, ?_⟩
    simp only [step, hi, Option.isSome_some]
  · exact absurd rfl hdead

end EventBus.Lib
