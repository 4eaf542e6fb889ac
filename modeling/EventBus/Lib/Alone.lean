import EventBus.Lib.Pool

/-!
# Threads on their own

Take the threads of one class, those whose job is `mine`, in a run without faults.  If they
cannot see what the other threads do, they do the same in a run of their own, in which no
other thread is started: `Unwinding.run_alone`.

What the threads see is given by a relation `R` between the shared state of the run and
that of the run on their own, and `Unwinding` says that it is kept: by what they do when it
is done in both, and by what the others do when it is done in the first.  The effect of a
call need only be known for jobs that are `fit`.
-/

set_option autoImplicit false

namespace EventBus.Lib

open Function (update)

variable {W : World}

/-- No call fails, and nobody is aborted. -/
def Action.calm : Action W → Bool
  | .fail _ _ _ _ | .abort _ _ _ | .land _ _ => false
  | .spawn _ _ | .serve _ _ | .resume _ | .drift _ => true

/-- The action starts no thread but those of one class. -/
def Action.startsOnly (mine : W.Job → Bool) (a : Action W) : Prop :=
  ∀ i job, a = .spawn i job → mine job = true

/-- What the threads of one class see is kept by every thread. -/
structure Unwinding (M : Machine W) (mine : W.Job → Bool) (fit : W.Shared → W.Job → Prop)
    (R : W.Shared → W.Shared → Prop) : Prop where
  enlist_own : ∀ i job s t, R s t → mine job = true → R (W.enlist i job s) (W.enlist i job t)
  enlist_other : ∀ i job s t, R s t → mine job = false → R (W.enlist i job s) t
  reach_own : ∀ i job c s t, R s t → mine job = true → R (W.reach i job c s) (W.reach i job c t)
  reach_other : ∀ i job c s t, R s t → mine job = false → R (W.reach i job c s) t
  answer_own : ∀ job p c ch s t, R s t → fit s job → mine job = true → M.head job p = some c →
    W.answer job c ch s = W.answer job c ch t
  effect_own : ∀ i job p c ch s t, R s t → fit s job → mine job = true → M.head job p = some c →
    R (W.effect true i job c ch s) (W.effect true i job c ch t)
  effect_other : ∀ i job p c ch s t, R s t → fit s job → mine job = false →
    M.head job p = some c → R (W.effect true i job c ch s) t
  drift : ∀ e s t, R s t → R (W.drift e s) (W.drift e t)

/-- The state `t` has the threads of one class and no others, and they see in it what they
see in `s`. -/
structure Beside {P : Type} (mine : W.Job → Bool) (R : W.Shared → W.Shared → Prop)
    (s t : State W P) : Prop where
  shared : R s.shared t.shared
  threads : ∀ i, t.threads i = (s.threads i).filter fun th => mine th.job

section

variable {P : Type} {mine : W.Job → Bool} {R : W.Shared → W.Shared → Prop} {s t : State W P}

/-- INTERNAL: threads of one's own are on both sides. -/
theorem Beside.own (h : Beside mine R s t) {i : ℕ} {th : Thread W P}
    (hi : s.threads i = some th) (hown : mine th.job = true) : t.threads i = some th := by
  rw [h.threads, hi, Option.filter_some, if_pos hown]

/-- INTERNAL: threads of others are on one side only. -/
theorem Beside.other (h : Beside mine R s t) {i : ℕ}
    (hi : ∀ th, s.threads i = some th → mine th.job = false) : t.threads i = none := by
  rw [h.threads]
  cases hth : s.threads i with
  | none => rfl
  | some th => rw [Option.filter_some, if_neg (by simp [hi th hth])]

/-- INTERNAL: a thread of the class moves in both states. -/
theorem Beside.update_own (h : Beside mine R s t) {th : Thread W P} (hown : mine th.job = true)
    (i j : ℕ) : update t.threads i (some th) j =
      (update s.threads i (some th) j).filter fun th => mine th.job := by
  by_cases hj : j = i
  · subst hj
    rw [Function.update_self, Function.update_self, Option.filter_some, if_pos hown]
  · rw [Function.update_of_ne hj, Function.update_of_ne hj, h.threads]

/-- INTERNAL: another thread moves in the first state only. -/
theorem Beside.update_other (h : Beside mine R s t) {th : Thread W P}
    (hother : mine th.job = false) {i : ℕ}
    (hi : ∀ old, s.threads i = some old → mine old.job = false) (j : ℕ) : t.threads j =
      (update s.threads i (some th) j).filter fun th => mine th.job := by
  by_cases hj : j = i
  · subst hj
    rw [Function.update_self, Option.filter_some, if_neg (by simp [hother]), h.other hi]
  · rw [Function.update_of_ne hj, h.threads]

end

namespace Unwinding

variable {M : Machine W} {mine : W.Job → Bool} {fit : W.Shared → W.Job → Prop}
  {R : W.Shared → W.Shared → Prop} (hU : Unwinding M mine fit R) {s s' t : State W M.Point}

include hU

/-- INTERNAL: a thread of the class comes to a point in both states. -/
theorem enter_own {i : ℕ} {job : W.Job} (p : M.Point) (hst : Beside mine R s t)
    (hown : mine job = true) :
    Beside mine R (State.enter M s i job p) (State.enter M t i job p) := by
  refine ⟨?_, fun j => hst.update_own hown i j⟩
  simp only [State.enter]
  cases M.head job p with
  | none => exact hst.shared
  | some c => exact hU.reach_own i job c _ _ hst.shared hown

/-- INTERNAL: another thread comes to a point in the first state. -/
theorem enter_other {i : ℕ} {job : W.Job} (p : M.Point) (hst : Beside mine R s t)
    (hother : mine job = false) (hi : ∀ old, s.threads i = some old → mine old.job = false) :
    Beside mine R (State.enter M s i job p) t := by
  refine ⟨?_, fun j => hst.update_other hother hi j⟩
  simp only [State.enter]
  cases M.head job p with
  | none => exact hst.shared
  | some c => exact hU.reach_other i job c _ _ hst.shared hother

/-- INTERNAL: a step of a thread of the class is made in both states, a step of another
thread in the first one only. -/
theorem step_alone {a : Action W} (h : step M s a = some s') (hcalm : a.calm = true)
    (hfit : ∀ i job p, s.threads i = some ⟨job, .waiting p⟩ → fit s.shared job)
    (hst : Beside mine R s t) :
    Beside mine R s' t ∨
      (a.startsOnly mine ∧ ∃ t', step M t a = some t' ∧ Beside mine R s' t') := by
  cases step_cases h with
  | @spawn i job hfree =>
    have hfree' : ∀ old, s.threads i = some old → mine old.job = false := by simp [hfree]
    cases hjob : mine job with
    | true =>
      right
      have hti : t.threads i = none := hst.other hfree'
      have hstart : Beside mine R { s with shared := W.enlist i job s.shared }
          { t with shared := W.enlist i job t.shared } :=
        ⟨hU.enlist_own i job _ _ hst.shared hjob, hst.threads⟩
      refine ⟨fun i' job' ha => ?_, _, ?_, hU.enter_own (M.start job) hstart hjob⟩
      · obtain ⟨-, rfl⟩ := Action.spawn.inj ha
        exact hjob
      · simp only [step, hti]
    | false =>
      left
      have hstart : Beside mine R { s with shared := W.enlist i job s.shared } t :=
        ⟨hU.enlist_other i job _ _ hst.shared hjob, hst.threads⟩
      exact hU.enter_other (M.start job) hstart hjob hfree'
  | @serve i ch job p c k hi hv =>
    have hhead : M.head job p = some c := Machine.head_of_view hv
    have hjobfit : fit s.shared job := hfit i job p hi
    cases hjob : mine job with
    | true =>
      right
      have hti : t.threads i = some ⟨job, .waiting p⟩ := hst.own hi hjob
      have hanswer : W.answer job c ch s.shared = W.answer job c ch t.shared :=
        hU.answer_own job p c ch _ _ hst.shared hjobfit hjob hhead
      have hserve : step M t (.serve i ch) = some
          { t.setThread i ⟨job, .answered (k (W.answer job c ch t.shared))⟩ with
            shared := W.effect true i job c ch t.shared } := by
        simp only [step, hti, hv, Option.map_some]
      refine ⟨fun i' job' ha => (by cases ha), _, hserve, ?_, fun j => ?_⟩
      · exact hU.effect_own i job p c ch _ _ hst.shared hjobfit hjob hhead
      · rw [hanswer]
        exact hst.update_own hjob i j
    | false =>
      left
      refine ⟨hU.effect_other i job p c ch _ _ hst.shared hjobfit hjob hhead, ?_⟩
      refine hst.update_other hjob fun old hold => ?_
      obtain rfl := Option.some.inj (hi.symm.trans hold)
      exact hjob
  | @resume i job p hi =>
    cases hjob : mine job with
    | true =>
      right
      have hti : t.threads i = some ⟨job, .answered p⟩ := hst.own hi hjob
      refine ⟨fun i' job' ha => (by cases ha), _, ?_, hU.enter_own p hst hjob⟩
      simp only [step, hti]
    | false =>
      left
      refine hU.enter_other p hst hjob fun old hold => ?_
      obtain rfl := Option.some.inj (hi.symm.trans hold)
      exact hjob
  | @drift e =>
    right
    exact ⟨fun i' job' ha => (by cases ha), _, rfl, hU.drift e _ _ hst.shared, hst.threads⟩
  | fail hi hv hr => cases hcalm
  | abortWaiting hi hv hfate => cases hcalm
  | abortAnswered hi => cases hcalm
  | land hn => cases hcalm

/-- **The threads of a class do on their own what they do among others.**  In a run without
faults whose threads are fit whenever they make a call, some of the actions make a run in which
only threads of the class are started, and they come to where they come in the whole run. -/
theorem run_alone {as : List (Action W)} (hrun : run (step M) s as = some s')
    (hcalm : Along (step M) (fun _ a _ => a.calm = true) s as)
    (hfit : Always (step M)
      (fun s => ∀ i job p, s.threads i = some ⟨job, .waiting p⟩ → fit s.shared job) s as)
    (hst : Beside mine R s t) :
    ∃ bs : List (Action W), bs.Sublist as ∧ (∀ b ∈ bs, b.startsOnly mine) ∧
      ∃ t', run (step M) t bs = some t' ∧ Beside mine R s' t' := by
  have hboth : Along (step M)
      (fun s a _ => a.calm = true ∧
        ∀ i job p, s.threads i = some ⟨job, .waiting p⟩ → fit s.shared job) s as :=
    hcalm.of_always hfit fun _ _ _ _ ha hI _ => ⟨ha, hI⟩
  have hstep : ∀ s a s' t, step M s a = some s' →
      (a.calm = true ∧ ∀ i job p, s.threads i = some ⟨job, .waiting p⟩ → fit s.shared job) →
      Beside mine R s t → Beside mine R s' t ∨
        (a.startsOnly mine ∧ ∃ t', step M t a = some t' ∧ Beside mine R s' t') :=
    fun _ _ _ _ h hC hst => hU.step_alone h hC.1 hC.2 hst
  exact exists_run_of_simulation hstep hrun hboth hst

end Unwinding

/-- INTERNAL: of a class whose threads are not started yet, none is missing. -/
theorem beside_fresh (M : Machine W) (mine : W.Job → Bool) {R : W.Shared → W.Shared → Prop}
    {s t : W.Shared} (h : R s t) : Beside mine R (fresh M s) (fresh M t) :=
  ⟨h, fun _ => rfl⟩

end EventBus.Lib
