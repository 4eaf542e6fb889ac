import EventBus.Lib.Sites

/-!
# Which threads live

A thread is over once it has come to its end or was aborted, and until then it lives.  What
is over stays as it is, and only the start of a thread brings one to life; so whoever keeps a
list of the threads that live has to add to it at a start, and may take off it only what is
over.
-/

set_option autoImplicit false

namespace EventBus.Lib

open Function (update)

variable {W : World} {M : Machine W}

/-- The thread an action aborts. -/
def Action.aborts : Action W → Option ℕ
  | .abort i _ _ => some i
  | _ => none

/-- The thread has come to its end or was aborted. -/
def State.over (s : State W (Option W.Call)) (i : ℕ) : Bool :=
  match s.threads i with
  | some ⟨_, .waiting none⟩ | some ⟨_, .dead⟩ => true
  | _ => false

/-- The thread was started and is not over. -/
def State.live (s : State W (Option W.Call)) (i : ℕ) : Bool :=
  (s.threads i).isSome && !s.over i

section

variable {s : State W (Option W.Call)} {i : ℕ}

/-- INTERNAL: a thread that has ended is over. -/
theorem over_of_ended (h : s.ended i = true) : s.over i = true := by
  unfold State.ended at h
  unfold State.over
  split at h
  · rename_i hi
    rw [hi]
  · cases h

/-- INTERNAL: a thread that is over is not live. -/
theorem not_live_of_over (h : s.over i = true) : s.live i = false := by
  unfold State.live
  rw [h, Bool.not_true, Bool.and_false]

end

variable {s s' : State W M.Point} {a : Action W} {i : ℕ}

/-- INTERNAL: a thread that is over is at no call, and no answer is on its way to it. -/
theorem over_cases (h : (look M s).over i = true) :
    (∃ job p, s.threads i = some ⟨job, .waiting p⟩ ∧ M.head job p = none) ∨
      ∃ job, s.threads i = some ⟨job, .dead⟩ := by
  unfold State.over at h
  rw [look_threads] at h
  rcases hi : s.threads i with _ | ⟨job, p | p | _⟩
  · rw [hi] at h
    cases h
  · refine .inl ⟨job, p, rfl, ?_⟩
    rw [hi] at h
    simp only [Option.map_some, Thread.map, Ctl.map] at h
    cases hc : M.head job p with
    | none => rfl
    | some c =>
      rw [hc] at h
      cases h
  · rw [hi] at h
    cases h
  · exact .inr ⟨job, rfl⟩

/-- INTERNAL: whether a thread is over is seen of the thread. -/
theorem look_over_congr {s' : State W M.Point} (hi : s'.threads i = s.threads i) :
    (look M s').over i = (look M s).over i := by
  unfold State.over
  rw [look_threads, look_threads, hi]

/-- INTERNAL: a dead thread is over. -/
theorem over_of_dead {job : W.Job} (hi : s.threads i = some ⟨job, .dead⟩) :
    (look M s).over i = true := by
  unfold State.over
  rw [look_threads, hi]
  rfl

/-- **What is over stays as it is.** -/
theorem Step.threads_of_over (h : Step M s a s') (hi : (look M s).over i = true) :
    s'.threads i = s.threads i := by
  have other : ∀ {j : ℕ} {old : Option (Thread W M.Point)} (new : Thread W M.Point),
      s.threads j = old →
      (∀ job p, old = some ⟨job, .waiting p⟩ → M.head job p ≠ none) →
      (∀ job, old ≠ some ⟨job, .dead⟩) →
      update s.threads j (some new) i = s.threads i := by
    intro j old new hj hwaiting hdead
    have hne : i ≠ j := by
      rintro rfl
      rcases over_cases hi with ⟨job, p, hth, hp⟩ | ⟨job, hth⟩
      · exact hwaiting job p (hj.symm.trans hth) hp
      · exact hdead job (hj.symm.trans hth)
    exact Function.update_of_ne hne ..
  have called : ∀ {job : W.Job} {p : M.Point} {c : W.Call}, M.head job p = some c →
      ∀ job' p', some (Thread.mk (W := W) job (Ctl.waiting p)) = some ⟨job', .waiting p'⟩ →
        M.head job' p' ≠ none := by
    intro job p c hc job' p' heq
    cases heq
    simp [hc]
  cases h with
  | spawn hfree =>
    exact other _ hfree (fun _ _ heq => by cases heq) fun _ heq => by cases heq
  | serve hj hv =>
    exact other _ hj (called (Machine.head_of_view hv)) fun _ heq => by cases heq
  | fail hj hv hr =>
    simpa [State.setThread] using
      other _ hj (called (Machine.head_of_view hv)) fun _ heq => by cases heq
  | resume hj => exact other _ hj (fun _ _ heq => by cases heq) fun _ heq => by cases heq
  | abortWaiting hj hv hfate =>
    simpa [State.setThread] using other _ hj (called hv) fun _ heq => by cases heq
  | abortAnswered hj => exact other _ hj (fun _ _ heq => by cases heq) fun _ heq => by cases heq
  | land hn => rfl
  | drift => rfl

/-- INTERNAL: a thread that is over stays so. -/
theorem Step.over (h : Step M s a s') (hi : (look M s).over i = true) :
    (look M s').over i = true := by
  rw [look_over_congr (h.threads_of_over hi), hi]

/-- **Only the start of a thread brings it to life.** -/
theorem Step.live (h : Step M s a s') (hstart : a.starts ≠ some i)
    (hi : (look M s').live i = true) : (look M s).live i = true := by
  obtain ⟨hth, hover⟩ := Bool.and_eq_true_iff.mp hi
  cases hbefore : s.threads i with
  | none =>
    have hafter := h.threads_none hstart hbefore
    rw [look_threads, hafter] at hth
    cases hth
  | some th =>
    refine Bool.and_eq_true_iff.mpr ⟨?_, ?_⟩
    · rw [look_threads, hbefore]
      rfl
    · cases hstill : (look M s).over i with
      | false => rfl
      | true =>
        rw [h.over hstill] at hover
        cases hover

/-- INTERNAL: the threads after a call that has failed or was cut. -/
theorem threads_lose_setThread (s : State W M.Point) (j : ℕ) (job : W.Job) (c : W.Call)
    (fate : Fate) (ch : W.Choice) (th : Thread W M.Point) :
    ((s.lose j job c fate ch).setThread j th).threads = update s.threads j (some th) := by
  simp only [State.setThread, lose_threads]

/-- INTERNAL: a thread that is suspended was so before, or has gone on with an answer, or is
new. -/
theorem Step.waiting_cases (h : Step M s a s') {job : W.Job} {p : M.Point}
    (hi : s'.threads i = some ⟨job, .waiting p⟩) :
    s.threads i = some ⟨job, .waiting p⟩ ∨
      (s.threads i = some ⟨job, .answered p⟩ ∧ s'.shared = reachPoint M i job p s.shared) ∨
      (s.threads i = none ∧ p = M.start job) := by
  have moved : ∀ {j : ℕ} {th : Thread W M.Point}, s'.threads = update s.threads j (some th) →
      (∀ job p, th ≠ ⟨job, .waiting p⟩) → s.threads i = some ⟨job, .waiting p⟩ := by
    intro j th hthreads hth
    rcases update_cases hthreads hi with ⟨-, hnew⟩ | hold
    · exact absurd (Option.some.inj hnew) (hth job p)
    · exact hold
  have entered : ∀ {j : ℕ} {job' : W.Job} {p' : M.Point} {t : State W M.Point},
      s' = State.enter M t j job' p' → t.threads = s.threads →
      s.threads i = some ⟨job, .waiting p⟩ ∨ (i = j ∧ job = job' ∧ p = p') := by
    rintro j job' p' t rfl ht
    have hthreads := enter_threads M t j job' p'
    rw [ht] at hthreads
    rcases update_cases hthreads hi with ⟨hij, hnew⟩ | hold
    · obtain ⟨rfl, hctl⟩ := Thread.mk.inj (Option.some.inj hnew)
      exact .inr ⟨hij, rfl, (Ctl.waiting.inj hctl).symm⟩
    · exact .inl hold
  cases h with
  | @spawn j job' hfree =>
    rcases entered rfl rfl with hold | ⟨rfl, rfl, rfl⟩
    · exact .inl hold
    · exact .inr (.inr ⟨hfree, rfl⟩)
  | @resume j job' p' hj =>
    rcases entered rfl rfl with hold | ⟨rfl, rfl, rfl⟩
    · exact .inl hold
    · exact .inr (.inl ⟨hj, rfl⟩)
  | serve hj hv => exact .inl (moved rfl fun _ _ heq => by cases heq)
  | fail hj hv hr =>
    exact .inl (moved (threads_lose_setThread ..) fun _ _ heq => by cases heq)
  | abortWaiting hj hv hfate =>
    exact .inl (moved (threads_lose_setThread ..) fun _ _ heq => by cases heq)
  | abortAnswered hj => exact .inl (moved rfl fun _ _ heq => by cases heq)
  | land hn => exact .inl hi
  | drift => exact .inl hi

/-- INTERNAL: a thread has the job that it had, or that it is started for. -/
theorem Step.job_cases (h : Step M s a s') {th : Thread W M.Point} (hi : s'.threads i = some th) :
    (∃ th₀, s.threads i = some th₀ ∧ th.job = th₀.job) ∨ a = .spawn i th.job := by
  cases hbefore : s.threads i with
  | some th₀ =>
    obtain ⟨th', hth', hjob⟩ := h.job_eq hbefore
    obtain rfl := Option.some.inj (hi.symm.trans hth')
    exact .inl ⟨th₀, rfl, hjob⟩
  | none =>
    by_cases hstart : a.starts = some i
    · cases a with
      | spawn j job =>
        obtain rfl := Option.some.inj hstart
        cases h with
        | spawn hfree =>
          rw [enter_threads, Function.update_self] at hi
          obtain rfl := Option.some.inj hi
          exact .inr rfl
      | _ => cases hstart
    · cases (h.threads_none hstart hbefore).symm.trans hi

/-- INTERNAL: only an abort makes a thread dead. -/
theorem Step.dead_cases (h : Step M s a s') {job : W.Job} (hi : s'.threads i = some ⟨job, .dead⟩) :
    s.threads i = some ⟨job, .dead⟩ ∨ a.aborts = some i := by
  have moved : ∀ {j : ℕ} {th : Thread W M.Point}, s'.threads = update s.threads j (some th) →
      (∀ job, th ≠ ⟨job, .dead⟩) → s.threads i = some ⟨job, .dead⟩ := by
    intro j th hthreads hth
    rcases update_cases hthreads hi with ⟨-, hnew⟩ | hold
    · exact absurd (Option.some.inj hnew) (hth job)
    · exact hold
  have other : ∀ {j : ℕ} {th : Thread W M.Point}, s'.threads = update s.threads j (some th) →
      a.aborts = some j → s.threads i = some ⟨job, .dead⟩ ∨ a.aborts = some i := by
    intro j th hthreads ha
    rcases update_cases hthreads hi with ⟨rfl, -⟩ | hold
    · exact .inr ha
    · exact .inl hold
  cases h with
  | spawn hfree => exact .inl (moved rfl fun _ heq => by cases heq)
  | serve hj hv => exact .inl (moved rfl fun _ heq => by cases heq)
  | resume hj => exact .inl (moved rfl fun _ heq => by cases heq)
  | fail hj hv hr =>
    exact .inl (moved (threads_lose_setThread ..) fun _ heq => by cases heq)
  | abortWaiting hj hv hfate => exact other (threads_lose_setThread ..) rfl
  | abortAnswered hj => exact other rfl rfl
  | land hn => exact .inl hi
  | drift => exact .inl hi

/-- INTERNAL: an abort leaves a dead thread. -/
theorem Step.over_of_abort {fate : Fate} {ch : W.Choice} (h : Step M s (.abort i fate ch) s') :
    (look M s').over i = true := by
  cases h with
  | abortWaiting hi hv hfate => exact over_of_dead (setThread_self ..)
  | abortAnswered hi => exact over_of_dead (setThread_self ..)

end EventBus.Lib
