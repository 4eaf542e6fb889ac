import Mathlib.Data.Nat.Notation
import Mathlib.Logic.Function.Basic
import EventBus.Lib.Prog
import EventBus.Lib.Run

/-!
# Threads that share a world

A `World` says what calls do: the state they share, the effect of a call on it and its
answer.  A `Machine` says what a thread does between calls.  `step` interleaves any
number of threads over one world, a call at a time, and `Action` lists everything that
can happen:

* a thread is started for a job;
* the call a thread is suspended on is served: its effect and its answer are fixed at
  that instant, and the thread goes on when the answer reaches it (`resume`);
* the call fails for the thread, whatever became of it at the other end (`Fate`): it was
  never served, it was served and the answer was lost, or it is still under way and will
  be served later (`land`), or never;
* the thread is aborted at a call, again with any fate of the call;
* the world moves on its own (`drift`).

`Hom` relates two machines over one world that make the same calls; runs, and all that
can be said about them by looking at the calls the threads are suspended on, transfer
along it (`run_hom`, `look_hom`).  So a fact about programs may be proved on a machine
with named control points.
-/

set_option autoImplicit false

namespace EventBus.Lib

open Function (update)

/-- What threads call on. -/
structure World where
  Call : Type
  Resp : Call → Type
  /-- The state the threads share. -/
  Shared : Type
  /-- What a thread is started for. -/
  Job : Type
  /-- What the other end decides when it serves a call. -/
  Choice : Type
  Err : Type
  Drift : Type
  /-- A thread is started for a job. -/
  enlist : ℕ → Job → Shared → Shared
  /-- A thread comes to a call. -/
  reach : ℕ → Job → Call → Shared → Shared
  /-- The effect of serving a call; the flag says whether its caller gets the answer. -/
  effect : Bool → ℕ → Job → Call → Choice → Shared → Shared
  /-- The answer of serving a call. -/
  answer : Job → (c : Call) → Choice → Shared → Resp c
  /-- Whether the call is served by somebody else and may fail on the way. -/
  remote : Call → Bool
  /-- What a caller is told when its call fails on the way. -/
  failure : (c : Call) → Err → Option (Resp c)
  drift : Drift → Shared → Shared

/-- What threads do between calls: where they start and, at each point, the call they
are suspended on and how they go on from its answer. -/
structure Machine (W : World) where
  Point : Type
  start : W.Job → Point
  view : W.Job → Point → Option ((c : W.Call) × (W.Resp c → Point))

/-- The call a thread at a point is suspended on. -/
def Machine.head {W : World} (M : Machine W) (job : W.Job) (p : M.Point) : Option W.Call :=
  (M.view job p).map Sigma.fst

/-- INTERNAL: what a thread awaits at a point is the call of its view there. -/
theorem Machine.head_of_view {W : World} {M : Machine W} {job : W.Job} {p : M.Point}
    {c : W.Call} {k : W.Resp c → M.Point} (hv : M.view job p = some ⟨c, k⟩) :
    M.head job p = some c := by
  rw [Machine.head, hv]
  rfl

/-- How far a thread is: suspended at a point, on its way to a point with the answer it
goes on from, or aborted. -/
inductive Ctl (P : Type) : Type where
  | waiting (p : P)
  | answered (p : P)
  | dead

/-- A thread and the job it was started for. -/
structure Thread (W : World) (P : Type) : Type where
  job : W.Job
  ctl : Ctl P

/-- The shared state, the threads, and the calls under way whose callers have given up
on them. -/
structure State (W : World) (P : Type) : Type where
  shared : W.Shared
  threads : ℕ → Option (Thread W P)
  detached : List (ℕ × W.Job × W.Call)

/-- What became of a call whose caller gets no answer. -/
inductive Fate where
  | dropped
  | served
  | late
  deriving DecidableEq

/-- Everything that can happen. -/
inductive Action (W : World) : Type where
  | spawn (i : ℕ) (job : W.Job)
  | serve (i : ℕ) (ch : W.Choice)
  | fail (i : ℕ) (fate : Fate) (ch : W.Choice) (err : W.Err)
  | resume (i : ℕ)
  | abort (i : ℕ) (fate : Fate) (ch : W.Choice)
  | land (n : ℕ) (ch : W.Choice)
  | drift (e : W.Drift)

variable {W : World}

/-- The world moves on its own. -/
def Action.isDrift : Action W → Bool
  | .drift _ => true
  | _ => false

/-- The thread an action starts. -/
def Action.starts : Action W → Option ℕ
  | .spawn i _ => some i
  | _ => none

/-- Thread `i` becomes `th`. -/
def State.setThread {P : Type} (s : State W P) (i : ℕ) (th : Thread W P) : State W P :=
  { s with threads := update s.threads i (some th) }

/-- What the call `c` of thread `i` leaves behind when the thread gets no answer. -/
def State.lose {P : Type} (s : State W P) (i : ℕ) (job : W.Job) (c : W.Call) (fate : Fate)
    (ch : W.Choice) : State W P :=
  match fate with
  | .dropped => s
  | .served => { s with shared := W.effect false i job c ch s.shared }
  | .late => { s with detached := s.detached ++ [(i, job, c)] }

/-- Thread `i` comes to the point `p`. -/
def State.enter (M : Machine W) (s : State W M.Point) (i : ℕ) (job : W.Job) (p : M.Point) :
    State W M.Point :=
  { s.setThread i ⟨job, .waiting p⟩ with
    shared := match M.head job p with
      | some c => W.reach i job c s.shared
      | none => s.shared }

/-- One action. -/
def step (M : Machine W) (s : State W M.Point) : Action W → Option (State W M.Point)
  | .spawn i job =>
    match s.threads i with
    | none => some (State.enter M { s with shared := W.enlist i job s.shared } i job (M.start job))
    | some _ => none
  | .serve i ch =>
    match s.threads i with
    | some ⟨job, .waiting p⟩ =>
      (M.view job p).map fun ck =>
        { s.setThread i ⟨job, .answered (ck.2 (W.answer job ck.1 ch s.shared))⟩ with
          shared := W.effect true i job ck.1 ch s.shared }
    | _ => none
  | .fail i fate ch err =>
    match s.threads i with
    | some ⟨job, .waiting p⟩ =>
      (M.view job p).bind fun ck => (W.failure ck.1 err).map fun r =>
        (s.lose i job ck.1 fate ch).setThread i ⟨job, .answered (ck.2 r)⟩
    | _ => none
  | .resume i =>
    match s.threads i with
    | some ⟨job, .answered p⟩ => some (State.enter M s i job p)
    | _ => none
  | .abort i fate ch =>
    match s.threads i with
    | some ⟨job, .waiting p⟩ =>
      (M.head job p).bind fun c =>
        if fate = .dropped ∨ W.remote c then
          some ((s.lose i job c fate ch).setThread i ⟨job, .dead⟩)
        else none
    | some ⟨job, .answered _⟩ => some (s.setThread i ⟨job, .dead⟩)
    | _ => none
  | .land n ch =>
    match s.detached[n]? with
    | some d => some { s with
        shared := W.effect false d.1 d.2.1 d.2.2 ch s.shared
        detached := s.detached.eraseIdx n }
    | none => none
  | .drift e => some { s with shared := W.drift e s.shared }

/-- The steps of a machine, a rule for each action. -/
inductive Step (M : Machine W) (s : State W M.Point) : Action W → State W M.Point → Prop where
  | spawn {i : ℕ} {job : W.Job} (hfree : s.threads i = none) :
      Step M s (.spawn i job)
        (State.enter M { s with shared := W.enlist i job s.shared } i job (M.start job))
  | serve {i : ℕ} {ch : W.Choice} {job : W.Job} {p : M.Point} {c : W.Call}
      {k : W.Resp c → M.Point} (hi : s.threads i = some ⟨job, .waiting p⟩)
      (hv : M.view job p = some ⟨c, k⟩) :
      Step M s (.serve i ch)
        { s.setThread i ⟨job, .answered (k (W.answer job c ch s.shared))⟩ with
          shared := W.effect true i job c ch s.shared }
  | fail {i : ℕ} {fate : Fate} {ch : W.Choice} {err : W.Err} {job : W.Job} {p : M.Point}
      {c : W.Call} {k : W.Resp c → M.Point} {r : W.Resp c}
      (hi : s.threads i = some ⟨job, .waiting p⟩) (hv : M.view job p = some ⟨c, k⟩)
      (hr : W.failure c err = some r) :
      Step M s (.fail i fate ch err)
        ((s.lose i job c fate ch).setThread i ⟨job, .answered (k r)⟩)
  | resume {i : ℕ} {job : W.Job} {p : M.Point}
      (hi : s.threads i = some ⟨job, .answered p⟩) :
      Step M s (.resume i) (State.enter M s i job p)
  | abortWaiting {i : ℕ} {fate : Fate} {ch : W.Choice} {job : W.Job} {p : M.Point}
      {c : W.Call} (hi : s.threads i = some ⟨job, .waiting p⟩) (hv : M.head job p = some c)
      (hfate : fate = .dropped ∨ W.remote c) :
      Step M s (.abort i fate ch) ((s.lose i job c fate ch).setThread i ⟨job, .dead⟩)
  | abortAnswered {i : ℕ} {fate : Fate} {ch : W.Choice} {job : W.Job} {p : M.Point}
      (hi : s.threads i = some ⟨job, .answered p⟩) :
      Step M s (.abort i fate ch) (s.setThread i ⟨job, .dead⟩)
  | land {n : ℕ} {ch : W.Choice} {i : ℕ} {job : W.Job} {c : W.Call}
      (hn : s.detached[n]? = some (i, job, c)) :
      Step M s (.land n ch)
        { s with
          shared := W.effect false i job c ch s.shared
          detached := s.detached.eraseIdx n }
  | drift {e : W.Drift} : Step M s (.drift e) { s with shared := W.drift e s.shared }

/-- INTERNAL: every action that is enabled is an instance of its rule. -/
theorem step_cases {M : Machine W} {s s' : State W M.Point} {a : Action W}
    (h : step M s a = some s') : Step M s a s' := by
  cases a with
  | spawn i job =>
    simp only [step] at h
    split at h
    · rename_i hfree
      obtain rfl := Option.some.inj h
      exact .spawn hfree
    · cases h
  | serve i ch =>
    simp only [step] at h
    split at h
    · rename_i job p hi
      obtain ⟨⟨c, k⟩, hv, rfl⟩ := Option.map_eq_some_iff.mp h
      exact .serve hi hv
    · cases h
  | fail i fate ch err =>
    simp only [step] at h
    split at h
    · rename_i job p hi
      obtain ⟨⟨c, k⟩, hv, h⟩ := Option.bind_eq_some_iff.mp h
      obtain ⟨r, hr, rfl⟩ := Option.map_eq_some_iff.mp h
      exact .fail hi hv hr
    · cases h
  | resume i =>
    simp only [step] at h
    split at h
    · rename_i job p hi
      obtain rfl := Option.some.inj h
      exact .resume hi
    · cases h
  | abort i fate ch =>
    simp only [step] at h
    split at h
    · rename_i job p hi
      obtain ⟨c, hv, h⟩ := Option.bind_eq_some_iff.mp h
      split at h
      · rename_i hfate
        obtain rfl := Option.some.inj h
        exact .abortWaiting hi hv hfate
      · cases h
    · rename_i job p hi
      obtain rfl := Option.some.inj h
      exact .abortAnswered hi
    · cases h
  | land n ch =>
    simp only [step] at h
    split at h
    · rename_i d hn
      obtain rfl := Option.some.inj h
      exact .land hn
    · cases h
  | drift e =>
    obtain rfl := Option.some.inj h
    exact .drift

/-! ## What a step leaves alone -/

section Frame

variable {P : Type} (s : State W P) (i : ℕ)

/-- INTERNAL: a thread is set without touching what is shared. -/
@[simp] theorem setThread_shared (th : Thread W P) : (s.setThread i th).shared = s.shared := rfl

/-- INTERNAL: a thread is set without touching what is under way. -/
@[simp] theorem setThread_detached (th : Thread W P) :
    (s.setThread i th).detached = s.detached := rfl

/-- INTERNAL: the thread that is set is there. -/
@[simp] theorem setThread_self (th : Thread W P) : (s.setThread i th).threads i = some th :=
  Function.update_self ..

/-- INTERNAL: the other threads stay. -/
theorem setThread_of_ne (th : Thread W P) {j : ℕ} (hj : j ≠ i) :
    (s.setThread i th).threads j = s.threads j :=
  Function.update_of_ne hj ..

/-- INTERNAL: a lost call moves no thread. -/
@[simp] theorem lose_threads (job : W.Job) (c : W.Call) (fate : Fate) (ch : W.Choice) :
    (s.lose i job c fate ch).threads = s.threads := by
  cases fate <;> rfl

end Frame

/-- INTERNAL: a thread that comes to a point leaves nothing under way. -/
@[simp] theorem enter_detached (M : Machine W) (s : State W M.Point) (i : ℕ) (job : W.Job)
    (p : M.Point) : (State.enter M s i job p).detached = s.detached := rfl

/-- INTERNAL: a thread that comes to a point waits there, and the others stay. -/
@[simp] theorem enter_threads (M : Machine W) (s : State W M.Point) (i : ℕ) (job : W.Job)
    (p : M.Point) :
    (State.enter M s i job p).threads = update s.threads i (some ⟨job, .waiting p⟩) := rfl

/-- INTERNAL: a step moves at most the thread it names, and a thread keeps its job. -/
theorem Step.job_eq {M : Machine W} {s s' : State W M.Point} {a : Action W}
    (h : Step M s a s') {j : ℕ} {th : Thread W M.Point} (hj : s.threads j = some th) :
    ∃ th', s'.threads j = some th' ∧ th'.job = th.job := by
  have keep : ∀ (i : ℕ) (new : Thread W M.Point) (old : Option (Thread W M.Point)),
      s.threads i = old → (∀ th₀, old = some th₀ → new.job = th₀.job) →
      ∃ th', update s.threads i (some new) j = some th' ∧ th'.job = th.job := by
    intro i new old hi hjob
    by_cases hij : j = i
    · subst hij
      exact ⟨new, Function.update_self .., hjob th (hi ▸ hj)⟩
    · exact ⟨th, by rw [Function.update_of_ne hij, hj], rfl⟩
  cases h with
  | spawn hfree => exact keep _ _ _ hfree (by simp)
  | serve hi hv => exact keep _ _ _ hi (by simp)
  | fail hi hv hr =>
    simpa [State.setThread] using keep _ _ _ hi (by simp)
  | resume hi => exact keep _ _ _ hi (by simp)
  | abortWaiting hi hv hfate => simpa [State.setThread] using keep _ _ _ hi (by simp)
  | abortAnswered hi => exact keep _ _ _ hi (by simp)
  | land hn => exact ⟨th, hj, rfl⟩
  | drift => exact ⟨th, hj, rfl⟩

/-- INTERNAL: a thread that is not started does not exist. -/
theorem Step.threads_none {M : Machine W} {s s' : State W M.Point} {a : Action W}
    (h : Step M s a s') {j : ℕ} (hspawn : a.starts ≠ some j) (hj : s.threads j = none) :
    s'.threads j = none := by
  have keep : ∀ (i : ℕ) (new old : Thread W M.Point), s.threads i = some old →
      update s.threads i (some new) j = none := by
    intro i new old hi
    have hji : j ≠ i := by
      rintro rfl
      rw [hi] at hj
      cases hj
    rw [Function.update_of_ne hji, hj]
  cases h with
  | @spawn i job hfree =>
    have hji : j ≠ i := fun e => hspawn (by rw [e]; rfl)
    rw [enter_threads, Function.update_of_ne hji, hj]
  | serve hi hv => exact keep _ _ _ hi
  | fail hi hv hr => simpa [State.setThread] using keep _ _ _ hi
  | resume hi => exact keep _ _ _ hi
  | abortWaiting hi hv hfate => simpa [State.setThread] using keep _ _ _ hi
  | abortAnswered hi => exact keep _ _ _ hi
  | land hn => exact hj
  | drift => exact hj

/-- INTERNAL: a run creates no other threads than those it starts. -/
theorem run_threads_none {M : Machine W} {s t : State W M.Point} {as : List (Action W)} {j : ℕ}
    (hrun : run (step M) s as = some t) (hspawn : ∀ a ∈ as, a.starts ≠ some j)
    (hj : s.threads j = none) : t.threads j = none := by
  induction as generalizing s with
  | nil =>
    obtain rfl := Option.some.inj hrun
    exact hj
  | cons a as ih =>
    obtain ⟨s', hs, ht⟩ := run_cons_eq_some.mp hrun
    refine ih ht (fun b hb => hspawn b (List.mem_cons_of_mem _ hb)) ?_
    exact (step_cases hs).threads_none (hspawn a List.mem_cons_self) hj

/-! ## Machines that make the same calls -/

/-- `M` and `N` make the same calls when the points of `M` are read as points of `N`. -/
structure Hom (M N : Machine W) where
  map : W.Job → M.Point → N.Point
  map_start : ∀ job, map job (M.start job) = N.start job
  map_view : ∀ job p, N.view job (map job p) =
    (M.view job p).map fun ck => ⟨ck.1, fun r => map job (ck.2 r)⟩

/-- The points of every thread read through `f`. -/
def Ctl.map {P Q : Type} (f : P → Q) : Ctl P → Ctl Q
  | .waiting p => .waiting (f p)
  | .answered p => .answered (f p)
  | .dead => .dead

/-- The points of every thread read through `f`. -/
def Thread.map {P Q : Type} (f : W.Job → P → Q) (th : Thread W P) : Thread W Q :=
  ⟨th.job, th.ctl.map (f th.job)⟩

/-- The points of every thread read through `f`. -/
def State.map {P Q : Type} (f : W.Job → P → Q) (s : State W P) : State W Q :=
  ⟨s.shared, fun i => (s.threads i).map (Thread.map f), s.detached⟩

/-- The state as an observer sees it: of every thread, the call it is suspended on. -/
def look (M : Machine W) (s : State W M.Point) : State W (Option W.Call) :=
  s.map M.head

section Map

variable {P Q : Type} (f : W.Job → P → Q) (s : State W P)

/-- INTERNAL: another reading of the points shares the same. -/
@[simp] theorem map_shared : (s.map f).shared = s.shared := rfl

/-- INTERNAL: another reading of the points has the same under way. -/
@[simp] theorem map_detached : (s.map f).detached = s.detached := rfl

/-- INTERNAL: another reading of the points reads each thread. -/
@[simp] theorem map_threads (i : ℕ) :
    (s.map f).threads i = (s.threads i).map (Thread.map f) := rfl

/-- INTERNAL: a thread may be set before or after the reading. -/
theorem map_setThread (i : ℕ) (th : Thread W P) :
    (s.setThread i th).map f = (s.map f).setThread i (th.map f) := by
  unfold State.map State.setThread
  congr 1
  funext j
  by_cases hj : j = i
  · subst hj
    simp
  · simp [Function.update_of_ne hj]

/-- INTERNAL: a call may be lost before or after the reading. -/
theorem map_lose (i : ℕ) (job : W.Job) (c : W.Call) (fate : Fate) (ch : W.Choice) :
    (s.lose i job c fate ch).map f = (s.map f).lose i job c fate ch := by
  cases fate <;> rfl

end Map

/-- INTERNAL: what is shared can be seen. -/
@[simp] theorem look_shared (M : Machine W) (s : State W M.Point) :
    (look M s).shared = s.shared := rfl

/-- INTERNAL: what is under way can be seen. -/
@[simp] theorem look_detached (M : Machine W) (s : State W M.Point) :
    (look M s).detached = s.detached := rfl

/-- INTERNAL: of a thread, what it awaits can be seen. -/
@[simp] theorem look_threads (M : Machine W) (s : State W M.Point) (i : ℕ) :
    (look M s).threads i = (s.threads i).map (Thread.map M.head) := rfl

variable {M N : Machine W}

/-- INTERNAL: a point and its image await the same call. -/
theorem Hom.head_map (h : Hom M N) (job : W.Job) (p : M.Point) :
    N.head job (h.map job p) = M.head job p := by
  simp only [Machine.head, h.map_view, Option.map_map]
  rfl

/-- INTERNAL: coming to a point, read through a `Hom`. -/
theorem map_enter (h : Hom M N) (s : State W M.Point) (i : ℕ) (job : W.Job) (p : M.Point) :
    (State.enter M s i job p).map h.map =
      State.enter N (s.map h.map) i job (h.map job p) := by
  have hset := map_setThread h.map s i ⟨job, .waiting p⟩
  simp only [State.enter, h.head_map]
  simp only [State.map, State.setThread, Thread.map, Ctl.map, State.mk.injEq] at hset ⊢
  exact ⟨trivial, hset.2.1, trivial⟩

/-- **A step of `M`, read through a `Hom`, is the step of `N`.** -/
theorem step_hom (h : Hom M N) (s : State W M.Point) (a : Action W) :
    step N (s.map h.map) a = (step M s a).map (State.map h.map) := by
  cases a with
  | spawn i job =>
    simp only [step, map_threads]
    cases hi : s.threads i with
    | some th => rfl
    | none =>
      simp only [Option.map_none, Option.map_some]
      rw [map_enter, h.map_start]
      rfl
  | serve i ch =>
    simp only [step, map_threads]
    rcases hi : s.threads i with _ | ⟨job, _ | _ | _⟩ <;>
      simp only [Option.map_none, Option.map_some, Thread.map, Ctl.map]
    rename_i p
    rw [h.map_view]
    cases M.view job p with
    | none => rfl
    | some ck =>
      have hset := map_setThread h.map s i ⟨job, .answered (ck.2 (W.answer job ck.1 ch s.shared))⟩
      simp only [Option.map_some, Option.some.injEq]
      simp only [State.map, State.setThread, Thread.map, Ctl.map, State.mk.injEq] at hset ⊢
      exact ⟨trivial, hset.2.1.symm, trivial⟩
  | fail i fate ch err =>
    simp only [step, map_threads]
    rcases hi : s.threads i with _ | ⟨job, _ | _ | _⟩ <;>
      simp only [Option.map_none, Option.map_some, Thread.map, Ctl.map]
    rename_i p
    rw [h.map_view]
    cases M.view job p with
    | none => rfl
    | some ck =>
      simp only [Option.map_some, Option.bind_some]
      cases W.failure ck.1 err with
      | none => rfl
      | some r =>
        simp only [Option.map_some, map_setThread, map_lose]
        rfl
  | resume i =>
    simp only [step, map_threads]
    rcases hi : s.threads i with _ | ⟨job, _ | _ | _⟩ <;>
      simp only [Option.map_none, Option.map_some, Thread.map, Ctl.map]
    rw [map_enter]
  | abort i fate ch =>
    simp only [step, map_threads]
    rcases hi : s.threads i with _ | ⟨job, p | p | _⟩ <;>
      simp only [Option.map_none, Option.map_some, Thread.map, Ctl.map]
    · rw [h.head_map]
      cases M.head job p with
      | none => rfl
      | some c =>
        simp only [Option.bind_some]
        split
        · simp only [Option.map_some, map_setThread, map_lose]
          rfl
        · rfl
    · simp only [map_setThread]
      rfl
  | land n ch =>
    simp only [step, map_detached]
    cases s.detached[n]? with
    | none => rfl
    | some d => rfl
  | drift e => rfl

/-- INTERNAL: a `Hom` does not change what an observer sees. -/
theorem look_hom (h : Hom M N) (s : State W M.Point) : look N (s.map h.map) = look M s := by
  have hth : ∀ i, ((s.map h.map).threads i).map (Thread.map N.head) =
      (s.threads i).map (Thread.map M.head) := by
    intro i
    rw [map_threads]
    rcases s.threads i with _ | ⟨job, p | p | _⟩ <;> simp [Thread.map, Ctl.map, h.head_map]
  simp only [look, State.map, State.mk.injEq]
  exact ⟨trivial, funext hth, trivial⟩

/-- The state before any thread is started. -/
def fresh (M : Machine W) (sh : W.Shared) : State W M.Point :=
  ⟨sh, fun _ => none, []⟩

/-- INTERNAL: a fresh state shares what it is given. -/
@[simp] theorem fresh_shared (M : Machine W) (sh : W.Shared) : (fresh M sh).shared = sh := rfl

/-- INTERNAL: a fresh state has no threads. -/
@[simp] theorem fresh_threads (M : Machine W) (sh : W.Shared) (i : ℕ) :
    (fresh M sh).threads i = none := rfl

/-- INTERNAL: in a fresh state nothing is under way. -/
@[simp] theorem fresh_detached (M : Machine W) (sh : W.Shared) : (fresh M sh).detached = [] :=
  rfl

/-- INTERNAL: a fresh state is read as a fresh state. -/
theorem map_fresh (h : Hom M N) (sh : W.Shared) : (fresh M sh).map h.map = fresh N sh := rfl

/-- INTERNAL: whatever can be seen of every state of a run of `N` can be proved on `M`. -/
theorem always_look_hom (h : Hom M N) {Q : State W (Option W.Call) → Prop} (sh : W.Shared)
    (as : List (Action W)) :
    Always (step N) (fun s => Q (look N s)) (fresh N sh) as ↔
      Always (step M) (fun s => Q (look M s)) (fresh M sh) as := by
  have key : Always (step N) (fun s => Q (look N s)) ((fresh M sh).map h.map) as ↔
      Always (step M) (fun s => Q (look N (s.map h.map))) (fresh M sh) as :=
    always_map (step_hom h) (fresh M sh) as
  simpa only [look_hom, map_fresh] using key

/-- INTERNAL: the same for what can be seen of the shared state alone. -/
theorem always_shared_hom (h : Hom M N) {Q : W.Shared → Prop} (sh : W.Shared)
    (as : List (Action W)) :
    Always (step N) (fun s => Q s.shared) (fresh N sh) as ↔
      Always (step M) (fun s => Q s.shared) (fresh M sh) as :=
  always_map (step_hom h) (fresh M sh) as

/-- INTERNAL: whatever can be seen of every transition of a run of `N` can be proved on
`M`. -/
theorem along_look_hom (h : Hom M N)
    {C : State W (Option W.Call) → Action W → State W (Option W.Call) → Prop} (sh : W.Shared)
    (as : List (Action W)) :
    Along (step N) (fun s a s' => C (look N s) a (look N s')) (fresh N sh) as ↔
      Along (step M) (fun s a s' => C (look M s) a (look M s')) (fresh M sh) as := by
  have key : Along (step N) (fun s a s' => C (look N s) a (look N s')) ((fresh M sh).map h.map) as ↔
      Along (step M) (fun s a s' => C (look N (s.map h.map)) a (look N (s'.map h.map)))
        (fresh M sh) as :=
    along_map (step_hom h) (fresh M sh) as
  simpa only [look_hom, map_fresh] using key

/-- INTERNAL: the runs of the image are the images of the runs. -/
theorem run_hom (h : Hom M N) (sh : W.Shared) (as : List (Action W)) :
    run (step N) (fresh N sh) as = (run (step M) (fresh M sh) as).map (State.map h.map) :=
  run_map (step_hom h) (fresh M sh) as

end EventBus.Lib
