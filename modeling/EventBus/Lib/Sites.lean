import EventBus.Lib.Pool

/-!
# Where the threads are

Most facts about threads do not depend on whether the answer of a call has reached its
caller yet.  The `sites` of a state forget it: a thread is at the point it is suspended
on or on its way to, or nowhere once it is aborted.  `Move` lists what a step can do to
the shared state, the sites and the calls under way, with failed and aborted calls told
apart by what becomes of them and not by what their callers do next; `Step.move` says
that this is all a step can do.
-/

set_option autoImplicit false

namespace EventBus.Lib

open Function (update)

variable {W : World}

/-- Where a thread is. -/
def Thread.site {P : Type} : Thread W P → Option (W.Job × P)
  | ⟨job, .waiting p⟩ => some (job, p)
  | ⟨job, .answered p⟩ => some (job, p)
  | ⟨_, .dead⟩ => none

/-- Where the threads are. -/
def State.sites {P : Type} (s : State W P) (i : ℕ) : Option (W.Job × P) :=
  (s.threads i).bind Thread.site

section

variable {P : Type} (s : State W P) (i : ℕ)

/-- INTERNAL: the site of a thread that is there. -/
theorem sites_of_threads {th : Thread W P} (hi : s.threads i = some th) :
    s.sites i = th.site := by
  simp [State.sites, hi]

/-- INTERNAL: no thread, no site. -/
theorem sites_none (hi : s.threads i = none) : s.sites i = none := by
  simp [State.sites, hi]

/-- INTERNAL: a site is that of a thread with its job. -/
theorem job_of_sites {job : W.Job} {p : P} (hi : s.sites i = some (job, p)) :
    ∃ th, s.threads i = some th ∧ th.job = job := by
  obtain ⟨⟨job', ctl⟩, hth, hsite⟩ := Option.bind_eq_some_iff.mp hi
  refine ⟨_, hth, ?_⟩
  cases ctl <;> cases hsite <;> rfl

/-- INTERNAL: setting a thread sets its site. -/
theorem sites_setThread (th : Thread W P) :
    (s.setThread i th).sites = update s.sites i th.site := by
  funext j
  by_cases hj : j = i
  · subst hj
    rw [Function.update_self, sites_of_threads _ _ (setThread_self s j th)]
  · rw [Function.update_of_ne hj, State.sites, setThread_of_ne s i th hj, State.sites]

/-- INTERNAL: a lost call moves no site. -/
theorem sites_lose (job : W.Job) (c : W.Call) (fate : Fate) (ch : W.Choice) :
    (s.lose i job c fate ch).sites = s.sites := by
  funext j
  rw [State.sites, State.sites, lose_threads]

end

/-- The shared state when thread `i` comes to the point `p`. -/
def reachPoint (M : Machine W) (i : ℕ) (job : W.Job) (p : M.Point) (sh : W.Shared) : W.Shared :=
  match M.head job p with
  | some c => W.reach i job c sh
  | none => sh

/-- How a thread goes on when it gets no answer to the call it is suspended on: it is told
of a failure, or it is aborted. -/
inductive Lost (M : Machine W) (job : W.Job) (p : M.Point) : Option (W.Job × M.Point) → Prop where
  | failed {c : W.Call} {k : W.Resp c → M.Point} {r : W.Resp c} {err : W.Err}
      (hv : M.view job p = some ⟨c, k⟩) (hr : W.failure c err = some r) :
      Lost M job p (some (job, k r))
  | aborted : Lost M job p none

/-- Whether a call can be lost by its caller and still be served. -/
def Losable (W : World) (c : W.Call) : Prop :=
  W.remote c = true ∨ ∃ err r, W.failure c err = some r

/-- What a step does to the shared state, the sites and the calls under way. -/
inductive Move (M : Machine W) (s : State W M.Point) (a : Action W) (s' : State W M.Point) :
    Prop where
  | spawn (i : ℕ) (job : W.Job) (ha : a = .spawn i job) (hi : s.threads i = none)
      (hsites : s'.sites = update s.sites i (some (job, M.start job)))
      (hshared : s'.shared = reachPoint M i job (M.start job) (W.enlist i job s.shared))
      (hdet : s'.detached = s.detached)
  | reach (i : ℕ) (job : W.Job) (p : M.Point) (ha : a = .resume i)
      (hi : s.threads i = some ⟨job, .answered p⟩)
      (hsites : s'.sites = s.sites) (hshared : s'.shared = reachPoint M i job p s.shared)
      (hdet : s'.detached = s.detached)
  | serve (i : ℕ) (ch : W.Choice) (job : W.Job) (p : M.Point) (c : W.Call)
      (k : W.Resp c → M.Point) (ha : a = .serve i ch)
      (hi : s.threads i = some ⟨job, .waiting p⟩) (hv : M.view job p = some ⟨c, k⟩)
      (hsites : s'.sites = update s.sites i (some (job, k (W.answer job c ch s.shared))))
      (hshared : s'.shared = W.effect true i job c ch s.shared) (hdet : s'.detached = s.detached)
  | drop (i : ℕ) (job : W.Job) (p : M.Point) (next : Option (W.Job × M.Point))
      (ha : (s.threads i = some ⟨job, .waiting p⟩ ∧
          ((∃ ch err, a = .fail i .dropped ch err) ∨
            ∃ ch, a = .abort i .dropped ch ∧ next = none)) ∨
        (s.threads i = some ⟨job, .answered p⟩ ∧ ∃ fate ch, a = .abort i fate ch ∧ next = none))
      (hi : s.sites i = some (job, p)) (hnext : Lost M job p next)
      (hsites : s'.sites = update s.sites i next)
      (hshared : s'.shared = s.shared) (hdet : s'.detached = s.detached)
  | act (i : ℕ) (ch : W.Choice) (job : W.Job) (p : M.Point) (c : W.Call)
      (next : Option (W.Job × M.Point))
      (ha : (∃ err, a = .fail i .served ch err) ∨ (a = .abort i .served ch ∧ next = none))
      (hi : s.threads i = some ⟨job, .waiting p⟩) (hc : M.head job p = some c)
      (hlose : Losable W c) (hnext : Lost M job p next)
      (hsites : s'.sites = update s.sites i next)
      (hshared : s'.shared = W.effect false i job c ch s.shared) (hdet : s'.detached = s.detached)
  | defer (i : ℕ) (job : W.Job) (p : M.Point) (c : W.Call) (next : Option (W.Job × M.Point))
      (ha : (∃ ch err, a = .fail i .late ch err) ∨ ∃ ch, a = .abort i .late ch ∧ next = none)
      (hi : s.threads i = some ⟨job, .waiting p⟩) (hc : M.head job p = some c)
      (hlose : Losable W c) (hnext : Lost M job p next)
      (hsites : s'.sites = update s.sites i next)
      (hshared : s'.shared = s.shared) (hdet : s'.detached = s.detached ++ [(i, job, c)])
  | land (n : ℕ) (ch : W.Choice) (i : ℕ) (job : W.Job) (c : W.Call) (ha : a = .land n ch)
      (hn : s.detached[n]? = some (i, job, c)) (hsites : s'.sites = s.sites)
      (hshared : s'.shared = W.effect false i job c ch s.shared)
      (hdet : s'.detached = s.detached.eraseIdx n)
  | drift (e : W.Drift) (ha : a = .drift e) (hsites : s'.sites = s.sites)
      (hshared : s'.shared = W.drift e s.shared) (hdet : s'.detached = s.detached)

variable {M : Machine W}

/-- INTERNAL: a thread that comes to a point has its site there. -/
theorem sites_enter (s : State W M.Point) (i : ℕ) (job : W.Job) (p : M.Point) :
    (State.enter M s i job p).sites = update s.sites i (some (job, p)) := by
  have hset : (State.enter M s i job p).sites = (s.setThread i ⟨job, .waiting p⟩).sites := rfl
  rw [hset, sites_setThread]
  rfl

/-- INTERNAL: a site that is set to what it is stays. -/
theorem update_sites_self (s : State W M.Point) (i : ℕ) (job : W.Job) (p : M.Point)
    (hi : s.sites i = some (job, p)) : update s.sites i (some (job, p)) = s.sites := by
  rw [← hi]
  exact Function.update_eq_self i s.sites

/-- INTERNAL: what losing a call does, by the fate of the call. -/
theorem lose_move {s s' : State W M.Point} {a : Action W} {i : ℕ} {job : W.Job} {p : M.Point}
    {c : W.Call} {fate : Fate} {ch : W.Choice} {th : Thread W M.Point}
    (ha : (∃ err, a = .fail i fate ch err) ∨ (a = .abort i fate ch ∧ th.site = none))
    (hi : s.threads i = some ⟨job, .waiting p⟩) (hc : M.head job p = some c)
    (hlose : fate = .dropped ∨ Losable W c) (hnext : Lost M job p th.site)
    (hs' : s' = (s.lose i job c fate ch).setThread i th) :
    Move M s a s' := by
  have hsites : s'.sites = update s.sites i th.site := by
    rw [hs', sites_setThread, sites_lose]
  have hsite : s.sites i = some (job, p) := sites_of_threads s i hi
  cases fate with
  | dropped =>
    refine .drop i job p th.site ?_ hsite hnext hsites (by rw [hs']; rfl) (by rw [hs']; rfl)
    refine .inl ⟨hi, ?_⟩
    rcases ha with ⟨err, ha⟩ | ha
    · exact .inl ⟨ch, err, ha⟩
    · exact .inr ⟨ch, ha⟩
  | served =>
    have hlose : Losable W c := hlose.resolve_left (by simp)
    exact .act i ch job p c th.site ha hi hc hlose hnext hsites (by rw [hs']; rfl)
      (by rw [hs']; rfl)
  | late =>
    have hlose : Losable W c := hlose.resolve_left (by simp)
    refine .defer i job p c th.site ?_ hi hc hlose hnext hsites (by rw [hs']; rfl)
      (by rw [hs']; rfl)
    rcases ha with ⟨err, ha⟩ | ha
    · exact .inl ⟨ch, err, ha⟩
    · exact .inr ⟨ch, ha⟩

/-- INTERNAL: this is all a step can do. -/
theorem Step.move {s s' : State W M.Point} {a : Action W} (h : Step M s a s') :
    Move M s a s' := by
  cases h with
  | spawn hfree =>
    exact .spawn _ _ rfl hfree (sites_enter ..) rfl rfl
  | serve hi hv =>
    exact .serve _ _ _ _ _ _ rfl hi hv (sites_setThread ..) rfl rfl
  | @fail i fate ch err job p c k r hi hv hr =>
    have hc : M.head job p = some c := Machine.head_of_view hv
    have hnext : Lost M job p (Thread.site ⟨job, .answered (k r)⟩) := .failed hv hr
    exact lose_move (.inl ⟨err, rfl⟩) hi hc (.inr (.inr ⟨err, r, hr⟩)) hnext rfl
  | @resume i job p hi =>
    refine .reach i job p rfl hi ?_ rfl rfl
    rw [sites_enter]
    exact update_sites_self s i job p (sites_of_threads s i hi)
  | @abortWaiting i fate ch job p c hi hv hfate =>
    have hnext : Lost M job p (Thread.site ⟨job, .dead⟩) := .aborted
    exact lose_move (.inr ⟨rfl, rfl⟩) hi hv (hfate.imp_right .inl) hnext rfl
  | @abortAnswered i fate ch job p hi =>
    exact .drop i job p none (.inr ⟨hi, fate, ch, rfl, rfl⟩) (sites_of_threads s i hi) .aborted
      (sites_setThread ..) rfl rfl
  | land hn => exact .land _ _ _ _ _ rfl hn rfl rfl rfl
  | drift => exact .drift _ rfl rfl rfl rfl

/-- INTERNAL: what is there after one entry has changed is the new entry, or was there. -/
theorem update_cases {β : Type} {f f' : ℕ → Option β} {i j : ℕ} {next : Option β} {x : β}
    (h : f' = update f j next) (hi : f' i = some x) : (i = j ∧ next = some x) ∨ f i = some x := by
  rw [h] at hi
  by_cases hij : i = j
  · subst hij
    rw [Function.update_self] at hi
    exact .inl ⟨rfl, hi⟩
  · rw [Function.update_of_ne hij] at hi
    exact .inr hi

/-- INTERNAL: what holds of every site still holds when one site changes to a site of
which it holds. -/
theorem forall_sites_update {P : Type} {f : ℕ → Option (W.Job × P)} {i : ℕ}
    {next : Option (W.Job × P)} {Q R : ℕ → W.Job → P → Prop}
    (hf : ∀ j job p, f j = some (job, p) → Q j job p)
    (hQR : ∀ j job p, j ≠ i → Q j job p → R j job p)
    (hnext : ∀ job p, next = some (job, p) → R i job p) :
    ∀ j job p, update f i next j = some (job, p) → R j job p := by
  intro j job p hj
  by_cases hji : j = i
  · subst hji
    rw [Function.update_self] at hj
    exact hnext job p hj
  · rw [Function.update_of_ne hji] at hj
    exact hQR j job p hji (hf j job p hj)

/-! ## What an observer sees -/

/-- The call the thread is suspended on. -/
def State.awaits (s : State W (Option W.Call)) (i : ℕ) : Option (W.Job × W.Call) :=
  match s.threads i with
  | some ⟨job, .waiting (some c)⟩ => some (job, c)
  | _ => none

/-- The call the thread is on its way to. -/
def State.approaches (s : State W (Option W.Call)) (i : ℕ) : Option (W.Job × W.Call) :=
  match s.threads i with
  | some ⟨job, .answered (some c)⟩ => some (job, c)
  | _ => none

/-- The thread has come to its end. -/
def State.ended (s : State W (Option W.Call)) (i : ℕ) : Bool :=
  match s.threads i with
  | some ⟨_, .waiting none⟩ => true
  | _ => false

section

variable {s : State W M.Point} {i : ℕ} {job : W.Job} {p : M.Point} {c : W.Call}

/-- INTERNAL: what an observer sees of a thread that is suspended. -/
theorem look_awaits (M : Machine W) {s : State W M.Point} {p : M.Point}
    (hi : s.threads i = some ⟨job, .waiting p⟩) :
    (look M s).awaits i = (M.head job p).map fun c => (job, c) := by
  unfold State.awaits
  rw [look_threads, hi]
  simp only [Option.map_some, Thread.map, Ctl.map]
  cases M.head job p <;> rfl

/-- INTERNAL: a thread that waits is seen to await its call. -/
theorem look_waiting (hi : s.threads i = some ⟨job, .waiting p⟩) (hc : M.head job p = some c) :
    (look M s).awaits i = some (job, c) := by
  rw [look_awaits M hi, hc, Option.map_some]

/-- INTERNAL: a thread that awaits a call is suspended at a point that makes it. -/
theorem waiting_of_awaits (hi : (look M s).awaits i = some (job, c)) :
    ∃ p, s.threads i = some ⟨job, .waiting p⟩ ∧ M.head job p = some c := by
  unfold State.awaits at hi
  rw [look_threads] at hi
  rcases hth : s.threads i with _ | ⟨job', p | p | _⟩ <;>
    simp only [hth, Option.map_none, Option.map_some, Thread.map, Ctl.map] at hi
  · cases hi
  · cases hc : M.head job' p with
    | none =>
      rw [hc] at hi
      cases hi
    | some c' =>
      rw [hc] at hi
      obtain ⟨rfl, rfl⟩ := Prod.mk.inj (Option.some.inj hi)
      exact ⟨p, rfl, hc⟩
  · cases hi
  · cases hi

/-- INTERNAL: only a thread that exists awaits a call. -/
theorem thread_of_awaits (hi : (look M s).awaits i = some (job, c)) :
    ∃ th, s.threads i = some th ∧ th.job = job := by
  obtain ⟨p, hp, -⟩ := waiting_of_awaits hi
  exact ⟨_, hp, rfl⟩

/-- INTERNAL: a thread that waits is seen to come to no other call. -/
theorem look_approaches_of_waiting (M : Machine W) {s : State W M.Point} {p : M.Point}
    (hi : s.threads i = some ⟨job, .waiting p⟩) :
    (look M s).approaches i = none := by
  unfold State.approaches
  rw [look_threads, hi]
  rfl

/-- INTERNAL: what an observer sees of a thread that goes on. -/
theorem look_approaches (M : Machine W) {s : State W M.Point} {p : M.Point}
    (hi : s.threads i = some ⟨job, .answered p⟩) :
    (look M s).approaches i = (M.head job p).map fun c => (job, c) := by
  unfold State.approaches
  rw [look_threads, hi]
  simp only [Option.map_some, Thread.map, Ctl.map]
  cases M.head job p <;> rfl

/-- INTERNAL: a thread that has its answer is seen to await nothing. -/
theorem look_awaits_of_answered (M : Machine W) {s : State W M.Point} {p : M.Point}
    (hi : s.threads i = some ⟨job, .answered p⟩) :
    (look M s).awaits i = none := by
  unfold State.awaits
  rw [look_threads, hi]
  rfl

end

/-- INTERNAL: the sites of another reading of the points. -/
theorem sites_map {P Q : Type} (f : W.Job → P → Q) (s : State W P) (i : ℕ) :
    (s.map f).sites i = (s.sites i).map fun x => (x.1, f x.1 x.2) := by
  unfold State.sites
  rw [map_threads]
  rcases s.threads i with _ | ⟨job, p | p | _⟩ <;> rfl

/-- INTERNAL: of a site, the call there can be seen. -/
theorem look_sites (s : State W M.Point) (i : ℕ) :
    (look M s).sites i = (s.sites i).map fun x => (x.1, M.head x.1 x.2) :=
  sites_map M.head s i

end EventBus.Lib
