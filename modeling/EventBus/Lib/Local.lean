import EventBus.Lib.Sites

/-!
# Invariants that are local to the threads

Many invariants say something of the shared state, something of every thread at the point
it is at, and something of every call under way, but tie no two threads to each other.  For
such a `Local` invariant it is enough to follow the thread that moves.  All the others need
to know of its step is how the shared state `grows`: what is said of a thread or of a call
under way must be stable under that.

`Local.Kept` lists what there is to show, one field for each way a thread moves or a call
takes effect, and `Local.Kept.step` is the rule.
-/

set_option autoImplicit false

namespace EventBus.Lib

variable {W : World} {M : Machine W}

/-- An invariant that ties no two threads to each other. -/
structure Local (M : Machine W) where
  shared : W.Shared → Prop
  site : W.Shared → W.Job → M.Point → Prop
  /-- Of a call whose caller has given up on it. -/
  underWay : W.Shared → W.Job → W.Call → Prop

/-- The invariant in a state. -/
structure Local.Holds (L : Local M) (s : State W M.Point) : Prop where
  shared : L.shared s.shared
  sites : ∀ i job p, s.sites i = some (job, p) → L.site s.shared job p
  detached : ∀ i job c, (i, job, c) ∈ s.detached → L.underWay s.shared job c

/-- What there is to show of a local invariant.  A thread is only started for jobs that are
`fit` in the shared state. -/
structure Local.Kept (L : Local M) (fit : W.Shared → W.Job → Prop)
    (grows : W.Shared → W.Shared → Prop) : Prop where
  site_stable : ∀ {sh sh' job p}, grows sh sh' → L.site sh job p → L.site sh' job p
  underWay_stable : ∀ {sh sh' job c}, grows sh sh' → L.underWay sh job c → L.underWay sh' job c
  start : ∀ i job sh, L.shared sh → fit sh job →
    grows sh (reachPoint M i job (M.start job) (W.enlist i job sh)) ∧
      L.shared (reachPoint M i job (M.start job) (W.enlist i job sh)) ∧
      L.site (reachPoint M i job (M.start job) (W.enlist i job sh)) job (M.start job)
  reach : ∀ i job p sh, L.shared sh → L.site sh job p →
    grows sh (reachPoint M i job p sh) ∧ L.shared (reachPoint M i job p sh)
  /-- A call that is made may be left under way. -/
  made : ∀ {sh job p c}, L.site sh job p → M.head job p = some c → L.underWay sh job c
  effect : ∀ seen i job c ch sh, L.shared sh → L.underWay sh job c →
    grows sh (W.effect seen i job c ch sh) ∧ L.shared (W.effect seen i job c ch sh)
  answered : ∀ i job p c k ch sh, L.shared sh → L.site sh job p → M.view job p = some ⟨c, k⟩ →
    L.site (W.effect true i job c ch sh) job (k (W.answer job c ch sh))
  lost : ∀ {sh job job' p p'}, L.shared sh → L.site sh job p → Lost M job p (some (job', p')) →
    L.site sh job' p'
  drift : ∀ e sh, L.shared sh → grows sh (W.drift e sh) ∧ L.shared (W.drift e sh)

namespace Local

variable {L : Local M} {fit : W.Shared → W.Job → Prop} {grows : W.Shared → W.Shared → Prop}
  {s s' : State W M.Point}

/-- INTERNAL: who does not move relies on the growth of the shared state. -/
theorem Holds.move (hs : L.Holds s) (hL : L.Kept fit grows) (hgrows : grows s.shared s'.shared)
    (hshared : L.shared s'.shared) {i : ℕ} {next : Option (W.Job × M.Point)}
    (hsites : s'.sites = Function.update s.sites i next)
    (hnext : ∀ job p, next = some (job, p) → L.site s'.shared job p)
    (hdet : s'.detached = s.detached) : L.Holds s' := by
  refine ⟨hshared, ?_, ?_⟩
  · rw [hsites]
    exact forall_sites_update hs.sites (fun j job p _ h => hL.site_stable hgrows h) hnext
  · rw [hdet]
    exact fun j job c hc => hL.underWay_stable hgrows (hs.detached j job c hc)

/-- INTERNAL: the same when no thread moves. -/
theorem Holds.stay (hs : L.Holds s) (hL : L.Kept fit grows) (hgrows : grows s.shared s'.shared)
    (hshared : L.shared s'.shared) (hsites : s'.sites = s.sites)
    (hdetached : ∀ x ∈ s'.detached, x ∈ s.detached) : L.Holds s' := by
  refine ⟨hshared, fun i job p hi => ?_, fun j job c hc => ?_⟩
  · rw [hsites] at hi
    exact hL.site_stable hgrows (hs.sites i job p hi)
  · exact hL.underWay_stable hgrows (hs.detached j job c (hdetached _ hc))

/-- INTERNAL: a thread that comes to where its call leads knows what it must there. -/
theorem Kept.next (hL : L.Kept fit grows) (hs : L.Holds s) {i : ℕ} {job : W.Job} {p : M.Point}
    {next : Option (W.Job × M.Point)} (hi : s.sites i = some (job, p)) (hnext : Lost M job p next) :
    ∀ job' p', next = some (job', p') → L.site s.shared job' p' := by
  rintro job' p' rfl
  exact hL.lost hs.shared (hs.sites i job p hi) hnext

/-- **The rule for local invariants.**  A step keeps a local invariant, if it starts a thread
only for a job that is fit. -/
theorem Kept.step (hL : L.Kept fit grows) {a : Action W} (h : Lib.step M s a = some s')
    (hfit : ∀ i job, a = .spawn i job → fit s.shared job) (hs : L.Holds s) : L.Holds s' := by
  cases (step_cases h).move with
  | spawn i job ha hi hsites hshared hdet =>
    obtain ⟨hgrows, hkeeps, hstart⟩ := hL.start i job s.shared hs.shared (hfit i job ha)
    rw [← hshared] at hgrows hkeeps hstart
    refine hs.move hL hgrows hkeeps hsites (fun job' p' hp => ?_) hdet
    obtain ⟨rfl, rfl⟩ := Prod.mk.inj (Option.some.inj hp)
    exact hstart
  | reach i job p ha hi hsites hshared hdet =>
    have hsite := hs.sites i job p (sites_of_threads s i hi)
    obtain ⟨hgrows, hkeeps⟩ := hL.reach i job p s.shared hs.shared hsite
    rw [← hshared] at hgrows hkeeps
    exact hs.stay hL hgrows hkeeps hsites fun x hx => hdet ▸ hx
  | serve i ch job p c k ha hi hv hsites hshared hdet =>
    have hsite := hs.sites i job p (sites_of_threads s i hi)
    have hmade := hL.made hsite (Machine.head_of_view hv)
    obtain ⟨hgrows, hkeeps⟩ := hL.effect true i job c ch s.shared hs.shared hmade
    rw [← hshared] at hgrows hkeeps
    refine hs.move hL hgrows hkeeps hsites (fun job' p' hp => ?_) hdet
    obtain ⟨rfl, rfl⟩ := Prod.mk.inj (Option.some.inj hp)
    rw [hshared]
    exact hL.answered i job p c k ch s.shared hs.shared hsite hv
  | drop i job p next ha hi hnext hsites hshared hdet =>
    refine ⟨hshared ▸ hs.shared, ?_, ?_⟩
    · rw [hsites, hshared]
      exact forall_sites_update hs.sites (fun _ _ _ _ h => h) (hL.next hs hi hnext)
    · rw [hdet, hshared]
      exact hs.detached
  | act i ch job p c next ha hi hc hlose hnext hsites hshared hdet =>
    have hsite : s.sites i = some (job, p) := sites_of_threads s i hi
    have hmade := hL.made (hs.sites i job p hsite) hc
    obtain ⟨hgrows, hkeeps⟩ := hL.effect false i job c ch s.shared hs.shared hmade
    rw [← hshared] at hgrows hkeeps
    refine hs.move hL hgrows hkeeps hsites (fun job' p' hp => ?_) hdet
    exact hL.site_stable hgrows (hL.next hs hsite hnext job' p' hp)
  | defer i job p c next ha hi hc hlose hnext hsites hshared hdet =>
    have hsite : s.sites i = some (job, p) := sites_of_threads s i hi
    refine ⟨hshared ▸ hs.shared, ?_, ?_⟩
    · rw [hsites, hshared]
      exact forall_sites_update hs.sites (fun _ _ _ _ h => h) (hL.next hs hsite hnext)
    · rw [hdet, hshared]
      intro j job' c' hc'
      rcases List.mem_append.mp hc' with hold | hnew
      · exact hs.detached j job' c' hold
      · obtain ⟨rfl, rfl, rfl⟩ := by simpa using hnew
        exact hL.made (hs.sites _ _ _ hsite) hc
  | land n ch i job c ha hn hsites hshared hdet =>
    have hmem : (i, job, c) ∈ s.detached := List.mem_of_getElem? hn
    obtain ⟨hgrows, hkeeps⟩ :=
      hL.effect false i job c ch s.shared hs.shared (hs.detached i job c hmem)
    rw [← hshared] at hgrows hkeeps
    exact hs.stay hL hgrows hkeeps hsites fun x hx => List.mem_of_mem_eraseIdx (hdet ▸ hx)
  | drift e ha hsites hshared hdet =>
    obtain ⟨hgrows, hkeeps⟩ := hL.drift e s.shared hs.shared
    rw [← hshared] at hgrows hkeeps
    exact hs.stay hL hgrows hkeeps hsites fun x hx => hdet ▸ hx

/-- INTERNAL: the shared state grows with every step. -/
theorem Kept.grown (hL : L.Kept fit grows) (hrefl : ∀ sh, grows sh sh) {a : Action W}
    (h : Lib.step M s a = some s') (hfit : ∀ i job, a = .spawn i job → fit s.shared job)
    (hs : L.Holds s) : grows s.shared s'.shared := by
  cases (step_cases h).move with
  | spawn i job ha hi hsites hshared hdet =>
    rw [hshared]
    exact (hL.start i job s.shared hs.shared (hfit i job ha)).1
  | reach i job p ha hi hsites hshared hdet =>
    rw [hshared]
    exact (hL.reach i job p s.shared hs.shared (hs.sites i job p (sites_of_threads s i hi))).1
  | serve i ch job p c k ha hi hv hsites hshared hdet =>
    have hmade := hL.made (hs.sites i job p (sites_of_threads s i hi)) (Machine.head_of_view hv)
    rw [hshared]
    exact (hL.effect true i job c ch s.shared hs.shared hmade).1
  | drop i job p next ha hi hnext hsites hshared hdet =>
    rw [hshared]
    exact hrefl s.shared
  | act i ch job p c next ha hi hc hlose hnext hsites hshared hdet =>
    have hmade := hL.made (hs.sites i job p (sites_of_threads s i hi)) hc
    rw [hshared]
    exact (hL.effect false i job c ch s.shared hs.shared hmade).1
  | defer i job p c next ha hi hc hlose hnext hsites hshared hdet =>
    rw [hshared]
    exact hrefl s.shared
  | land n ch i job c ha hn hsites hshared hdet =>
    have hmade := hs.detached i job c (List.mem_of_getElem? hn)
    rw [hshared]
    exact (hL.effect false i job c ch s.shared hs.shared hmade).1
  | drift e ha hsites hshared hdet =>
    rw [hshared]
    exact (hL.drift e s.shared hs.shared).1

/-- INTERNAL: without threads nothing is to be known of them. -/
theorem Holds.fresh {sh : W.Shared} (hsh : L.shared sh) : L.Holds (fresh M sh) where
  shared := hsh
  sites i job p hi := by cases hi
  detached i job c hc := by cases hc

end Local

/-! ## Jobs -/

/-- Every job, of a thread or of a call under way, satisfies `P`. -/
structure Jobs (P : W.Job → Prop) (s : State W M.Point) : Prop where
  sites : ∀ i job p, s.sites i = some (job, p) → P job
  underWay : ∀ i job c, (i, job, c) ∈ s.detached → P job

/-- `Jobs` as a local invariant. -/
def jobs (M : Machine W) (P : W.Job → Prop) : Local M where
  shared _ := True
  site _ job _ := P job
  underWay _ job _ := P job

/-- INTERNAL: what holds of the jobs for which threads are started holds of all jobs. -/
theorem Jobs.step {P : W.Job → Prop} {s s' : State W M.Point} {a : Action W}
    (h : Lib.step M s a = some s') (hfit : ∀ i job, a = .spawn i job → P job)
    (hs : Jobs P s) : Jobs P s' := by
  have hkept : (jobs M P).Kept (fun _ job => P job) (fun _ _ => True) := {
    site_stable := fun _ h => h
    underWay_stable := fun _ h => h
    start := fun _ _ _ _ hjob => ⟨trivial, trivial, hjob⟩
    reach := fun _ _ _ _ _ _ => ⟨trivial, trivial⟩
    made := fun hjob _ => hjob
    effect := fun _ _ _ _ _ _ _ _ => ⟨trivial, trivial⟩
    answered := fun _ _ _ _ _ _ _ _ hjob _ => hjob
    lost := fun {_ _ _ _ _} _ hjob hnext => by
      cases hnext with
      | failed hv hr => exact hjob
    drift := fun _ _ _ => ⟨trivial, trivial⟩ }
  obtain ⟨-, hsites, hunder⟩ := hkept.step h hfit ⟨trivial, hs.sites, hs.underWay⟩
  exact ⟨hsites, hunder⟩

/-- INTERNAL: there are no jobs at first. -/
theorem Jobs.fresh {P : W.Job → Prop} (sh : W.Shared) : Jobs P (fresh M sh) where
  sites i job p hi := by cases hi
  underWay i job c hc := by cases hc

/-! ## Calls under way -/

/-- Calls under way were made at a point. -/
def Made (s : State W M.Point) : Prop :=
  ∀ i job c, (i, job, c) ∈ s.detached → ∃ p, M.head job p = some c

/-- `Made` as a local invariant. -/
def made (M : Machine W) : Local M where
  shared _ := True
  site _ _ _ := True
  underWay _ job c := ∃ p, M.head job p = some c

/-- INTERNAL: `made` says that all jobs were made. -/
theorem made_holds_iff {s : State W M.Point} : (made M).Holds s ↔ Made s :=
  ⟨fun h => h.detached, fun h => ⟨trivial, fun _ _ _ _ => trivial, h⟩⟩

/-- INTERNAL: calls under way stay calls that were made at a point. -/
theorem Made.step {s s' : State W M.Point} {a : Action W} (h : Lib.step M s a = some s')
    (hs : Made s) : Made s' := by
  have hkept : (made M).Kept (fun _ _ => True) (fun _ _ => True) := {
    site_stable := fun _ _ => trivial
    underWay_stable := fun _ h => h
    start := fun _ _ _ _ _ => ⟨trivial, trivial, trivial⟩
    reach := fun _ _ _ _ _ _ => ⟨trivial, trivial⟩
    made := fun _ hc => ⟨_, hc⟩
    effect := fun _ _ _ _ _ _ _ _ => ⟨trivial, trivial⟩
    answered := fun _ _ _ _ _ _ _ _ _ _ => trivial
    lost := fun _ _ _ => trivial
    drift := fun _ _ _ => ⟨trivial, trivial⟩ }
  exact made_holds_iff.mp (hkept.step h (fun _ _ _ => trivial) (made_holds_iff.mpr hs))

end EventBus.Lib
