import EventBus.Lib.Sites

/-!
# Resources that one thread owns at a time

Threads own resources by where they are: `owns job p` is what a thread at the point `p`
owns.  Some calls end the ownership of a resource when they take effect (`ends`), and
nobody checks that their caller is the owner.  That a resource has one owner at most
rests on who can still make such a call: the owner, or a call that a former owner has
left under way.

`Exclusive` collects what has to be shown of single calls, and `sound` is what has to be
assumed of them, if anything.  `Exclusive.Inv` is the
invariant that follows of every run: every resource has at most one owner or one call
under way that ends it, and is held for it meanwhile.
-/

set_option autoImplicit false

namespace EventBus.Lib

open Function (update)

/-- What a machine has to satisfy for its threads to own resources exclusively. -/
structure Exclusive {W : World} (M : Machine W) (R : Type) where
  /-- What a thread at a point owns. -/
  owns : W.Job → M.Point → Option R
  /-- What stops being owned when the call takes effect. -/
  ends : W.Call → Option R
  /-- The resource is held for the thread. -/
  held : ℕ → R → W.Shared → Prop
  /-- Serving the call in this state grants nothing that is not free. -/
  sound : W.Call → W.Shared → Prop
  owns_of_ends : ∀ {job p c r}, M.head job p = some c → ends c = some r → owns job p = some r
  owns_start : ∀ job, owns job (M.start job) = none
  owns_answer : ∀ {i job p c k ch sh r}, M.view job p = some ⟨c, k⟩ → sound c sh →
    owns job (k (W.answer job c ch sh)) = some r →
    (owns job p = some r ∧ ends c = none) ∨
      ((∀ j, ¬ held j r sh) ∧ held i r (W.effect true i job c ch sh))
  owns_failure : ∀ {job p c k err a r}, M.view job p = some ⟨c, k⟩ → W.failure c err = some a →
    owns job (k a) = some r → owns job p = some r ∧ ends c = none
  held_effect : ∀ {seen i job c ch sh j r}, ends c ≠ some r → held j r sh →
    held j r (W.effect seen i job c ch sh)
  held_enlist : ∀ {i job sh j r}, held j r sh → held j r (W.enlist i job sh)
  held_reach : ∀ {i job c sh j r}, held j r sh → held j r (W.reach i job c sh)

namespace Exclusive

variable {W : World} {M : Machine W} {R : Type} (X : Exclusive M R)

/-- Every resource has one owner at most, thread or call under way, for which it is
held. -/
structure Inv (s : State W M.Point) : Prop where
  unique : ∀ i j job job' p q r, s.sites i = some (job, p) → s.sites j = some (job', q) →
    X.owns job p = some r → X.owns job' q = some r → i = j
  held : ∀ i job p r, s.sites i = some (job, p) → X.owns job p = some r → X.held i r s.shared
  endsHeld : ∀ i job c r, (i, job, c) ∈ s.detached → X.ends c = some r → X.held i r s.shared
  endsAlone : ∀ i job c r, (i, job, c) ∈ s.detached → X.ends c = some r →
    ∀ j job' q, s.sites j = some (job', q) → X.owns job' q ≠ some r
  endsOnce : s.detached.Pairwise fun x y => ∀ r, X.ends x.2.2 = some r → X.ends y.2.2 ≠ some r

variable {X} {s s' : State W M.Point}

/-- INTERNAL: who gets no answer owns what it owned before, unless its call ends it. -/
theorem owns_lost {job job' : W.Job} {p p' : M.Point} {r : R}
    (hnext : Lost M job p (some (job', p'))) (ho : X.owns job' p' = some r) :
    job' = job ∧ X.owns job p = some r ∧ ∀ c, M.head job p = some c → X.ends c = none := by
  cases hnext with
  | failed hv hr =>
    obtain ⟨hp, hends⟩ := X.owns_failure hv hr ho
    refine ⟨rfl, hp, fun c' hc' => ?_⟩
    obtain rfl := Option.some.inj ((Machine.head_of_view hv).symm.trans hc')
    exact hends

/-- INTERNAL: a thread goes on from a call.  What it owns afterwards it owned before and
was not ending, or it was free and is now held for it. -/
theorem Inv.goOn (hs : X.Inv s) {i : ℕ} {job : W.Job} {p : M.Point} {c : W.Call}
    {next : Option (W.Job × M.Point)} (hi : s.sites i = some (job, p))
    (hc : M.head job p = some c)
    (hheld : ∀ j r, X.ends c ≠ some r → X.held j r s.shared → X.held j r s'.shared)
    (hnext : ∀ job' p' r, next = some (job', p') → X.owns job' p' = some r →
      (X.owns job p = some r ∧ X.ends c = none) ∨
        ((∀ j, ¬ X.held j r s.shared) ∧ X.held i r s'.shared))
    (hsites : s'.sites = update s.sites i next) (hdet : s'.detached = s.detached) :
    X.Inv s' := by
  -- what another thread owns, or a call under way ends, is not ended by this call
  have hother : ∀ j job' q r, j ≠ i → s.sites j = some (job', q) → X.owns job' q = some r →
      X.ends c ≠ some r := by
    intro j job' q r hji hj hq hends
    exact hji (hs.unique j i job' job q p r hj hi hq (X.owns_of_ends hc hends))
  have hunder : ∀ j job' c' r, (j, job', c') ∈ s.detached → X.ends c' = some r →
      X.ends c ≠ some r := by
    intro j job' c' r hmem hr hends
    exact hs.endsAlone j job' c' r hmem hr i job p hi (X.owns_of_ends hc hends)
  -- what the thread owns now, nobody else does
  have hfree : ∀ job' p' r, next = some (job', p') → X.owns job' p' = some r →
      X.held i r s'.shared ∧
      (∀ j job'' q, j ≠ i → s.sites j = some (job'', q) → X.owns job'' q ≠ some r) ∧
      ∀ j job'' c', (j, job'', c') ∈ s.detached → X.ends c' ≠ some r := by
    intro job' p' r hn ho
    rcases hnext job' p' r hn ho with ⟨hp, hends⟩ | ⟨hnone, hnow⟩
    · refine ⟨hheld i r (by simp [hends]) (hs.held i job p r hi hp), ?_, ?_⟩
      · exact fun j job'' q hji hj hq => hji (hs.unique j i job'' job q p r hj hi hq hp)
      · exact fun j job'' c' hmem hr => hs.endsAlone j job'' c' r hmem hr i job p hi hp
    · refine ⟨hnow, ?_, ?_⟩
      · exact fun j job'' q _ hj hq => hnone j (hs.held j job'' q r hj hq)
      · exact fun j job'' c' hmem hr => hnone j (hs.endsHeld j job'' c' r hmem hr)
  constructor
  · intro j j' job' job'' q q' r hj hj' hq hq'
    rw [hsites] at hj hj'
    by_cases hji : j = i <;> by_cases hji' : j' = i
    · rw [hji, hji']
    · rw [hji, Function.update_self] at hj
      rw [Function.update_of_ne hji'] at hj'
      exact absurd hq' ((hfree job' q r hj hq).2.1 j' job'' q' hji' hj')
    · rw [hji', Function.update_self] at hj'
      rw [Function.update_of_ne hji] at hj
      exact absurd hq ((hfree job'' q' r hj' hq').2.1 j job' q hji hj)
    · rw [Function.update_of_ne hji] at hj
      rw [Function.update_of_ne hji'] at hj'
      exact hs.unique j j' job' job'' q q' r hj hj' hq hq'
  · intro j job' q r hj hq
    rw [hsites] at hj
    by_cases hji : j = i
    · rw [hji, Function.update_self] at hj
      rw [hji]
      exact (hfree job' q r hj hq).1
    · rw [Function.update_of_ne hji] at hj
      exact hheld j r (hother j job' q r hji hj hq) (hs.held j job' q r hj hq)
  · rw [hdet]
    exact fun j job' c' r hmem hr =>
      hheld j r (hunder j job' c' r hmem hr) (hs.endsHeld j job' c' r hmem hr)
  · rw [hdet]
    intro j job' c' r hmem hr j' job'' q hj hq
    rw [hsites] at hj
    by_cases hji : j' = i
    · rw [hji, Function.update_self] at hj
      exact (hfree job'' q r hj hq).2.2 j job' c' hmem hr
    · rw [Function.update_of_ne hji] at hj
      exact hs.endsAlone j job' c' r hmem hr j' job'' q hj hq
  · rw [hdet]
    exact hs.endsOnce

/-- INTERNAL: nobody comes to own anything, and what is held stays held. -/
theorem Inv.same (hs : X.Inv s) (hheld : ∀ j r, X.held j r s.shared → X.held j r s'.shared)
    (hsites : ∀ j job q, s'.sites j = some (job, q) → X.owns job q = none ∨
      s.sites j = some (job, q)) (hdet : s'.detached = s.detached) : X.Inv s' := by
  have hold : ∀ j job q r, s'.sites j = some (job, q) → X.owns job q = some r →
      s.sites j = some (job, q) := by
    intro j job q r hj hq
    refine (hsites j job q hj).resolve_left fun hnone => ?_
    rw [hnone] at hq
    cases hq
  constructor
  · exact fun i j job job' p q r hi hj hp hq =>
      hs.unique i j job job' p q r (hold i job p r hi hp) (hold j job' q r hj hq) hp hq
  · exact fun i job p r hi hp => hheld i r (hs.held i job p r (hold i job p r hi hp) hp)
  · rw [hdet]
    exact fun i job c r hmem hr => hheld i r (hs.endsHeld i job c r hmem hr)
  · rw [hdet]
    exact fun i job c r hmem hr j job' q hj hq =>
      hs.endsAlone i job c r hmem hr j job' q (hold j job' q r hj hq) hq
  · rw [hdet]
    exact hs.endsOnce

/-- INTERNAL: a call is left under way, and its caller goes on without its answer. -/
theorem Inv.defer (hs : X.Inv s) {i : ℕ} {job : W.Job} {p : M.Point} {c : W.Call}
    {next : Option (W.Job × M.Point)} (hi : s.sites i = some (job, p))
    (hc : M.head job p = some c) (hnext : Lost M job p next) (hshared : s'.shared = s.shared)
    (hsites : s'.sites = update s.sites i next)
    (hdet : s'.detached = s.detached ++ [(i, job, c)]) : X.Inv s' := by
  -- without the call under way this is a thread that goes on
  have hgo : X.Inv { s' with detached := s.detached } := by
    refine hs.goOn hi hc (fun j r _ h => hshared ▸ h) ?_ hsites rfl
    rintro job' p' r rfl ho
    obtain ⟨-, hp, hends⟩ := owns_lost hnext ho
    exact .inl ⟨hp, hends c hc⟩
  have hmem' : ∀ x, x ∈ s'.detached → x ∈ s.detached ∨ x = (i, job, c) := by
    intro x hx
    rw [hdet] at hx
    simpa using hx
  constructor
  · exact hgo.unique
  · exact hgo.held
  · intro j job' c' r hmem hr
    rcases hmem' _ hmem with hold | hnew
    · exact hgo.endsHeld j job' c' r hold hr
    · obtain ⟨rfl, rfl, rfl⟩ := by simpa using hnew
      rw [hshared]
      exact hs.held j job' p r hi (X.owns_of_ends hc hr)
  · intro j job' c' r hmem hr
    rcases hmem' _ hmem with hold | hnew
    · exact hgo.endsAlone j job' c' r hold hr
    · obtain ⟨-, -, rfl⟩ := by simpa using hnew
      have hp := X.owns_of_ends hc hr
      intro j' job'' q hj hq
      rw [hsites] at hj
      by_cases hji : j' = i
      · rw [hji, Function.update_self] at hj
        subst hj
        obtain ⟨-, -, hends⟩ := owns_lost hnext hq
        rw [hends _ hc] at hr
        cases hr
      · rw [Function.update_of_ne hji] at hj
        exact hji (hs.unique j' i job'' job q p r hj hi hq hp)
  · rw [hdet, List.pairwise_append]
    refine ⟨hs.endsOnce, List.pairwise_singleton .., fun x hx y hy r hr hr' => ?_⟩
    obtain rfl := List.mem_singleton.mp hy
    exact hs.endsAlone x.1 x.2.1 x.2.2 r hx hr i job p hi (X.owns_of_ends hc hr')

/-- INTERNAL: in a list of calls that end different resources, a call that is taken out
ends one that none of the rest ends. -/
theorem endsOnce_eraseIdx {l : List (ℕ × W.Job × W.Call)} {n : ℕ} {x y : ℕ × W.Job × W.Call}
    {r : R} (h : l.Pairwise fun x y => ∀ r, X.ends x.2.2 = some r → X.ends y.2.2 ≠ some r)
    (hx : l[n]? = some x) (hr : X.ends x.2.2 = some r) (hy : y ∈ l.eraseIdx n) :
    X.ends y.2.2 ≠ some r := by
  obtain ⟨m, hmn, hm⟩ := List.mem_eraseIdx_iff_getElem?.mp hy
  obtain ⟨hn', rfl⟩ := List.getElem?_eq_some_iff.mp hx
  obtain ⟨hm', rfl⟩ := List.getElem?_eq_some_iff.mp hm
  rw [List.pairwise_iff_getElem] at h
  rcases Nat.lt_or_gt_of_ne hmn with hlt | hgt
  · exact fun hy => h m n hm' hn' hlt r hy hr
  · exact h n m hn' hm' hgt r hr

/-- INTERNAL: a call under way takes effect. -/
theorem Inv.land (hs : X.Inv s) {n i : ℕ} {job : W.Job} {c : W.Call}
    (hn : s.detached[n]? = some (i, job, c))
    (hheld : ∀ j r, X.ends c ≠ some r → X.held j r s.shared → X.held j r s'.shared)
    (hsites : s'.sites = s.sites) (hdet : s'.detached = s.detached.eraseIdx n) : X.Inv s' := by
  have hmem : (i, job, c) ∈ s.detached := List.mem_of_getElem? hn
  constructor
  · rw [hsites]
    exact hs.unique
  · rw [hsites]
    intro j job' q r hj hq
    refine hheld j r (fun hr => ?_) (hs.held j job' q r hj hq)
    exact hs.endsAlone i job c r hmem hr j job' q hj hq
  · rw [hdet]
    intro j job' c' r hmem' hr
    refine hheld j r (fun hr' => ?_)
      (hs.endsHeld j job' c' r (List.mem_of_mem_eraseIdx hmem') hr)
    exact endsOnce_eraseIdx hs.endsOnce hn hr' hmem' hr
  · rw [hdet, hsites]
    exact fun j job' c' r hmem' => hs.endsAlone j job' c' r (List.mem_of_mem_eraseIdx hmem')
  · rw [hdet]
    exact hs.endsOnce.sublist (List.eraseIdx_sublist ..)

/-- INTERNAL: coming to a point ends no holding. -/
theorem held_reachPoint {i : ℕ} {job : W.Job} {p : M.Point} {sh : W.Shared} {j : ℕ} {r : R}
    (h : X.held j r sh) : X.held j r (reachPoint M i job p sh) := by
  unfold reachPoint
  split
  · exact X.held_reach h
  · exact h

/-- **Ownership stays exclusive in every step that grants only what is free, and in which
what is held is not lost on its own.** -/
theorem Inv.step {a : Action W} (h : Lib.step M s a = some s')
    (hsound : ∀ i ch job p c, a = .serve i ch → s.threads i = some ⟨job, .waiting p⟩ →
      M.head job p = some c → X.sound c s.shared)
    (hdrift : a.isDrift = true → ∀ j r, X.held j r s.shared → X.held j r s'.shared)
    (hs : X.Inv s) : X.Inv s' := by
  cases (step_cases h).move with
  | spawn i job ha hi hsites hshared hdet =>
    refine hs.same (fun j r hr => ?_) ?_ hdet
    · rw [hshared]
      exact held_reachPoint (X.held_enlist hr)
    · rw [hsites]
      refine forall_sites_update (fun j job' q hj => hj) (fun j job' q _ hj => .inr hj) ?_
      intro job' q hq
      obtain ⟨rfl, rfl⟩ := Prod.mk.inj (Option.some.inj hq)
      exact .inl (X.owns_start job)
  | reach i job p ha hi hsites hshared hdet =>
    refine hs.same (fun j r hr => ?_) (fun j job' q hj => .inr (hsites ▸ hj)) hdet
    rw [hshared]
    exact held_reachPoint hr
  | serve i ch job p c k ha hi hv hsites hshared hdet =>
    refine hs.goOn (sites_of_threads s i hi) (Machine.head_of_view hv) ?_ ?_ hsites hdet
    · intro j r hends hr
      rw [hshared]
      exact X.held_effect hends hr
    · intro job' p' r hn ho
      obtain ⟨rfl, rfl⟩ := Prod.mk.inj (Option.some.inj hn)
      rw [hshared]
      exact X.owns_answer hv (hsound i ch job p c ha hi (Machine.head_of_view hv)) ho
  | drop i job p next ha hi hnext hsites hshared hdet =>
    cases hc : M.head job p with
    | some c =>
      refine hs.goOn hi hc (fun j r _ hr => hshared ▸ hr) ?_ hsites hdet
      rintro job' p' r rfl ho
      obtain ⟨-, hp, hends⟩ := owns_lost hnext ho
      exact .inl ⟨hp, hends c hc⟩
    | none =>
      refine hs.same (fun j r hr => hshared ▸ hr) ?_ hdet
      rw [hsites]
      refine forall_sites_update (fun j job' q hj => hj) (fun j job' q _ hj => .inr hj) ?_
      rintro job' q rfl
      cases hnext with
      | failed hv hr =>
        rw [Machine.head_of_view hv] at hc
        cases hc
  | act i ch job p c next ha hi hc hlose hnext hsites hshared hdet =>
    refine hs.goOn (sites_of_threads s i hi) hc ?_ ?_ hsites hdet
    · intro j r hends hr
      rw [hshared]
      exact X.held_effect hends hr
    · rintro job' p' r rfl ho
      obtain ⟨-, hp, hends⟩ := owns_lost hnext ho
      exact .inl ⟨hp, hends c hc⟩
  | defer i job p c next ha hi hc hlose hnext hsites hshared hdet =>
    exact hs.defer (sites_of_threads s i hi) hc hnext hshared hsites hdet
  | land n ch i job c ha hn hsites hshared hdet =>
    refine hs.land hn (fun j r hends hr => ?_) hsites hdet
    rw [hshared]
    exact X.held_effect hends hr
  | drift e ha hsites hshared hdet =>
    subst ha
    exact hs.same (hdrift rfl) (fun j job' q hj => .inr (hsites ▸ hj)) hdet

/-- INTERNAL: without threads the invariant holds. -/
theorem Inv.fresh (sh : W.Shared) : X.Inv (fresh M sh) where
  unique i j job job' p q r hi := by cases hi
  held i job p r hi := by cases hi
  endsHeld i job c r hmem := by cases hmem
  endsAlone i job c r hmem := by cases hmem
  endsOnce := .nil

/-! ## One resource -/

section

variable (X)

open Classical in
/-- One resource among those that are owned exclusively: of the others nothing is said, so they
may be lost on their own. -/
noncomputable def only (r₀ : R) : Exclusive M R where
  owns job p := (X.owns job p).filter (· = r₀)
  ends c := (X.ends c).filter (· = r₀)
  held j r sh := r = r₀ → X.held j r sh
  sound := X.sound
  owns_of_ends hc hends := by
    obtain ⟨hends, hr⟩ := Option.filter_eq_some_iff.mp hends
    exact Option.filter_eq_some_iff.mpr ⟨X.owns_of_ends hc hends, hr⟩
  owns_start job := by rw [X.owns_start, Option.filter_none]
  owns_answer hv hsound ho := by
    obtain ⟨ho, hr⟩ := Option.filter_eq_some_iff.mp ho
    rcases X.owns_answer hv hsound ho with ⟨hp, hends⟩ | ⟨hfree, hheld⟩
    · exact .inl ⟨Option.filter_eq_some_iff.mpr ⟨hp, hr⟩, by rw [hends, Option.filter_none]⟩
    · exact .inr ⟨fun j hj => hfree j (hj (of_decide_eq_true hr)), fun _ => hheld⟩
  owns_failure hv hr ho := by
    obtain ⟨ho, hro⟩ := Option.filter_eq_some_iff.mp ho
    obtain ⟨hp, hends⟩ := X.owns_failure hv hr ho
    exact ⟨Option.filter_eq_some_iff.mpr ⟨hp, hro⟩, by rw [hends, Option.filter_none]⟩
  held_effect hends hheld hr := by
    refine X.held_effect (fun h => hends ?_) (hheld hr)
    exact Option.filter_eq_some_iff.mpr ⟨h, decide_eq_true hr⟩
  held_enlist hheld hr := X.held_enlist (hheld hr)
  held_reach hheld hr := X.held_reach (hheld hr)

/-- INTERNAL: the one resource is owned as before. -/
theorem only_owns {r₀ : R} {job : W.Job} {p : M.Point} :
    (X.only r₀).owns job p = some r₀ ↔ X.owns job p = some r₀ := by
  simp [only, Option.filter_eq_some_iff]

/-- INTERNAL: the one resource is ended as before. -/
theorem only_ends {r₀ : R} {c : W.Call} : (X.only r₀).ends c = some r₀ ↔ X.ends c = some r₀ := by
  simp [only, Option.filter_eq_some_iff]

end

/-- INTERNAL: where all resources have one owner at most, so has each of them. -/
theorem Inv.only (hs : X.Inv s) (r₀ : R) : (X.only r₀).Inv s := by
  have howns : ∀ {job p r}, (X.only r₀).owns job p = some r → X.owns job p = some r :=
    fun ho => (Option.filter_eq_some_iff.mp ho).1
  have hends : ∀ {c r}, (X.only r₀).ends c = some r → X.ends c = some r :=
    fun hr => (Option.filter_eq_some_iff.mp hr).1
  constructor
  · exact fun i j job job' p q r hi hj hp hq => hs.unique i j job job' p q r hi hj (howns hp) (howns hq)
  · exact fun i job p r hi hp _ => hs.held i job p r hi (howns hp)
  · exact fun i job c r hmem hr _ => hs.endsHeld i job c r hmem (hends hr)
  · exact fun i job c r hmem hr j job' q hj hq =>
      hs.endsAlone i job c r hmem (hends hr) j job' q hj (howns hq)
  · exact hs.endsOnce.imp fun h r hx hy => h r (hends hx) (hends hy)

end Exclusive

end EventBus.Lib
