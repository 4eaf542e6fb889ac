import EventBus.Interface.KvPoints
import EventBus.Lib.Exclusive
import EventBus.Lib.Local

/-!
# Mutual exclusion of the NATS KV claim

`try_claim` of the NATS KV store is two requests, and takes a `create` that did not
succeed for a sign that somebody has the key.  When the look at the key then finds no
entry, because the key was released in between or because the `create` was lost, it
answers `Claimed` without having created one.  Whoever creates the entry next is told the
same.

The counterexample needs no failure, only a release between the two requests.  The result
says exactly when the claim is exclusive and atomic: as long as every `get` that is
answered finds an entry of somebody else, and no `create` takes effect after its caller
has been told that the key is taken.
-/

set_option autoImplicit false

namespace EventBus.Analysis

open EventBus.Model EventBus.Lib EventBus.Interface

variable {U : Type} [UuidCrate U]

/-! ## The property -/

/-- The worker has been told `Claimed` and has not marked its key done or released it. -/
def Holds (s : State (kvWorld U) KvSeen) (i : ℕ) (key : MessageId U) : Prop :=
  ∃ c, s.sites i = some (key, ⟨some c, some (.ok .claimed)⟩)

/-- The worker has been told that its key is taken. -/
def ToldTaken (s : State (kvWorld U) KvSeen) (i : ℕ) (key : MessageId U) : Prop :=
  ∃ c outcome, s.sites i = some (key, ⟨c, some (.ok outcome)⟩) ∧ outcome ≠ .claimed

/-- The key has the pending entry of the worker. -/
def HasEntry (s : State (kvWorld U) KvSeen) (i : ℕ) (key : MessageId U) : Prop :=
  s.shared key.toString = some ⟨kvPending, some i⟩

/-- Claims are exclusive: a key has one holder at most, the holder has its entry stored,
and a worker that was told the key is taken has not inserted one. -/
structure KvExclusion (s : State (kvWorld U) KvSeen) : Prop where
  one : ∀ i j key, Holds s i key → Holds s j key → i = j
  own : ∀ i key, Holds s i key → HasEntry s i key
  taken : ∀ i key, ToldTaken s i key → ¬ HasEntry s i key

/-- A `try_claim` that is told its outcome in this step inserts the key if it is absent and
reports the existing state otherwise, in this step. -/
def KvAtomic (s : State (kvWorld U) KvSeen) (_ : Action (kvWorld U))
    (s' : State (kvWorld U) KvSeen) : Prop :=
  ∀ i key c c' outcome, s.sites i = some (key, ⟨c, none⟩) →
    s'.sites i = some (key, ⟨c', some outcome⟩) →
      ClaimStep (s.shared.status key.toString) outcome (s'.shared.status key.toString)

/-- Every `get` that is answered finds an entry of somebody else, and no `create` that is
still under way takes effect once its caller has been told that the key is taken. -/
def KvFaithful (s : State (kvWorld U) KvSeen) (a : Action (kvWorld U))
    (_ : State (kvWorld U) KvSeen) : Prop :=
  match a with
  | .serve i _ =>
    match s.threads i with
    | some ⟨_, .waiting ⟨some (.get name), _⟩⟩ =>
      ∃ entry, s.shared name = some entry ∧ entry ≠ ⟨kvPending, some i⟩
    | _ => True
  | .land n _ =>
    match s.detached[n]? with
    | some (i, key, .create name _) => s.shared name = none → ¬ ToldTaken s i key
    | _ => True
  | _ => True

/-! ## Claims as resources -/

/-- The name a claimant holds at a point. -/
def kvOwns (key : MessageId U) : KvPoint → Option String
  | .work | .put | .purge => some key.toString
  | _ => none

/-- The name whose claim a request ends. -/
def kvEnds : KvCall → Option String
  | .put name _ => some name
  | .purge name => some name
  | _ => none

/-- INTERNAL: a pending entry stays as long as nobody puts or purges its name. -/
theorem pending_effect {c : KvCall} {i : ℕ} {b : Bucket} {name : String} {entry : KvEntry}
    (hends : kvEnds c ≠ some name) (hentry : b name = some entry) :
    b.effect i c name = some entry := by
  cases c with
  | create key value =>
    simp only [Bucket.effect]
    cases hkey : b key with
    | none =>
      have hne : name ≠ key := by
        rintro rfl
        rw [hkey] at hentry
        cases hentry
      simp only [Function.update_of_ne hne, hentry]
    | some entry' => exact hentry
  | get key => exact hentry
  | put key value | purge key =>
    have hne : name ≠ key := fun h => hends (congrArg some h.symm)
    simp only [Bucket.effect, Function.update_of_ne hne, hentry]
  | work => exact hentry

/-- INTERNAL: a request of a claimant leaves a pending entry of worker `i` behind only if
the entry was there, or `i` has just created it. -/
theorem of_pending_effect {c : KvCall} {i j : ℕ} {b : Bucket} {key : MessageId U} {p : KvPoint}
    {name : String} (hc : (kvPointMachine U).head key p = some c)
    (hentry : b.effect j c name = some ⟨kvPending, some i⟩) :
    b name = some ⟨kvPending, some i⟩ ∨
      (j = i ∧ c = .create name kvPending ∧ b name = none) := by
  cases p with
  | create =>
    cases hc
    simp only [Bucket.effect] at hentry
    cases hkey : b key.toString with
    | some entry =>
      simp only [hkey] at hentry
      exact .inl hentry
    | none =>
      simp only [hkey] at hentry
      by_cases hne : name = key.toString
      · subst hne
        rw [Function.update_self] at hentry
        simp only [Option.some.injEq, KvEntry.mk.injEq] at hentry
        exact .inr ⟨hentry.2, rfl, hkey⟩
      · rw [Function.update_of_ne hne] at hentry
        exact .inl hentry
  | get | work =>
    cases hc
    exact .inl hentry
  | put =>
    cases hc
    simp only [Bucket.effect] at hentry
    by_cases hne : name = key.toString
    · subst hne
      rw [Function.update_self] at hentry
      simp only [Option.some.injEq, KvEntry.mk.injEq] at hentry
      exact absurd hentry.1.symm kvPending_ne_kvDone
    · rw [Function.update_of_ne hne] at hentry
      exact .inl hentry
  | purge =>
    cases hc
    simp only [Bucket.effect] at hentry
    by_cases hne : name = key.toString
    · subst hne
      rw [Function.update_self] at hentry
      cases hentry
    · rw [Function.update_of_ne hne] at hentry
      exact .inl hentry
  | returned outcome => cases hc

/-- A `get` that is answered finds an entry. -/
def kvSound (c : KvCall) (b : Bucket) : Prop :=
  match c with
  | .get name => b name ≠ none
  | _ => True

/-- Claims are resources that `put` and `purge` end, and are held by the entry of their
holder. -/
def kvClaims (U : Type) [UuidCrate U] : Exclusive (kvPointMachine U) String where
  owns := kvOwns
  ends := kvEnds
  held i name b := b name = some ⟨kvPending, some i⟩
  sound := kvSound
  owns_of_ends {key p c name} hc hends := by
    cases p <;> cases hc <;> cases hends <;> rfl
  owns_start _ := rfl
  owns_answer {i key p c k ch b name} hv hsound ho := by
    cases p with
    | create =>
      cases hv
      right
      simp only [Bucket.answer, Bucket.effect] at ho ⊢
      cases hkey : b key.toString with
      | some entry =>
        simp only [hkey] at ho
        cases ho
      | none =>
        simp only [hkey] at ho ⊢
        obtain rfl := Option.some.inj ho
        refine ⟨fun j hj => ?_, Function.update_self ..⟩
        rw [hkey] at hj
        cases hj
    | get =>
      cases hv
      simp only [Bucket.answer] at ho
      cases hkey : b key.toString with
      | none => exact absurd hkey hsound
      | some entry =>
        simp only [hkey, Option.map_some, KvPoint.afterGet] at ho
        split at ho <;> cases ho
    | work =>
      cases hv
      refine .inl ⟨?_, rfl⟩
      cases ch <;> exact ho
    | put => cases hv; cases ho
    | purge => cases hv; cases ho
    | returned outcome => cases hv
  owns_failure {key p c k e r name} hv hr ho := by
    cases p <;> cases hv <;> cases hr <;> cases ho
  held_effect hends hheld := pending_effect hends hheld
  held_enlist hheld := hheld
  held_reach hheld := hheld

/-! ## The invariant -/

section

variable {s s' : State (kvWorld U) KvPoint} {a : Action (kvWorld U)}

/-- A worker that was told its key is taken has not inserted an entry. -/
def TakenKept (s : State (kvWorld U) KvPoint) : Prop :=
  ∀ i key p outcome, s.sites i = some (key, p) → p.told = some (.ok outcome) →
    outcome ≠ .claimed → s.shared key.toString ≠ some ⟨kvPending, some i⟩

/-- What is known of the claimants: claims are exclusive, calls under way were made by
claimants, and who was told its key is taken has no entry. -/
structure KvInv (s : State (kvWorld U) KvPoint) : Prop where
  exclusive : (kvClaims U).Inv s
  made : Made (M := kvPointMachine U) s
  taken : TakenKept s

/-- INTERNAL: a claimant that gets no answer is not told that its key is taken. -/
theorem not_taken_of_lost {key key' : MessageId U} {p p' : KvPoint} {outcome : ClaimOutcome}
    (hnext : Lost (kvPointMachine U) key p (some (key', p'))) :
    p'.told = some (.ok outcome) → outcome = .claimed := by
  intro htold
  cases hnext with
  | failed hv hr => cases p <;> cases hv <;> cases hr <;> cases htold <;> rfl

/-- INTERNAL: a claimant whose call takes effect without its answer is told nothing, so no
entry of a worker that was told its key is taken appears. -/
theorem TakenKept.act (ht : TakenKept s) {i : ℕ} {key : MessageId U} {p : KvPoint} {c : KvCall}
    {next : Option (MessageId U × KvPoint)} (hc : (kvPointMachine U).head key p = some c)
    (hnext : ∀ key' p' outcome, next = some (key', p') → p'.told = some (.ok outcome) →
      outcome ≠ .claimed → s'.shared key'.toString ≠ some ⟨kvPending, some i⟩)
    (hsites : s'.sites = Function.update s.sites i next)
    (hshared : s'.shared = s.shared.effect i c) : TakenKept s' := by
  intro j key' p' outcome hj htold hne hentry
  by_cases hji : j = i
  · subst hji
    rw [hsites, Function.update_self] at hj
    exact hnext key' p' outcome hj htold hne hentry
  · rw [hsites, Function.update_of_ne hji] at hj
    rw [hshared] at hentry
    rcases of_pending_effect hc hentry with hold | ⟨hij, -⟩
    · exact ht j key' p' outcome hj htold hne hold
    · exact hji hij.symm

/-- INTERNAL: where the bucket does not change, only the worker that moves matters. -/
theorem TakenKept.same (ht : TakenKept s)
    (hsites : ∀ j key p outcome, s'.sites j = some (key, p) → p.told = some (.ok outcome) →
      outcome ≠ .claimed → s.sites j = some (key, p)) (hshared : s'.shared = s.shared) :
    TakenKept s' := by
  intro j key p outcome hj htold hne
  rw [hshared]
  exact ht j key p outcome (hsites j key p outcome hj htold hne) htold hne

/-- INTERNAL: a worker that moves and is not told that its key is taken breaks nothing. -/
theorem TakenKept.moved (ht : TakenKept s) {i : ℕ} {next : Option (MessageId U × KvPoint)}
    (hnext : ∀ key p outcome, next = some (key, p) → p.told = some (.ok outcome) →
      outcome = .claimed)
    (hsites : s'.sites = Function.update s.sites i next) (hshared : s'.shared = s.shared) :
    TakenKept s' := by
  refine ht.same ?_ hshared
  rw [hsites]
  intro j key p outcome hj htold hne
  by_cases hji : j = i
  · subst hji
    rw [Function.update_self] at hj
    exact absurd (hnext key p outcome hj htold) hne
  · rwa [Function.update_of_ne hji] at hj

/-- INTERNAL: a `get` that finds an entry of somebody else tells the truth. -/
theorem TakenKept.serve (ht : TakenKept s) {i : ℕ} {ch : Bool} {key : MessageId U} {p : KvPoint}
    {c : KvCall} {k : c.Resp → KvPoint} (hi : s.sites i = some (key, p))
    (hv : KvPoint.view key p = some ⟨c, k⟩)
    (hget : ∀ name, c = .get name → s.shared name ≠ some ⟨kvPending, some i⟩)
    (hsites : s'.sites = Function.update s.sites i (some (key, k (Bucket.answer c ch s.shared))))
    (hshared : s'.shared = s.shared.effect i c) : TakenKept s' := by
  refine ht.act (Machine.head_of_view (M := kvPointMachine U) hv) ?_ hsites hshared
  intro key' p' outcome hp' htold hne
  obtain ⟨rfl, rfl⟩ := Prod.mk.inj (Option.some.inj hp')
  cases p with
  | get =>
    cases hv
    rw [hshared]
    exact hget _ rfl
  | create =>
    cases hv
    simp only [Bucket.answer] at htold
    cases hkey : s.shared key.toString with
    | none =>
      simp only [hkey] at htold
      cases htold
      exact absurd rfl hne
    | some entry =>
      simp only [hkey] at htold
      cases htold
  | work =>
    cases hv
    cases ch
    · cases htold
      exact absurd rfl hne
    · cases htold
      exact absurd rfl hne
  | put | purge =>
    cases hv
    cases htold
    exact absurd rfl hne
  | returned outcome' => cases hv

/-- INTERNAL: what is told is not seen to change when a worker comes to a point. -/
theorem watch_waiting {i : ℕ} {key : MessageId U} {p : KvPoint} {c : KvCall}
    (hi : s.threads i = some ⟨key, .waiting p⟩) (hc : (kvPointMachine U).head key p = some c) :
    (watchPoints s).threads i = some ⟨key, .waiting ⟨some c, p.told⟩⟩ := by
  rw [watchPoints, map_threads, hi, ← hc]
  rfl

/-- INTERNAL: who has been told that its key is taken can be seen. -/
theorem toldTaken_watch {i : ℕ} {key : MessageId U} :
    ToldTaken (watchPoints s) i key ↔ ∃ p outcome, s.sites i = some (key, p) ∧
      p.told = some (.ok outcome) ∧ outcome ≠ .claimed := by
  simp only [ToldTaken, watchPoints, sites_map, Option.map_eq_some_iff]
  constructor
  · rintro ⟨c, outcome, ⟨⟨key', p⟩, hi, heq⟩, hne⟩
    obtain ⟨rfl, hseen⟩ := Prod.mk.inj heq
    exact ⟨p, outcome, hi, (KvSeen.mk.inj hseen).2, hne⟩
  · rintro ⟨p, outcome, hi, htold, hne⟩
    exact ⟨_, outcome, ⟨⟨key, p⟩, hi, by rw [htold]⟩, hne⟩

/-- INTERNAL: who holds its key can be seen. -/
theorem holds_watch {i : ℕ} {key : MessageId U} :
    Holds (watchPoints s) i key ↔ ∃ p, s.sites i = some (key, p) ∧
      kvOwns key p = some key.toString := by
  simp only [Holds, watchPoints, sites_map, Option.map_eq_some_iff]
  constructor
  · rintro ⟨c, ⟨key', p⟩, hi, heq⟩
    obtain ⟨rfl, hseen⟩ := Prod.mk.inj heq
    obtain ⟨hc, htold⟩ := KvSeen.mk.inj hseen
    refine ⟨p, hi, ?_⟩
    cases p with
    | work | put | purge => rfl
    | create | get => cases htold
    | returned outcome => cases hc
  · rintro ⟨p, hi, ho⟩
    cases p with
    | work | put | purge => exact ⟨_, ⟨key, _⟩, hi, rfl⟩
    | create | get | returned => cases ho

/-- **A faithful step keeps the invariant.** -/
theorem KvInv.step (h : Lib.step (kvPointMachine U) s a = some s')
    (hfaithful : KvFaithful (watchPoints s) a (watchPoints s')) (hs : KvInv s) : KvInv s' := by
  have hget : ∀ i ch key p c, a = .serve i ch → s.threads i = some ⟨key, .waiting p⟩ →
      (kvPointMachine U).head key p = some c → ∀ name, c = .get name →
        ∃ entry, s.shared name = some entry ∧ entry ≠ ⟨kvPending, some i⟩ := by
    rintro i ch key p c rfl hi hc name rfl
    simp only [KvFaithful, watch_waiting hi hc] at hfaithful
    exact hfaithful
  refine ⟨hs.exclusive.step h ?_ ?_, hs.made.step h, ?_⟩
  · intro i ch key p c ha hi hc
    cases c with
    | get name =>
      obtain ⟨entry, hentry, -⟩ := hget i ch key p _ ha hi hc name rfl
      simp only [kvClaims, kvSound, hentry]
      exact Option.some_ne_none entry
    | _ => trivial
  · intro hdrift
    cases a with
    | drift e => exact e.elim
    | _ => cases hdrift
  · cases (step_cases h).move with
    | spawn i key ha hi hsites hshared hdet =>
      apply hs.taken.moved _ hsites hshared
      rintro key' p' outcome hnext htold
      obtain ⟨rfl, rfl⟩ := Prod.mk.inj (Option.some.inj hnext)
      cases htold
    | reach i key p ha hi hsites hshared hdet =>
      refine hs.taken.same (fun j key' p' outcome hj _ _ => hsites ▸ hj) ?_
      rw [hshared]
      cases p <;> rfl
    | serve i ch key p c k ha hi hv hsites hshared hdet =>
      refine hs.taken.serve (sites_of_threads s i hi) hv
        (fun name hname hentry => ?_) hsites hshared
      obtain ⟨entry, hentry', hne⟩ := hget i ch key p c ha hi (Machine.head_of_view hv) name hname
      exact hne (Option.some.inj (hentry'.symm.trans hentry))
    | drop i key p next ha hi hnext hsites hshared hdet =>
      apply hs.taken.moved _ hsites hshared
      rintro key' p' outcome rfl
      exact not_taken_of_lost hnext
    | act i ch key p c next ha hi hc hlose hnext hsites hshared hdet =>
      refine hs.taken.act hc ?_ hsites hshared
      rintro key' p' outcome rfl htold hne
      exact absurd (not_taken_of_lost hnext htold) hne
    | defer i key p c next ha hi hc hlose hnext hsites hshared hdet =>
      apply hs.taken.moved _ hsites hshared
      rintro key' p' outcome rfl
      exact not_taken_of_lost hnext
    | land n ch i key c ha hn hsites hshared hdet =>
      obtain ⟨p, hc⟩ := hs.made i key c (List.mem_of_getElem? hn)
      intro j key' p' outcome hj htold hne hentry
      rw [hsites] at hj
      rw [hshared] at hentry
      rcases of_pending_effect hc hentry with hold | ⟨rfl, rfl, hnone⟩
      · exact hs.taken j key' p' outcome hj htold hne hold
      · have hkey : key'.toString = key.toString := by
          cases p with
          | create => exact (KvCall.create.inj (Option.some.inj hc)).1.symm
          | _ => cases hc
        obtain rfl := MessageId.toString_injective hkey
        subst ha
        simp only [KvFaithful, watchPoints, map_detached, hn] at hfaithful
        exact hfaithful hnone (toldTaken_watch.mpr ⟨p', outcome, hj, htold, hne⟩)
    | drift e _ _ _ _ => exact e.elim

/-- INTERNAL: the invariant is the property, seen from the points. -/
theorem KvInv.exclusion (hs : KvInv s) : KvExclusion (watchPoints s) := by
  constructor
  · intro i j key hi hj
    obtain ⟨p, hi, hp⟩ := holds_watch.mp hi
    obtain ⟨q, hj, hq⟩ := holds_watch.mp hj
    exact hs.exclusive.unique i j key key p q key.toString hi hj hp hq
  · intro i key hi
    obtain ⟨p, hi, hp⟩ := holds_watch.mp hi
    exact hs.exclusive.held i key p key.toString hi hp
  · intro i key hi
    obtain ⟨p, outcome, hi, htold, hne⟩ := toldTaken_watch.mp hi
    exact hs.taken i key p outcome hi htold hne

/-- **A step to a state with exclusive claims is faithful.** -/
theorem KvInv.faithful (hs : KvInv s) (h : Lib.step (kvPointMachine U) s a = some s')
    (hq : KvExclusion (watchPoints s')) : KvFaithful (watchPoints s) a (watchPoints s') := by
  cases (step_cases h).move with
  | serve i ch key p c k ha hi hv hsites hshared hdet =>
    subst ha
    have hc : (kvPointMachine U).head key p = some c := Machine.head_of_view hv
    simp only [KvFaithful, watch_waiting hi hc]
    cases p with
    | get =>
      cases hv
      have hsite : s'.sites i = some (key, KvPoint.afterGet
          (.ok ((s.shared key.toString).map KvEntry.value))) := by
        rw [hsites, Function.update_self]
        rfl
      have hsame : s'.shared = s.shared := hshared
      change ∃ entry, s.shared key.toString = some entry ∧ entry ≠ ⟨kvPending, some i⟩
      cases hentry : s.shared key.toString with
      | none =>
        -- the worker holds a claim without an entry
        rw [hentry] at hsite
        have hown := hq.own i key (holds_watch.mpr ⟨.work, hsite, rfl⟩)
        rw [HasEntry, watchPoints, map_shared, hsame, hentry] at hown
        cases hown
      | some entry =>
        refine ⟨entry, rfl, ?_⟩
        rintro rfl
        -- the worker takes its own entry for somebody else's
        rw [hentry] at hsite
        refine hq.taken i key (toldTaken_watch.mpr ⟨_, .alreadyPending, hsite, ?_, by simp⟩) ?_
        · simp only [Option.map_some, KvPoint.afterGet, if_neg kvPending_ne_kvDone]
          rfl
        · rw [HasEntry, watchPoints, map_shared, hsame, hentry]
    | _ => cases hv <;> trivial
  | land n ch i key c ha hn hsites hshared hdet =>
    subst ha
    obtain ⟨p, hc⟩ := hs.made i key c (List.mem_of_getElem? hn)
    simp only [KvFaithful, watchPoints, map_detached, hn]
    cases p with
    | create =>
      cases hc
      intro hnone htaken
      obtain ⟨p, outcome, hi, htold, hne⟩ := toldTaken_watch.mp htaken
      refine hq.taken i key (toldTaken_watch.mpr ⟨p, outcome, hsites ▸ hi, htold, hne⟩) ?_
      have hnone : s.shared key.toString = none := hnone
      rw [HasEntry, watchPoints, map_shared, hshared]
      simp only [Bucket.effect, hnone, Function.update_self]
    | _ => cases hc <;> trivial
  | drift e _ _ _ _ => exact e.elim
  | spawn i key ha => subst ha; trivial
  | reach i key p ha => subst ha; trivial
  | drop i key p next ha =>
    rcases ha with ⟨-, ⟨ch, err, rfl⟩ | ⟨ch, rfl, -⟩⟩ | ⟨-, fate, ch, rfl, -⟩ <;> trivial
  | act i ch key p c next ha => rcases ha with ⟨err, rfl⟩ | ⟨rfl, -⟩ <;> trivial
  | defer i key p c next ha => rcases ha with ⟨ch, err, rfl⟩ | ⟨ch, rfl, -⟩ <;> trivial

/-! ## Atomicity -/

/-- INTERNAL: a worker that is told its outcome by an answer is told it by an atomic step,
unless its `get` has found nothing. -/
theorem claimStep_of_answer {i : ℕ} {ch : Bool} {key : MessageId U} {p : KvPoint} {c : KvCall}
    {k : c.Resp → KvPoint} {b : Bucket} {outcome : Except BusError ClaimOutcome}
    (hv : KvPoint.view key p = some ⟨c, k⟩) (hp : p.told = none)
    (hget : ∀ name, c = .get name → b name ≠ none)
    (htold : (k (Bucket.answer c ch b)).told = some outcome) :
    ClaimStep (b.status key.toString) outcome ((b.effect i c).status key.toString) := by
  cases p with
  | create =>
    cases hv
    simp only [Bucket.answer, Bucket.effect, Bucket.status] at htold ⊢
    cases hkey : b key.toString with
    | some entry =>
      simp only [hkey] at htold
      cases htold
    | none =>
      simp only [hkey] at htold ⊢
      obtain rfl := Option.some.inj htold
      rw [Function.update_self]
      simp only [if_neg kvPending_ne_kvDone]
      exact .claimed
  | get =>
    cases hv
    simp only [Bucket.answer, Bucket.effect, Bucket.status] at htold ⊢
    cases hkey : b key.toString with
    | none => exact absurd hkey (hget _ rfl)
    | some entry =>
      simp only [hkey, Option.map_some, KvPoint.afterGet] at htold ⊢
      by_cases hdone : entry.value = kvDone
      · rw [if_pos hdone] at htold ⊢
        obtain rfl := Option.some.inj htold
        exact .alreadyDone
      · rw [if_neg hdone] at htold ⊢
        obtain rfl := Option.some.inj htold
        exact .alreadyPending
  | work | put | purge | returned => cases hp

/-- INTERNAL: a worker that is told its outcome without an answer is told of an error, and
was only looking. -/
theorem error_of_lost {key key' : MessageId U} {p p' : KvPoint}
    {outcome : Except BusError ClaimOutcome}
    (hnext : Lost (kvPointMachine U) key p (some (key', p')))
    (hp : p.told = none) (htold : p'.told = some outcome) :
    p = .get ∧ ∃ e, outcome = .error e := by
  cases hnext with
  | @failed c k r err hv hr =>
    cases p with
    | create =>
      cases hv
      cases hr
      cases htold
    | get =>
      cases hv
      cases hr
      exact ⟨rfl, _, (Option.some.inj htold).symm⟩
    | work | put | purge | returned => cases hp

/-- **In a faithful step every `try_claim` that is told its outcome is atomic.** -/
theorem kvAtomic_step (h : Lib.step (kvPointMachine U) s a = some s')
    (hfaithful : KvFaithful (watchPoints s) a (watchPoints s')) :
    KvAtomic (watchPoints s) a (watchPoints s') := by
  intro j key c₀ c₁ outcome hj hj'
  simp only [watchPoints, sites_map, Option.map_eq_some_iff] at hj hj'
  obtain ⟨⟨key₀, p⟩, hj, heq⟩ := hj
  obtain ⟨⟨key₁, p'⟩, hj', heq'⟩ := hj'
  obtain ⟨rfl, hseen⟩ := Prod.mk.inj heq
  obtain ⟨hkey, hseen'⟩ := Prod.mk.inj heq'
  have hp : p.told = none := (KvSeen.mk.inj hseen).2
  have htold : p'.told = some outcome := (KvSeen.mk.inj hseen').2
  have hkey : key₁ = key₀ := hkey
  -- only the worker that moves can be told anything
  have hmoves : s'.sites j ≠ s.sites j := by
    intro hsame
    rw [hj, hj'] at hsame
    obtain ⟨-, rfl⟩ := Prod.mk.inj (Option.some.inj hsame)
    rw [hp] at htold
    cases htold
  have hlost : ∀ {i : ℕ} {k : MessageId U} {q : KvPoint} {next : Option (MessageId U × KvPoint)},
      s.sites i = some (k, q) → Lost (kvPointMachine U) k q next →
      s'.sites = Function.update s.sites i next →
      ((kvPointMachine U).head key₀ .get = (kvPointMachine U).head k q →
        s'.shared = s.shared) →
      ClaimStep (s.shared.status key₀.toString) outcome (s'.shared.status key₀.toString) := by
    intro i k q next hi hnext hsites hshared
    have hji : j = i := by
      by_contra hji
      exact hmoves (by rw [hsites, Function.update_of_ne hji])
    subst hji
    obtain ⟨rfl, rfl⟩ := Prod.mk.inj (Option.some.inj (hj.symm.trans hi))
    rw [hsites, Function.update_self] at hj'
    subst hj'
    obtain ⟨rfl, e, rfl⟩ := error_of_lost hnext hp htold
    change ClaimStep (s.shared.status key₀.toString) _ (s'.shared.status key₀.toString)
    rw [hshared rfl]
    exact .failed _ e
  change ClaimStep (s.shared.status key₀.toString) outcome (s'.shared.status key₀.toString)
  cases (step_cases h).move with
  | spawn i k ha hi hsites hshared hdet =>
    by_cases hji : j = i
    · subst hji
      rw [sites_none s j hi] at hj
      cases hj
    · exact absurd (by rw [hsites, Function.update_of_ne hji]) hmoves
  | reach i k q ha hi hsites hshared hdet => exact absurd (by rw [hsites]) hmoves
  | serve i ch k q c f ha hi hv hsites hshared hdet =>
    have hji : j = i := by
      by_contra hji
      exact hmoves (by rw [hsites, Function.update_of_ne hji])
    subst hji
    have hsite := sites_of_threads s j hi
    obtain ⟨rfl, rfl⟩ := Prod.mk.inj (Option.some.inj (hj.symm.trans hsite))
    rw [hsites, Function.update_self] at hj'
    obtain ⟨-, rfl⟩ := Prod.mk.inj (Option.some.inj hj')
    rw [hshared]
    refine claimStep_of_answer hv hp ?_ htold
    rintro name rfl hnone
    subst ha
    simp only [KvFaithful, watch_waiting hi (Machine.head_of_view hv)] at hfaithful
    obtain ⟨entry, hentry, -⟩ := hfaithful
    exact absurd (hentry.symm.trans hnone) (by simp)
  | drop i k q next ha hi hnext hsites hshared hdet =>
    exact hlost hi hnext hsites fun _ => hshared
  | act i ch k q c next ha hi hc hlose hnext hsites hshared hdet =>
    refine hlost (sites_of_threads s i hi) hnext hsites fun hget => ?_
    obtain rfl := Option.some.inj (hget.trans hc)
    exact hshared
  | defer i k q c next ha hi hc hlose hnext hsites hshared hdet =>
    exact hlost (sites_of_threads s i hi) hnext hsites fun _ => hshared
  | land n ch i k c ha hn hsites hshared hdet => exact absurd (by rw [hsites]) hmoves
  | drift e _ _ _ _ => exact e.elim

end

/-! ## The result -/

/-- **The NATS KV claim is exclusive and atomic exactly as long as its looks are
faithful.**  Take any bucket and any run of claimants, with any request failing, lost or
taking effect late.  In every state a key has one holder at most, every holder has its
pending entry stored and nobody has an entry who was told the key is taken, and every
`try_claim` that returns an outcome inserts the key if it is absent and reports its state
otherwise, at one instant, if and only if every `get` that is answered finds an entry of
somebody else and no `create` still under way takes effect once its caller has been told
that the key is taken.
SRC: nats_kv.rs:70-106 -/
theorem kv_exclusion_iff (values : String → Option Bytes) (as : List (Action (kvWorld U))) :
    (Always (step (kvMachine U)) (fun s => KvExclusion (watch s))
        (fresh (kvMachine U) (.holding values)) as ∧
      Along (step (kvMachine U)) (fun s a s' => KvAtomic (watch s) a (watch s'))
        (fresh (kvMachine U) (.holding values)) as) ↔
      Along (step (kvMachine U)) (fun s a s' => KvFaithful (watch s) a (watch s'))
        (fresh (kvMachine U) (.holding values)) as := by
  rw [always_watch, along_watch, along_watch]
  have hstart : KvInv (fresh (kvPointMachine U) (.holding values)) := by
    refine ⟨.fresh _, fun i key c hmem => ?_, fun i key p outcome hi => ?_⟩
    · cases hmem
    · cases hi
  have hexact : Always (step (kvPointMachine U)) (fun s => KvExclusion (watchPoints s))
        (fresh (kvPointMachine U) (.holding values)) as ↔
      Along (step (kvPointMachine U))
        (fun s a s' => KvFaithful (watchPoints s) a (watchPoints s'))
        (fresh (kvPointMachine U) (.holding values)) as :=
    always_iff_of_invariant (I := KvInv) (A := fun _ _ _ => True)
      (fun s a s' h _ hC hs => hs.step h hC) (fun s hs => hs.exclusion)
      (fun s a s' h _ hs hq => hs.faithful h hq) hstart (Along.of_forall (fun _ _ _ _ => trivial) _)
  rw [hexact]
  exact ⟨fun h => h.1, fun h => ⟨h, h.mono fun s a s' hs hC => kvAtomic_step hs hC⟩⟩

/-- A key. -/
def kvKey : MessageId HyphenatedUuid := ⟨⟨"6ba7b810-9dad-11d1-80b4-00c04fd430c8", by decide⟩⟩

/-- Worker 0 claims the key and releases it between the two requests of worker 1; then
worker 2 claims it. -/
def releasedBetweenRun : List (Action (kvWorld HyphenatedUuid)) :=
  [.spawn 0 kvKey, .serve 0 true, .resume 0, .spawn 1 kvKey, .serve 1 true, .resume 1,
    .serve 0 false, .resume 0, .serve 0 true, .resume 0, .serve 1 true, .resume 1,
    .spawn 2 kvKey, .serve 2 true, .resume 2]

/-- **The claim is not exclusive.**  At the end of the run, in which no request fails,
workers 1 and 2 both hold the key. -/
theorem two_holders :
    ¬ (Always (step (kvMachine HyphenatedUuid)) (fun s => KvExclusion (watch s))
        (fresh (kvMachine HyphenatedUuid) (.holding fun _ => none)) releasedBetweenRun ∧
      Along (step (kvMachine HyphenatedUuid)) (fun s a s' => KvAtomic (watch s) a (watch s'))
        (fresh (kvMachine HyphenatedUuid) (.holding fun _ => none)) releasedBetweenRun) := by
  rintro ⟨h, -⟩
  have hlast : ((run (step (kvMachine HyphenatedUuid))
      (fresh (kvMachine HyphenatedUuid) (.holding fun _ => none)) releasedBetweenRun).any fun s =>
        [1, 2].all fun i => ((watch s).sites i).any fun x => decide (x.1 = kvKey) &&
          decide (x.2.next = some .work) &&
          decide (x.2.told.bind Except.toOption = some .claimed)) = true := by
    decide +kernel
  obtain ⟨s, hrun, hs⟩ := (Option.any_eq_true _ _).mp hlast
  have hholds : ∀ i ∈ [1, 2], Holds (watch s) i kvKey := by
    intro i hi
    obtain ⟨⟨key, next, told⟩, hsite, hx⟩ :=
      (Option.any_eq_true _ _).mp (List.all_eq_true.mp hs i hi)
    simp only [Bool.and_eq_true, decide_eq_true_eq] at hx
    obtain ⟨⟨rfl, rfl⟩, htold⟩ := hx
    obtain ⟨outcome, rfl, hout⟩ := Option.bind_eq_some_iff.mp htold
    cases outcome with
    | error e => cases hout
    | ok outcome =>
      obtain rfl := Option.some.inj hout
      exact ⟨.work, hsite⟩
  exact absurd ((h.last hrun).one 1 2 kvKey (hholds 1 (by simp)) (hholds 2 (by simp))) (by decide)

end EventBus.Analysis
