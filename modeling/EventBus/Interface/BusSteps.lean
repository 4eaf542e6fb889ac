import EventBus.Interface.LoopSteps
import EventBus.Lib.Lifetimes
import EventBus.Model.RunningBus

/-!
# The steps of a bus

What a step of `EventBus.Model.RunningBus` can be, and the tie between the two books that are
kept of the workers: the tasks have a list of those that run, and the threads say which of them
live.  `Tied` says that who lives is on the list and that who is off it is over; it is what
turns results about the tasks into results about the workers.
-/

set_option autoImplicit false

namespace EventBus.Interface

open EventBus.Model EventBus.Lib
open Function (update)

variable {U E : Type} {Γ : Deployment U E} [DecidableEq Γ.Sub]
  {number : Γ.Sub × ℕ ↪ ℕ} {M : Machine (world Γ)}

/-- The steps of a bus, a rule for each action. -/
inductive BusStep (number : Γ.Sub × ℕ ↪ ℕ) (M : Machine (world Γ)) (x : BusState Γ M.Point) :
    BusAction Γ → BusState Γ M.Point → Prop where
  | task {sub : Γ.Sub} {a : LoopAction} {l : LoopState} (ha : a.ofWorker = false)
      (hl : (x.1 sub).step a = some l) :
      BusStep number M x (.task sub a) (update x.1 sub l, x.2)
  | spawn {sub : Γ.Sub} {n : ℕ} {msg : Message} {l : LoopState} {t : State (world Γ) M.Point}
      (hn : (x.1 sub).point.dispatches = some n) (hl : (x.1 sub).step .spawn = some l)
      (ht : Lib.step M x.2 (.spawn (number (sub, n)) ⟨sub, msg⟩) = some t) :
      BusStep number M x (.spawn sub n msg) (update x.1 sub l, t)
  | returned {sub : Γ.Sub} {n : ℕ} {l : LoopState}
      (hended : (look M x.2).ended (number (sub, n)) = true)
      (hl : (x.1 sub).step (.finish n .returned) = some l) :
      BusStep number M x (.returned sub n) (update x.1 sub l, x.2)
  | panicked {sub : Γ.Sub} {n : ℕ} {ch : Choice Γ} {d : Delivery Γ} {c : Call U E}
      {l : LoopState} {t : State (world Γ) M.Point}
      (hawaits : (look M x.2).awaits (number (sub, n)) = some (d, c)) (hc : c.isHandle = true)
      (hl : (x.1 sub).step (.finish n .panicked) = some l)
      (ht : Lib.step M x.2 (.abort (number (sub, n)) .dropped ch) = some t) :
      BusStep number M x (.panicked sub n ch) (update x.1 sub l, t)
  | cancelled {sub : Γ.Sub} {n : ℕ} {fate : Fate} {ch : Choice Γ} {l : LoopState}
      {t : State (world Γ) M.Point} (hl : (x.1 sub).step (.finish n .cancelled) = some l)
      (ht : Lib.step M x.2 (.abort (number (sub, n)) fate ch) = some t) :
      BusStep number M x (.cancelled sub n fate ch) (update x.1 sub l, t)
  | work {a : Action (world Γ)} {t : State (world Γ) M.Point} (ha : BusAction.isWork a = true)
      (ht : Lib.step M x.2 a = some t) :
      BusStep number M x (.work a) (x.1, t)

/-- **A step is one of these.** -/
theorem busStep_cases {x x' : BusState Γ M.Point} {g : BusAction Γ}
    (h : busStep number M x g = some x') : BusStep number M x g x' := by
  obtain ⟨tasks', workers'⟩ := x'
  obtain ⟨hmay, hleft, hright⟩ := Coupling.step_eq_some.mp h
  cases g with
  | task sub a =>
    obtain ⟨l, hl, rfl⟩ := each_eq_some.mp hleft
    obtain rfl := Option.some.inj hright
    exact .task (by simpa [supervision] using hmay) hl
  | spawn sub n msg =>
    obtain ⟨l, hl, rfl⟩ := each_eq_some.mp hleft
    exact .spawn (of_decide_eq_true hmay) hl hright
  | returned sub n =>
    obtain ⟨l, hl, rfl⟩ := each_eq_some.mp hleft
    obtain rfl := Option.some.inj hright
    exact .returned hmay hl
  | panicked sub n ch =>
    obtain ⟨l, hl, rfl⟩ := each_eq_some.mp hleft
    obtain ⟨⟨d, c⟩, hawaits, hc⟩ := Option.any_eq_true _ _ |>.mp hmay
    exact .panicked hawaits hc hl hright
  | cancelled sub n fate ch =>
    obtain ⟨l, hl, rfl⟩ := each_eq_some.mp hleft
    exact .cancelled hl hright
  | work a =>
    obtain rfl := Option.some.inj hleft
    exact .work hmay hright

/-- INTERNAL: a step of the bus leaves the threads as they are or is a step of theirs, and only
the start of a worker starts one. -/
theorem threads_of_busStep {x x' : BusState Γ M.Point} {g : BusAction Γ}
    (h : busStep number M x g = some x') :
    x'.2 = x.2 ∨ ∃ a, Lib.step M x.2 a = some x'.2 ∧
      ∀ i d, a = .spawn i d → ∃ n, g = .spawn d.sub n d.msg := by
  cases busStep_cases h with
  | task ha hl => exact .inl rfl
  | returned hended hl => exact .inl rfl
  | @spawn sub n msg l t hn hl ht =>
    refine .inr ⟨_, ht, fun i d heq => ⟨n, ?_⟩⟩
    obtain ⟨-, rfl⟩ := Action.spawn.inj heq
    rfl
  | panicked hawaits hc hl ht => exact .inr ⟨_, ht, nofun⟩
  | cancelled hl ht => exact .inr ⟨_, ht, nofun⟩
  | @work a t ha ht =>
    refine .inr ⟨a, ht, ?_⟩
    rintro i d rfl
    cases ha

/-- Thread `i` is a worker of the subscription, and lives. -/
def WorksFor (s : State (world Γ) (Option (Call U E))) (sub : Γ.Sub) (i : ℕ) : Prop :=
  s.live i = true ∧ ∃ th, s.threads i = some th ∧ th.job.sub = sub

/-- The bus as an observer sees it. -/
def busLook (M : Machine (world Γ)) (x : BusState Γ M.Point) :
    BusState Γ (Option (Call U E)) :=
  (x.1, look M x.2)

/-- **A bus over one machine is a bus over the other**, if they make the same calls. -/
theorem busStep_hom {N : Machine (world Γ)} (h : Hom M N) (x : BusState Γ M.Point)
    (g : BusAction Γ) :
    busStep number N (x.1, x.2.map h.map) g =
      (busStep number M x g).map fun x => (x.1, x.2.map h.map) := by
  refine Coupling.step_map (step_hom h) ?_ rfl rfl x g
  intro tasks workers g
  cases g <;> simp only [supervision, look_hom]

/-- INTERNAL: whatever can be seen of every state of a bus can be proved on a machine that
makes the same calls. -/
theorem always_busLook_hom {N : Machine (world Γ)} (h : Hom M N)
    {Q : BusState Γ (Option (Call U E)) → Prop} (tasks : Γ.Sub → LoopState) (sh : Shared Γ)
    (gs : List (BusAction Γ)) :
    Always (busStep number N) (fun x => Q (busLook N x)) (tasks, fresh N sh) gs ↔
      Always (busStep number M) (fun x => Q (busLook M x)) (tasks, fresh M sh) gs := by
  have key : Always (busStep number N) (fun x => Q (busLook N x))
      (tasks, (fresh M sh).map h.map) gs ↔
      Always (busStep number M) (fun x => Q (busLook N (x.1, x.2.map h.map)))
        (tasks, fresh M sh) gs :=
    always_map (f := fun x : BusState Γ M.Point => (x.1, x.2.map h.map)) (busStep_hom h)
      (tasks, fresh M sh) gs
  simpa only [busLook, look_hom, map_fresh] using key

/-- INTERNAL: the same for what can be seen of some state. -/
theorem sometime_busLook_hom {N : Machine (world Γ)} (h : Hom M N)
    {Q : BusState Γ (Option (Call U E)) → Prop} (tasks : Γ.Sub → LoopState) (sh : Shared Γ)
    (gs : List (BusAction Γ)) :
    Sometime (busStep number N) (fun x => Q (busLook N x)) (tasks, fresh N sh) gs ↔
      Sometime (busStep number M) (fun x => Q (busLook M x)) (tasks, fresh M sh) gs := by
  rw [sometime_iff, sometime_iff, always_busLook_hom h (Q := fun x => ¬ Q x)]

/-- INTERNAL: a run of the bus over one machine ends where the run over the other does. -/
theorem exists_run_of_busHom {N : Machine (world Γ)} (h : Hom M N) {tasks : Γ.Sub → LoopState}
    {sh : Shared Γ} {gs : List (BusAction Γ)} {y : BusState Γ N.Point}
    (hrun : run (busStep number N) (tasks, fresh N sh) gs = some y) :
    ∃ x, run (busStep number M) (tasks, fresh M sh) gs = some x ∧ busLook N y = busLook M x := by
  have key : run (busStep number N) (tasks, (fresh M sh).map h.map) gs =
      (run (busStep number M) (tasks, fresh M sh) gs).map fun x => (x.1, x.2.map h.map) :=
    run_map (f := fun x : BusState Γ M.Point => (x.1, x.2.map h.map)) (busStep_hom h)
      (tasks, fresh M sh) gs
  rw [map_fresh, hrun] at key
  obtain ⟨x, hx, rfl⟩ := Option.map_eq_some_iff.mp key.symm
  exact ⟨x, hx, by rw [busLook, busLook, look_hom]⟩

/-! ## The two books of the workers -/

/-- INTERNAL: a move of the loop is no action of a worker. -/
theorem ofWorker_of_move {shut : Bool} {p q : LoopPoint} {a : LoopAction}
    (h : Moves shut p a q) : a.ofWorker = false := by
  cases h <;> rfl

section

variable {s s' : LoopState} {a : LoopAction} {n m : ℕ}

/-- INTERNAL: a step of the task that involves no worker leaves its book as it is. -/
theorem book_of_task (h : s.step a = some s') (ha : a.ofWorker = false) :
    s'.running = s.running ∧ ∀ n, .ended n ∈ s'.log → .ended n ∈ s.log := by
  have noted : ∀ {e : LoopEvent}, (∀ n, LoopEvent.ended n ≠ e) → ∀ n, .ended n ∈ e :: s.log →
      .ended n ∈ s.log := by
    intro e he n hn
    exact (List.mem_cons.mp hn).resolve_left (he n)
  cases loopStep_of_step h with
  | look hlook => exact ⟨rfl, noted nofun⟩
  | message hp => exact ⟨rfl, noted nofun⟩
  | drain hopen => exact ⟨rfl, noted nofun⟩
  | spawn hp => cases ha
  | finish hn hcancel => cases ha
  | move hmove => exact ⟨rfl, fun _ hn => hn⟩
  | joined hp hn => exact ⟨rfl, fun _ hn => hn⟩
  | joinedLast hp hn => exact ⟨rfl, fun _ hn => hn⟩
  | acquire hp hfree => exact ⟨rfl, fun _ hn => hn⟩
  | allJoined hp hrunning hfinished => exact ⟨rfl, fun _ hn => hn⟩
  | returned hdraining hp => exact ⟨rfl, fun _ hn => hn⟩
  | timeout hdraining hp => exact ⟨rfl, fun _ hn => hn⟩
  | drop hopen => exact ⟨rfl, fun _ hn => hn⟩
  | cancel haborted hp => exact ⟨rfl, fun _ hn => hn⟩

/-- INTERNAL: the start of a worker puts it into the book. -/
theorem book_of_spawn (h : s.step .spawn = some s') (hn : s.point.dispatches = some n) :
    s'.running = n :: s.running ∧ ∀ m, .ended m ∈ s'.log → .ended m ∈ s.log := by
  cases loopStep_of_step h with
  | move hmove => exact absurd (ofWorker_of_move hmove) nofun
  | spawn hp =>
    rw [hp] at hn
    obtain rfl := Option.some.inj hn
    exact ⟨rfl, fun m hm => (List.mem_cons.mp hm).resolve_left nofun⟩

/-- INTERNAL: the end of a worker takes it out of the book. -/
theorem book_of_finish {ending : Ending} (h : s.step (.finish n ending) = some s') :
    s'.running = s.running.erase n ∧ s'.log = .ended n :: s.log := by
  cases loopStep_of_step h with
  | move hmove => exact absurd (ofWorker_of_move hmove) nofun
  | finish hn hcancel => exact ⟨rfl, rfl⟩

end

omit [DecidableEq Γ.Sub]

/-- The book of a subscription agrees with its threads: who lives is on the list, and who has
ended is over. -/
structure Agrees (number : Γ.Sub × ℕ ↪ ℕ) (M : Machine (world Γ)) (t : State (world Γ) M.Point)
    (sub : Γ.Sub) (l : LoopState) : Prop where
  live : ∀ n, (look M t).live (number (sub, n)) = true → n ∈ l.running
  ended : ∀ n, .ended n ∈ l.log → (look M t).over (number (sub, n)) = true

/-- All the books agree with the threads, and each thread is in a book. -/
structure Tied (number : Γ.Sub × ℕ ↪ ℕ) (M : Machine (world Γ)) (x : BusState Γ M.Point) :
    Prop where
  agrees : ∀ sub, Agrees number M x.2 sub (x.1 sub)
  numbered : ∀ i th, x.2.threads i = some th → ∃ n, number (th.job.sub, n) = i

section

variable {t t' : State (world Γ) M.Point} {a : Action (world Γ)} {sub : Γ.Sub} {l l' : LoopState}
  {n : ℕ}

/-- INTERNAL: the book is changed, and the threads are as they were. -/
theorem Agrees.rewrite (h : Agrees number M t sub l)
    (hrunning : ∀ n ∈ l.running, (look M t).live (number (sub, n)) = true → n ∈ l'.running)
    (hended : ∀ n, .ended n ∈ l'.log →
      .ended n ∈ l.log ∨ (look M t).over (number (sub, n)) = true) :
    Agrees number M t sub l' where
  live n hn := hrunning n (h.live n hn) hn
  ended n hn := (hended n hn).elim (h.ended n) id

/-- INTERNAL: the threads move, and none of the subscription is started. -/
theorem Agrees.move (h : Agrees number M t sub l) (ht : Lib.step M t a = some t')
    (hstart : ∀ n, a.starts ≠ some (number (sub, n))) : Agrees number M t' sub l where
  live n hn := h.live n ((step_cases ht).live (hstart n) hn)
  ended n hn := (step_cases ht).over (h.ended n hn)

/-- INTERNAL: a worker is started and put into the book. -/
theorem Agrees.spawn {msg : Message} (h : Agrees number M t sub l)
    (ht : Lib.step M t (.spawn (number (sub, n)) ⟨sub, msg⟩) = some t')
    (hrunning : l'.running = n :: l.running)
    (hended : ∀ m, .ended m ∈ l'.log → .ended m ∈ l.log) : Agrees number M t' sub l' where
  live m hm := by
    rw [hrunning]
    by_cases hmn : m = n
    · subst hmn
      exact List.mem_cons_self
    · have hstart : (Action.spawn (W := world Γ) (number (sub, n)) ⟨sub, msg⟩).starts ≠
          some (number (sub, m)) := by
        intro heq
        have hpair := number.injective (Option.some.inj heq)
        exact hmn (Prod.mk.inj hpair).2.symm
      exact List.mem_cons_of_mem n (h.live m ((step_cases ht).live hstart hm))
  ended m hm := (step_cases ht).over (h.ended m (hended m hm))

/-- INTERNAL: a worker that is over is taken out of the book. -/
theorem Agrees.finish {ending : Ending} (h : Agrees number M t sub l)
    (hl : l.step (.finish n ending) = some l')
    (hover : (look M t).over (number (sub, n)) = true) : Agrees number M t sub l' := by
  obtain ⟨hrunning, hlog⟩ := book_of_finish hl
  refine h.rewrite ?_ ?_
  · intro m hm hlive
    have hmn : m ≠ n := by
      rintro rfl
      rw [not_live_of_over hover] at hlive
      cases hlive
    rw [hrunning]
    exact (List.mem_erase_of_ne hmn).mpr hm
  · intro m hm
    rw [hlog] at hm
    rcases List.mem_cons.mp hm with hnew | hold
    · obtain rfl := LoopEvent.ended.inj hnew
      exact .inr hover
    · exact .inl hold

/-- INTERNAL: a thread keeps its job, and only a start makes a new one. -/
theorem numbered_step (ht : Lib.step M t a = some t')
    (hstart : ∀ i d, a = .spawn i d → ∃ n, number (d.sub, n) = i)
    (h : ∀ i th, t.threads i = some th → ∃ n, number (th.job.sub, n) = i) :
    ∀ i th, t'.threads i = some th → ∃ n, number (th.job.sub, n) = i := by
  intro i th hi
  rcases (step_cases ht).job_cases hi with ⟨th₀, hbefore, hjob⟩ | hspawn
  · rw [hjob]
    exact h i th₀ hbefore
  · exact hstart i th.job hspawn

end

variable [DecidableEq Γ.Sub] {x x' : BusState Γ M.Point} {g : BusAction Γ}

/-- INTERNAL: what holds of the tasks of all subscriptions after one of them has moved. -/
theorem forall_update {Q : Γ.Sub → LoopState → Prop} {tasks : Γ.Sub → LoopState} {sub : Γ.Sub}
    {l : LoopState} (hother : ∀ sub', sub' ≠ sub → Q sub' (tasks sub')) (hown : Q sub l) :
    ∀ sub', Q sub' (update tasks sub l sub') := by
  intro sub'
  by_cases hsub : sub' = sub
  · subst hsub
    rw [Function.update_self]
    exact hown
  · rw [Function.update_of_ne hsub]
    exact hother sub' hsub

/-- **Every step of the bus keeps the books tied to the threads.** -/
theorem Tied.step (h : busStep number M x g = some x') (hx : Tied number M x) :
    Tied number M x' := by
  have aborted : ∀ {sub : Γ.Sub} {n : ℕ} {fate : Fate} {ch : Choice Γ} {ending : Ending}
      {l : LoopState} {t : State (world Γ) M.Point},
      (x.1 sub).step (.finish n ending) = some l →
      Lib.step M x.2 (.abort (number (sub, n)) fate ch) = some t →
      Tied number M (update x.1 sub l, t) := by
    intro sub n fate ch ending l t hl ht
    have hmoved : ∀ sub', Agrees number M t sub' (x.1 sub') := fun sub' =>
      (hx.agrees sub').move ht nofun
    refine ⟨forall_update (fun sub' _ => hmoved sub') ?_, numbered_step ht nofun hx.numbered⟩
    exact (hmoved sub).finish hl (step_cases ht).over_of_abort
  cases busStep_cases h with
  | @task sub a l ha hl =>
    obtain ⟨hrunning, hended⟩ := book_of_task hl ha
    refine ⟨forall_update (fun sub' _ => hx.agrees sub') ?_, hx.numbered⟩
    refine (hx.agrees sub).rewrite ?_ (fun n hn => .inl (hended n hn))
    intro n hn _
    rw [hrunning]
    exact hn
  | @spawn sub n msg l t hn hl ht =>
    obtain ⟨hrunning, hended⟩ := book_of_spawn hl hn
    refine ⟨forall_update ?_ ((hx.agrees sub).spawn ht hrunning hended), ?_⟩
    · intro sub' hsub
      refine (hx.agrees sub').move ht ?_
      intro m heq
      have hpair := number.injective (Option.some.inj heq)
      exact hsub (Prod.mk.inj hpair).1.symm
    · refine numbered_step ht ?_ hx.numbered
      intro i d hd
      obtain ⟨rfl, rfl⟩ := Action.spawn.inj hd
      exact ⟨n, rfl⟩
  | @returned sub n l hended hl =>
    refine ⟨forall_update (fun sub' _ => hx.agrees sub') ?_, hx.numbered⟩
    exact (hx.agrees sub).finish hl (over_of_ended hended)
  | panicked hawaits hc hl ht => exact aborted hl ht
  | cancelled hl ht => exact aborted hl ht
  | @work a t ha ht =>
    have hstart : ∀ i, a.starts ≠ some i := by
      intro i heq
      cases a <;> cases ha <;> cases heq
    refine ⟨fun sub => (hx.agrees sub).move ht (fun n => hstart _), ?_⟩
    refine numbered_step ht ?_ hx.numbered
    rintro i d rfl
    cases ha

omit [DecidableEq Γ.Sub] in
/-- Before any message the books are empty and there are no threads. -/
theorem Tied.fresh {tasks : Γ.Sub → LoopState} {opts : Γ.Sub → SubscribeOptions}
    (hstart : ∀ sub, LoopState.start (opts sub) = some (tasks sub)) (sh : Shared Γ) :
    Tied number M (tasks, Lib.fresh M sh) where
  agrees sub := by
    obtain ⟨-, hl⟩ := start_eq_some (hstart sub)
    refine ⟨fun n hn => (nomatch hn), fun n hn => ?_⟩
    have hlog : (tasks sub).log = [] := by rw [hl]
    exact absurd (hlog ▸ hn) List.not_mem_nil
  numbered i th hi := nomatch hi

end EventBus.Interface
