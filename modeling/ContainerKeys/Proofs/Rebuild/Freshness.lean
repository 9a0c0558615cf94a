import ContainerKeys.Proofs.Rebuild.Lock
import Mathlib.Data.List.Forall2

/-!
# Rebuilds never publish stale indexes

Steps are counted, and a build belongs to the moment at which it took the lock and read settings and
files.

* `Machine.Timely` — the reads of the published builds, followed by that of the build at work, stand in the
  order of time, and each index is the one built from what was read then.
* `Machine.Serves` — a job serves a trigger only while it is pending, so it reads after the trigger.
* `Machine.run_orderly` — what both say together of every run.
-/

namespace ContainerKeys.Rebuild

/-! ## Reads -/

/-- The moments at which settings and files were read, counted in steps. -/
structure Reads where
  /-- The number of steps so far. -/
  now : Nat := 0
  /-- When the holder of the lock read. -/
  reading : Option Nat := none
  /-- When the published builds were read, in the order of their publication. -/
  published : List Nat := []

namespace Reads

/-- The reads after one more step. -/
def after (r : Reads) : Step → Reads
  | .acquire _ => { r with now := r.now + 1, reading := some r.now }
  | .publish => ⟨r.now + 1, none, r.published ++ r.reading.toList⟩
  | _ => { r with now := r.now + 1 }

theorem after_of_not_movesLock (r : Reads) {s : Step} (away : s.movesLock = false) :
    r.after s = { r with now := r.now + 1 } := by
  cases s with
  | acquire b => cases away
  | publish => cases away
  | _ => rfl

/-- The reads of a run. -/
def ofSteps (steps : List Step) : Reads :=
  steps.foldl after {}

@[simp] theorem ofSteps_concat (steps : List Step) (s : Step) :
    ofSteps (steps ++ [s]) = (ofSteps steps).after s := by
  simp [ofSteps]

theorem now_after (r : Reads) (s : Step) : (r.after s).now = r.now + 1 := by
  cases s <;> rfl

theorem now_ofSteps (steps : List Step) : (ofSteps steps).now = steps.length := by
  induction steps using List.reverseRecOn with
  | nil => rfl
  | append_singleton steps s ih => simp [now_after, ih]

/-- The reads of the published builds, then that of the build at work. -/
def ledger (r : Reads) : List Nat :=
  r.published ++ r.reading.toList

end Reads

namespace Machine

/-- The index is the one that is built from the settings and files at a moment of a run, when a builder
takes the lock. -/
def BuiltAt (start : Machine) (steps : List Step) (moment : Nat) (index : Index) : Prop :=
  ∃ m b, start.run? (steps.take moment) = some m ∧ steps[moment]? = some (.acquire b) ∧
    index = (build m.workspace m.settings).value.1

theorem BuiltAt.lt_length {start : Machine} {steps : List Step} {moment : Nat} {index : Index}
    (h : BuiltAt start steps moment index) : moment < steps.length := by
  obtain ⟨m, b, -, step, -⟩ := h
  exact (List.getElem?_eq_some_iff.mp step).1

theorem BuiltAt.append {start : Machine} {steps : List Step} {moment : Nat} {index : Index}
    (h : BuiltAt start steps moment index) (more : List Step) :
    BuiltAt start (steps ++ more) moment index := by
  have inside := h.lt_length
  obtain ⟨m, b, run, step, built⟩ := h
  refine ⟨m, b, ?_, ?_, built⟩
  · rwa [List.take_append_of_le_length (Nat.le_of_lt inside)]
  · rwa [List.getElem?_append_left inside]

/-! ## The order of reads -/

/-- The reads of the published builds, followed by that of the build at work, stand in the order of
time, and each index is the one built from what was read then. -/
structure Timely (start : Machine) (steps : List Step) (m : Machine) : Prop where
  reading_iff : (Reads.ofSteps steps).reading.isSome = m.held.isSome
  increasing : (Reads.ofSteps steps).ledger.Pairwise (· < ·)
  past : ∀ moment ∈ (Reads.ofSteps steps).ledger, moment < steps.length
  atWork : ∀ moment h, (Reads.ofSteps steps).reading = some moment → m.held = some h →
    BuiltAt start steps moment h.index
  shown : ∀ moment, (Reads.ofSteps steps).published.getLast? = some moment →
    BuiltAt start steps moment m.index
  built : List.Forall₂ (fun (h : Held) moment => BuiltAt start steps moment h.index)
    (start.publications steps) (Reads.ofSteps steps).published

namespace Timely

variable {start m m' : Machine} {steps : List Step}

theorem initial (w : Workspace) (settings : Settings) :
    Timely (initial w settings) [] (Machine.initial w settings) where
  reading_iff := rfl
  increasing := List.Pairwise.nil
  past := by simp [Reads.ofSteps, Reads.ledger]
  atWork := by
    intro moment h reading
    cases reading
  shown := by
    intro moment last
    cases last
  built := List.Forall₂.nil

/-- A step that neither takes the lock nor gives it back leaves the reads alone. -/
theorem quiet (timely : Timely start steps m) {s : Step} (run : start.run? steps = some m)
    (step : m.step? s = some m') (away : s.movesLock = false) :
    Timely start (steps ++ [s]) m' := by
  obtain ⟨held, index, -⟩ := step?_of_not_movesLock step away
  have reading : (Reads.ofSteps (steps ++ [s])).reading = (Reads.ofSteps steps).reading := by
    rw [Reads.ofSteps_concat, Reads.after_of_not_movesLock _ away]
  have published : (Reads.ofSteps (steps ++ [s])).published = (Reads.ofSteps steps).published := by
    rw [Reads.ofSteps_concat, Reads.after_of_not_movesLock _ away]
  have ledger : (Reads.ofSteps (steps ++ [s])).ledger = (Reads.ofSteps steps).ledger := by
    rw [Reads.ledger, reading, published]
    rfl
  constructor
  · rw [reading, held]
    exact timely.reading_iff
  · rw [ledger]
    exact timely.increasing
  · intro moment hm
    rw [ledger] at hm
    have := timely.past moment hm
    rw [List.length_append]
    omega
  · intro moment h hr hh
    rw [reading] at hr
    rw [held] at hh
    exact (timely.atWork moment h hr hh).append [s]
  · intro moment last
    rw [published] at last
    rw [index]
    exact (timely.shown moment last).append [s]
  · rw [published, publications_concat run step, publishedBy_of_not_movesLock m away,
      List.append_nil]
    exact timely.built.imp fun _ _ builtAt => builtAt.append [s]

/-- Taking the lock reads now, after all reads so far. -/
theorem acquire (timely : Timely start steps m) {b : Builder} (run : start.run? steps = some m)
    (step : m.step? (.acquire b) = some (m.acquire b)) (free : m.held = none) :
    Timely start (steps ++ [.acquire b]) (m.acquire b) := by
  have idle : (Reads.ofSteps steps).reading = none := by
    have := timely.reading_iff
    rw [free] at this
    simpa using this
  have reading : (Reads.ofSteps (steps ++ [.acquire b])).reading = some steps.length := by
    rw [Reads.ofSteps_concat, ← Reads.now_ofSteps]
    rfl
  have published : (Reads.ofSteps (steps ++ [.acquire b])).published =
      (Reads.ofSteps steps).published := by
    rw [Reads.ofSteps_concat]
    rfl
  -- the lock was free, so all reads so far are published ones
  have before : (Reads.ofSteps steps).ledger = (Reads.ofSteps steps).published := by
    rw [Reads.ledger, idle]
    exact List.append_nil _
  have ledger : (Reads.ofSteps (steps ++ [.acquire b])).ledger =
      (Reads.ofSteps steps).ledger ++ [steps.length] := by
    rw [before, Reads.ledger, reading, published]
    rfl
  constructor
  · rw [reading]
    rfl
  · rw [ledger, List.pairwise_append]
    refine ⟨timely.increasing, List.pairwise_singleton _ _, ?_⟩
    intro moment hm last hlast
    rw [List.mem_singleton.mp hlast]
    exact timely.past moment hm
  · intro moment hm
    rw [ledger, List.mem_append, List.mem_singleton] at hm
    rw [List.length_append, List.length_singleton]
    rcases hm with hm | rfl
    · have := timely.past moment hm
      omega
    · omega
  · intro moment h hr hh
    rw [reading] at hr
    cases hr
    cases hh
    exact ⟨m, b, by rwa [List.take_left], by simp, rfl⟩
  · intro moment last
    rw [published] at last
    have same : (m.acquire b).index = m.index := by
      cases b <;> rfl
    rw [same]
    exact (timely.shown moment last).append _
  · rw [published, publications_concat run step]
    simp only [publishedBy, List.append_nil]
    exact timely.built.imp fun _ _ builtAt => builtAt.append _

/-- Giving the lock back publishes what was read last. -/
theorem publish (timely : Timely start steps m) {h : Held} (run : start.run? steps = some m)
    (step : m.step? .publish = some (m.publish h)) (held : m.held = some h) :
    Timely start (steps ++ [.publish]) (m.publish h) := by
  obtain ⟨moment, reads⟩ : ∃ moment, (Reads.ofSteps steps).reading = some moment := by
    have := timely.reading_iff
    rw [held] at this
    exact Option.isSome_iff_exists.mp this
  have published : (Reads.ofSteps (steps ++ [.publish])).published =
      (Reads.ofSteps steps).published ++ [moment] := by
    rw [Reads.ofSteps_concat, Reads.after, reads]
    rfl
  -- the read only goes from the build at work to the published ones
  have ledger : (Reads.ofSteps (steps ++ [.publish])).ledger = (Reads.ofSteps steps).ledger := by
    rw [Reads.ledger, Reads.ledger, published, reads, Reads.ofSteps_concat]
    exact List.append_nil _
  have built : BuiltAt start steps moment h.index := timely.atWork moment h reads held
  constructor
  · rw [held_publish, Reads.ofSteps_concat]
    rfl
  · rw [ledger]
    exact timely.increasing
  · intro other ho
    rw [ledger] at ho
    have := timely.past other ho
    rw [List.length_append]
    omega
  · intro other k _ hk
    rw [held_publish] at hk
    cases hk
  · intro other last
    rw [published, List.getLast?_concat] at last
    cases last
    rw [index_publish]
    exact built.append _
  · rw [published, publications_concat run step, publishedBy, held]
    refine List.rel_append ?_ ?_
    · exact timely.built.imp fun _ _ builtAt => builtAt.append _
    · exact List.Forall₂.cons (built.append _) List.Forall₂.nil

/-- Every step keeps the order of reads. -/
theorem step (timely : Timely start steps m) {s : Step} (run : start.run? steps = some m)
    (h : m.step? s = some m') : Timely start (steps ++ [s]) m' := by
  cases s with
  | acquire b =>
    obtain ⟨free, -, rfl⟩ := step?_acquire h
    exact timely.acquire run h free
  | publish =>
    obtain ⟨held, hheld, rfl⟩ := step?_publish h
    exact timely.publish run h hheld
  | _ => exact timely.quiet run h rfl

end Timely

theorem timely_of_run {w : Workspace} {settings : Settings} {steps : List Step} {m : Machine}
    (run : (initial w settings).run? steps = some m) : Timely (initial w settings) steps m :=
  run?_induction (Timely.initial w settings) (fun _ _ _ _ run timely step => timely.step run step) run

/-! ## Jobs and the triggers that they serve -/

/-- The job reads after the moment: it has not read yet, it read later and is still at work, or what is
published was read later. -/
structure Serves (moment id : Nat) (m : Machine) (reads : Reads) : Prop where
  atWork : m.jobs[id]? = some .building → ∃ t, reads.reading = some t ∧ moment < t
  served : m.jobs[id]? = some .published ∨ m.jobs[id]? = some .done →
    ∃ t, reads.published.getLast? = some t ∧ moment < t

namespace Serves

variable {start m m' : Machine} {steps : List Step} {moment id : Nat}

theorem of_pending {reads : Reads} (pending : m.jobs[id]? = some .pending) :
    Serves moment id m reads := by
  constructor
  · intro building
    rw [pending] at building
    cases building
  · rintro (published | done)
    · rw [pending] at published
      cases published
    · rw [pending] at done
      cases done

/-- A step that leaves the reads alone and only moves the job on to where it may be. -/
theorem quiet (serves : Serves moment id m (Reads.ofSteps steps)) {s : Step}
    (away : s.movesLock = false)
    (building : m'.jobs[id]? = some .building → m.jobs[id]? = some .building)
    (ended : m'.jobs[id]? = some .published ∨ m'.jobs[id]? = some .done →
      m.jobs[id]? = some .published ∨ m.jobs[id]? = some .done) :
    Serves moment id m' (Reads.ofSteps (steps ++ [s])) := by
  rw [Reads.ofSteps_concat, Reads.after_of_not_movesLock _ away]
  exact ⟨fun h => serves.atWork (building h), fun h => serves.served (ended h)⟩

/-- A job may move on, to its end only once it has published. -/
theorem setProgress (serves : Serves moment id m (Reads.ofSteps steps)) {s : Step}
    (away : s.movesLock = false) {other : Nat} {p : Progress} (notBuilding : p ≠ .building)
    (ended : p = .published ∨ p = .done → m.jobs[other]? = some .published) :
    Serves moment id (m.setProgress (.job other) p) (Reads.ofSteps (steps ++ [s])) := by
  have moved : (m.setProgress (.job other) p).jobs[id]? = _ := getElem?_set_eq ..
  by_cases own : id = other
  · rw [if_pos own] at moved
    refine serves.quiet away ?_ ?_
    · intro building
      exact absurd (moved.symm.trans building) (map_progress_ne notBuilding _)
    · intro finished
      rw [moved] at finished
      subst own
      have reached : p = .published ∨ p = .done := by
        by_contra neither
        rw [not_or] at neither
        rcases finished with e | e
        · exact map_progress_ne neither.1 _ e
        · exact map_progress_ne neither.2 _ e
      exact Or.inl (ended reached)
  · rw [if_neg own] at moved
    refine serves.quiet away ?_ ?_
    · rw [moved]
      exact fun e => e
    · rw [moved]
      exact fun e => e

theorem trigger (serves : Serves moment id m (Reads.ofSteps steps)) :
    Serves moment id m.trigger (Reads.ofSteps (steps ++ [.trigger])) := by
  by_cases h : m.hasPending
  · have same : m.trigger = m := by rw [Machine.trigger, if_pos h]
    rw [same]
    exact serves.quiet rfl (fun e => e) (fun e => e)
  · rw [trigger_of_not_hasPending (by simpa using h)]
    refine serves.quiet rfl (getElem?_concat_iff (by decide) id).mp ?_
    rintro (published | done)
    · exact Or.inl ((getElem?_concat_iff (by decide) id).mp published)
    · exact Or.inr ((getElem?_concat_iff (by decide) id).mp done)

/-- A job that reads now reads after every moment in the past. -/
theorem acquire (serves : Serves moment id m (Reads.ofSteps steps))
    (later : moment < steps.length) (b : Builder) :
    Serves moment id (m.acquire b) (Reads.ofSteps (steps ++ [.acquire b])) := by
  rw [Reads.ofSteps_concat]
  constructor
  -- whoever is at work now has read at this very step
  · intro _
    exact ⟨steps.length, congrArg some (Reads.now_ofSteps steps), later⟩
  · intro ended
    have moved := m.progress?_acquire b (.job id)
    split at moved
    -- the job itself has just begun
    · have now : (m.acquire b).jobs[id]? = (m.progress? b).map fun _ => .building := moved
      rw [now] at ended
      rcases ended with e | e
      · exact absurd e (map_progress_ne (by decide) _)
      · exact absurd e (map_progress_ne (by decide) _)
    · have same : (m.acquire b).jobs[id]? = m.jobs[id]? := moved
      rw [same] at ended
      exact serves.served ended

/-- What is published now was read after all that was published before. -/
theorem publish (serves : Serves moment id m (Reads.ofSteps steps)) (locked : m.Locked)
    (timely : Timely start steps m) {h : Held} (held : m.held = some h) :
    Serves moment id (m.publish h) (Reads.ofSteps (steps ++ [.publish])) := by
  obtain ⟨now, reading⟩ : ∃ now, (Reads.ofSteps steps).reading = some now := by
    have := timely.reading_iff
    rw [held] at this
    exact Option.isSome_iff_exists.mp this
  have last : (Reads.ofSteps (steps ++ [.publish])).published.getLast? = some now := by
    rw [Reads.ofSteps_concat, Reads.after, reading]
    exact List.getLast?_concat
  have moved := m.progress?_publish h (.job id)
  by_cases own : Builder.job id = h.builder
  -- the job itself publishes what it read
  · have working : m.jobs[id]? = some .building :=
      (locked.building_iff (.job id)).mpr ⟨h, held, own.symm⟩
    obtain ⟨t, ht, hlt⟩ := serves.atWork working
    rw [reading] at ht
    cases ht
    constructor
    · intro building
      rw [if_pos own] at moved
      have : (m.publish h).progress? (.job id) = some .building := building
      rw [moved] at this
      exact absurd this (map_progress_ne (afterPublishing_ne h.builder).1 _)
    · intro _
      exact ⟨now, last, hlt⟩
  -- another builder publishes
  · rw [if_neg own] at moved
    have same : (m.publish h).jobs[id]? = m.jobs[id]? := moved
    constructor
    · intro building
      rw [same] at building
      obtain ⟨k, hk, e⟩ := (locked.building_iff (.job id)).mp building
      rw [held] at hk
      cases hk
      exact absurd e.symm own
    · intro ended
      rw [same] at ended
      obtain ⟨t, ht, hlt⟩ := serves.served ended
      refine ⟨now, last, ?_⟩
      -- what was published before was read before, and after the moment
      have order := timely.increasing
      rw [Reads.ledger, reading, List.pairwise_append] at order
      have : t < now := order.2.2 t (List.mem_of_getLast? ht) now (by simp)
      omega

/-- Every step keeps what a job owes to the triggers that it serves. -/
theorem step (serves : Serves moment id m (Reads.ofSteps steps)) (locked : m.Locked)
    (timely : Timely start steps m) (later : moment < steps.length) {s : Step}
    (h : m.step? s = some m') : Serves moment id m' (Reads.ofSteps (steps ++ [s])) := by
  cases s with
  | edit files =>
    cases h
    exact serves.quiet rfl (fun e => e) (fun e => e)
  | configure settings =>
    cases h
    exact serves.quiet rfl (fun e => e) (fun e => e)
  | subscribe subscriber =>
    cases h
    exact serves.quiet rfl (fun e => e) (fun e => e)
  | call =>
    cases h
    exact serves.quiet rfl (fun e => e) (fun e => e)
  | trigger =>
    cases h
    exact serves.trigger
  | start =>
    obtain ⟨other, -, rfl⟩ := step?_start h
    exact serves.setProgress rfl (by decide) (by simp)
  | finish =>
    obtain ⟨other, published, rfl⟩ := step?_finish h
    exact serves.setProgress rfl (by decide) fun _ => published
  | acquire b =>
    obtain ⟨-, -, rfl⟩ := step?_acquire h
    exact serves.acquire later b
  | publish =>
    obtain ⟨held, hheld, rfl⟩ := step?_publish h
    exact serves.publish locked timely hheld

end Serves

/-- A job serves the triggers that were given it, however the run goes on. -/
theorem serves_of_run {w : Workspace} {settings : Settings} {before after : List Step}
    {asked m : Machine} {id : Nat}
    (trigger : (initial w settings).run? (before ++ [.trigger]) = some asked)
    (job : asked.queued = some id) (run : asked.run? after = some m) :
    Serves before.length id m (Reads.ofSteps (before ++ [.trigger] ++ after)) := by
  refine run?_induction
    (motive := fun after m => Serves before.length id m
      (Reads.ofSteps (before ++ [.trigger] ++ after))) ?_ ?_ run
  -- the job is pending when the trigger gets it
  · rw [run?_concat] at trigger
    obtain ⟨m₀, -, step⟩ := Option.bind_eq_some_iff.mp trigger
    cases step
    obtain ⟨other, queued, pending⟩ := m₀.pending_trigger
    rw [job] at queued
    cases queued
    exact Serves.of_pending pending
  · intro steps m₁ s m₂ run serves step
    have whole : (initial w settings).run? (before ++ [.trigger] ++ steps) = some m₁ := by
      rw [run?_append, trigger]
      exact run
    rw [← List.append_assoc]
    refine serves.step (locked_of_run whole) (timely_of_run whole) ?_ step
    simp only [List.length_append, List.length_singleton]
    omega

/-! ## Orderly runs -/

/-- What a run promises to those who ask for rebuilds and read the published index. -/
structure Orderly (start : Machine) (steps : List Step) (m : Machine) : Prop where
  /-- At most one builder is between taking the lock and giving it back. -/
  one_builder : ∀ b b', m.progress? b = some .building → m.progress? b' = some .building → b = b'
  /-- At most one job is pending. -/
  one_pending : ∀ i j : Nat, m.jobs[i]? = some .pending → m.jobs[j]? = some .pending → i = j
  /-- When the job that a trigger got is done, the published index was built from settings and files
  that were read after the trigger. -/
  fresh : ∀ (before after : List Step) (asked : Machine) (id : Nat),
    steps = before ++ .trigger :: after →
    start.run? (before ++ [.trigger]) = some asked → asked.queued = some id →
    m.jobs[id]? = some .done →
    ∃ moment, (Reads.ofSteps steps).published.getLast? = some moment ∧ before.length < moment ∧
      BuiltAt start steps moment m.index
  /-- Each published index was built from what was read at its moment. -/
  built : List.Forall₂ (fun (h : Held) moment => BuiltAt start steps moment h.index)
    (start.publications steps) (Reads.ofSteps steps).published
  /-- These moments never go back. -/
  monotone : (Reads.ofSteps steps).published.Pairwise (· ≤ ·)

/-- Every run is orderly, whatever the order of its steps. -/
theorem run_orderly (w : Workspace) (settings : Settings) {steps : List Step} {m : Machine}
    (run : (initial w settings).run? steps = some m) : Orderly (initial w settings) steps m := by
  have locked := locked_of_run run
  have timely := timely_of_run run
  constructor
  · intro b b' hb hb'
    obtain ⟨h, held, rfl⟩ := (locked.building_iff b).mp hb
    obtain ⟨h', held', rfl⟩ := (locked.building_iff b').mp hb'
    rw [held] at held'
    cases held'
    rfl
  · intro i j hi hj
    have qi := locked.pending_queued i hi
    rw [locked.pending_queued j hj] at qi
    cases qi
    rfl
  -- the run is the one up to the trigger, and what the job does after it
  · intro before after asked id split trigger job done
    have whole : steps = before ++ [.trigger] ++ after := by simp [split]
    rw [whole, run?_append, trigger] at run
    have serves := serves_of_run trigger job run
    rw [← whole] at serves
    obtain ⟨moment, last, later⟩ := serves.served (Or.inr done)
    exact ⟨moment, last, later, timely.shown moment last⟩
  · exact timely.built
  · have order := timely.increasing
    rw [Reads.ledger, List.pairwise_append] at order
    exact order.1.imp Nat.le_of_lt

/-- A run in which a direct call holds the lock while the worker waits for it, a second trigger comes
during the build of the first one's job, and both jobs come to their end. -/
def crowdedSteps : List Step :=
  [.call, .acquire (.call 0), .trigger, .trigger, .start, .publish, .acquire (.job 0), .trigger,
    .configure {}, .publish, .finish, .start, .acquire (.job 1), .publish, .finish]

/-- The crowded run is possible and orderly; its three builds were read at steps 1, 6 and 12. -/
theorem crowded_run_orderly :
    ∃ m, (initial ⟨{ root := .folder [], cwd := none }, fun _ _ => default⟩ {}).run? crowdedSteps = some m ∧
      m.jobs = [.done, .done] ∧ (Reads.ofSteps crowdedSteps).published = [1, 6, 12] ∧
      Orderly (initial ⟨{ root := .folder [], cwd := none }, fun _ _ => default⟩ {}) crowdedSteps m :=
  ⟨_, rfl, rfl, rfl, run_orderly _ _ rfl⟩

end Machine

end ContainerKeys.Rebuild
