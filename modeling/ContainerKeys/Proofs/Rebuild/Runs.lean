import ContainerKeys.Rebuild.Machine
import Mathlib.Data.List.Induction

/-!
# Runs of the rebuild machine

What each step does, said once, and the induction over runs that all statements about the machine use.

* `Machine.run?_induction` — what holds at the start and is kept by every step holds after every run.
* `Machine.step?_start`, `step?_acquire`, `step?_publish`, `step?_finish` — the guarded steps, turned
  around.
* `Machine.handedOut` — what the subscribers are handed at one publication.
* `Machine.deliver_eq` — a delivery adds to the deliveries and the log and changes nothing else.
* `Machine.publications` — the builds that a run publishes, in order.
-/

namespace ContainerKeys.Rebuild.Machine

/-- The machine before anything has happened. -/
def initial (w : Workspace) (settings : Settings) : Machine := { workspace := w, settings }

/-! ## Runs -/

theorem run?_cons (m : Machine) (s : Step) (rest : List Step) :
    m.run? (s :: rest) = (m.step? s).bind (·.run? rest) := by
  rw [run?]
  cases m.step? s <;> rfl

theorem run?_append (m : Machine) (first second : List Step) :
    m.run? (first ++ second) = (m.run? first).bind (·.run? second) := by
  induction first generalizing m with
  | nil => rfl
  | cons s rest ih =>
    rw [List.cons_append, run?_cons, run?_cons, Option.bind_assoc]
    congr
    funext next
    exact ih next

theorem run?_concat (m : Machine) (steps : List Step) (s : Step) :
    m.run? (steps ++ [s]) = (m.run? steps).bind (·.step? s) := by
  rw [run?_append]
  congr
  funext last
  rw [run?_cons]
  cases last.step? s <;> rfl

/-- What holds at the start and is kept by every step holds after every run. -/
theorem run?_induction {start : Machine} {motive : List Step → Machine → Prop}
    (init : motive [] start)
    (step : ∀ steps m s m', start.run? steps = some m → motive steps m → m.step? s = some m' →
      motive (steps ++ [s]) m')
    {steps : List Step} {m : Machine} (run : start.run? steps = some m) : motive steps m := by
  induction steps using List.reverseRecOn generalizing m with
  | nil =>
    cases run
    exact init
  | append_singleton steps s ih =>
    rw [run?_concat] at run
    obtain ⟨before, hbefore, last⟩ := Option.bind_eq_some_iff.mp run
    exact step steps before s m hbefore (ih hbefore) last

/-! ## Progress -/

/-- Who is moved on to one progress is not at another. -/
theorem map_progress_ne {p q : Progress} (h : p ≠ q) (old : Option Progress) :
    (old.map fun _ => p) ≠ some q := by
  cases old <;> simp [h]

theorem getElem?_set_eq (l : List Progress) (i j : Nat) (p : Progress) :
    (l.set i p)[j]? = if j = i then l[i]?.map fun _ => p else l[j]? := by
  by_cases h : j = i
  · rw [if_pos h, h, List.getElem?_set_self']
    rfl
  · rw [if_neg h, List.getElem?_set_ne (Ne.symm h)]

theorem progress?_setProgress (m : Machine) (b other : Builder) (p : Progress) :
    (m.setProgress b p).progress? other =
      if other = b then (m.progress? b).map fun _ => p else m.progress? other := by
  cases b with
  | job id =>
    cases other with
    | job id' => simp [setProgress, progress?, getElem?_set_eq]
    | call id' => simp [setProgress, progress?]
  | call id =>
    cases other with
    | job id' => simp [setProgress, progress?]
    | call id' => simp [setProgress, progress?, getElem?_set_eq]

@[simp] theorem held_setProgress (m : Machine) (b : Builder) (p : Progress) :
    (m.setProgress b p).held = m.held := by
  cases b <;> rfl

@[simp] theorem queued_setProgress (m : Machine) (b : Builder) (p : Progress) :
    (m.setProgress b p).queued = m.queued := by
  cases b <;> rfl

@[simp] theorem index_setProgress (m : Machine) (b : Builder) (p : Progress) :
    (m.setProgress b p).index = m.index := by
  cases b <;> rfl

@[simp] theorem subscribers_setProgress (m : Machine) (b : Builder) (p : Progress) :
    (m.setProgress b p).subscribers = m.subscribers := by
  cases b <;> rfl

@[simp] theorem deliveries_setProgress (m : Machine) (b : Builder) (p : Progress) :
    (m.setProgress b p).deliveries = m.deliveries := by
  cases b <;> rfl

/-! ## Deliveries -/

/-- What the subscribers are handed at one publication: each of them what those before it have left of the
table, up to the first whose call escapes. Each has been called `calls` times before. -/
def handedOut (calls : Nat → Nat) (diagnostics : DiagnosticTable) (first : Nat) :
    List Subscriber → List Delivery
  | [] => []
  | s :: rest =>
    ⟨first, diagnostics⟩ ::
      if (s.react (calls first)).ending = .escaped then []
      else handedOut calls ((s.react (calls first)).alter diagnostics) (first + 1) rest

/-- Only the calls of the subscribers themselves are asked for. -/
theorem handedOut_congr {calls calls' : Nat → Nat} {first : Nat}
    (same : ∀ k, first ≤ k → calls k = calls' k) (diagnostics : DiagnosticTable)
    (subscribers : List Subscriber) :
    handedOut calls diagnostics first subscribers = handedOut calls' diagnostics first subscribers := by
  induction subscribers generalizing first diagnostics with
  | nil => rfl
  | cons s rest ih =>
    rw [handedOut, handedOut, same first (Nat.le_refl _), ih fun k above => same k (Nat.le_of_succ_le above)]

/-- A delivery hands the table out, and changes nothing but the deliveries and the log. -/
theorem deliver_eq (m : Machine) (diagnostics : DiagnosticTable) (first : Nat)
    (subscribers : List Subscriber) :
    ∃ log, m.deliver diagnostics first subscribers = { m with
      deliveries := m.deliveries ++ handedOut m.deliveriesTo diagnostics first subscribers
      log } := by
  induction subscribers generalizing m diagnostics first with
  | nil => exact ⟨m.log, by simp [deliver, handedOut]⟩
  | cons s rest ih =>
    -- a failing subscriber only adds a line to the log, which is left open here
    rw [deliver, handedOut]
    by_cases escaped : (s.react (m.deliveriesTo first)).ending = .escaped
    · rw [if_pos escaped, if_pos escaped]
      exact ⟨_, rfl⟩
    · rw [if_neg escaped, if_neg escaped]
      obtain ⟨log, h⟩ := ih
        { m with
          deliveries := m.deliveries ++ [⟨first, diagnostics⟩]
          log := m.log ++ noteOn (s.react (m.deliveriesTo first)).ending }
        ((s.react (m.deliveriesTo first)).alter diagnostics) (first + 1)
      refine ⟨log, h.trans ?_⟩
      rw [List.append_assoc, List.singleton_append, handedOut_congr]
      -- the call just made is not one of those that follow
      intro k above
      have other : ¬ first = k := by omega
      simp [deliveriesTo, other]

/-! ## Triggers -/

/-- If the last job is not pending, a trigger leaves a new one. -/
theorem trigger_of_not_hasPending {m : Machine} (h : m.hasPending = false) :
    m.trigger = { m with jobs := m.jobs ++ [.pending], queued := some m.jobs.length } := by
  rw [trigger, h]
  rfl

theorem hasPending_iff {m : Machine} :
    m.hasPending = true ↔ ∃ id, m.queued = some id ∧ m.jobs[id]? = some .pending := by
  unfold hasPending
  cases m.queued with
  | none => simp
  | some id => simp

/-- The job that serves a trigger is pending. -/
theorem pending_trigger (m : Machine) :
    ∃ id, m.trigger.queued = some id ∧ m.trigger.jobs[id]? = some .pending := by
  by_cases h : m.hasPending
  · have same : m.trigger = m := by rw [trigger, if_pos h]
    rw [same]
    exact hasPending_iff.mp h
  · rw [trigger_of_not_hasPending (by simpa using h)]
    exact ⟨m.jobs.length, rfl, by simp⟩

/-! ## Guarded steps -/

/-- The worker takes up a pending job. -/
theorem step?_start {m m' : Machine} (h : m.step? .start = some m') :
    ∃ id, m.jobs[id]? = some .pending ∧ m' = m.setProgress (.job id) .waiting := by
  rw [step?] at h
  split at h
  · rename_i id _ found
    cases h
    refine ⟨id, ?_, rfl⟩
    obtain ⟨inside, pending, -⟩ := List.findIdx?_eq_some_iff_getElem.mp found
    rw [List.getElem?_eq_getElem inside]
    simpa using pending
  · cases h

/-- A waiting builder takes the lock, which is free. -/
theorem step?_acquire {m m' : Machine} {b : Builder} (h : m.step? (.acquire b) = some m') :
    m.held = none ∧ m.progress? b = some .waiting ∧ m' = m.acquire b := by
  rw [step?] at h
  split at h
  · rename_i guard
    cases h
    exact ⟨by simpa using guard.1, guard.2, rfl⟩
  · cases h

/-- The holder of the lock publishes. -/
theorem step?_publish {m m' : Machine} (h : m.step? .publish = some m') :
    ∃ held, m.held = some held ∧ m' = m.publish held := by
  rw [step?] at h
  obtain ⟨held, hheld, rfl⟩ := Option.map_eq_some_iff.mp h
  exact ⟨held, hheld, rfl⟩

/-- A job that has published comes to its end. -/
theorem step?_finish {m m' : Machine} (h : m.step? .finish = some m') :
    ∃ id, m.jobs[id]? = some .published ∧ m' = m.setProgress (.job id) .done := by
  rw [step?] at h
  obtain ⟨id, found, rfl⟩ := Option.map_eq_some_iff.mp h
  refine ⟨id, ?_, rfl⟩
  obtain ⟨inside, published, -⟩ := List.findIdx?_eq_some_iff_getElem.mp found
  rw [List.getElem?_eq_getElem inside]
  simpa using published

/-! ## Taking the lock and giving it back -/

theorem progress?_acquire (m : Machine) (b other : Builder) :
    (m.acquire b).progress? other =
      if other = b then (m.progress? b).map fun _ => .building else m.progress? other := by
  rw [← progress?_setProgress]
  cases other <;> rfl

end ContainerKeys.Rebuild.Machine

namespace ContainerKeys.Rebuild

/-- Does a step take the lock or give it back? -/
def Step.movesLock : Step → Bool
  | .acquire _ => true
  | .publish => true
  | _ => false

/-- The progress of a builder that has published: a job is still to be ended, a call is done. -/
def Builder.afterPublishing : Builder → Progress
  | .job _ => .published
  | .call _ => .done

/-- The diagnostics of a build, by the settings that it read. -/
def Held.diagnostics (h : Held) : DiagnosticTable :=
  h.index.diagnostics h.settings.reportDuplicates

namespace Machine

/-- All other steps leave the lock, the published index and the deliveries alone. -/
theorem step?_of_not_movesLock {m m' : Machine} {s : Step} (h : m.step? s = some m')
    (away : s.movesLock = false) :
    m'.held = m.held ∧ m'.index = m.index ∧ m'.deliveries = m.deliveries := by
  cases s with
  | edit files => cases h; exact ⟨rfl, rfl, rfl⟩
  | configure settings => cases h; exact ⟨rfl, rfl, rfl⟩
  | subscribe subscriber => cases h; exact ⟨rfl, rfl, rfl⟩
  | call => cases h; exact ⟨rfl, rfl, rfl⟩
  | trigger =>
    cases h
    unfold trigger
    split <;> exact ⟨rfl, rfl, rfl⟩
  | start =>
    obtain ⟨id, -, rfl⟩ := step?_start h
    exact ⟨rfl, rfl, rfl⟩
  | finish =>
    obtain ⟨id, -, rfl⟩ := step?_finish h
    exact ⟨rfl, rfl, rfl⟩
  | acquire b => cases away
  | publish => cases away

theorem publish_eq (m : Machine) (h : Held) :
    ∃ log, m.publish h = { m.setProgress h.builder h.builder.afterPublishing with
      index := h.index
      stats := h.stats
      held := none
      deliveries := m.deliveries ++ handedOut m.deliveriesTo h.diagnostics 0 m.subscribers
      log } := by
  obtain ⟨log, delivered⟩ := deliver_eq
    { m.setProgress h.builder h.builder.afterPublishing with
      index := h.index
      stats := h.stats
      held := none } h.diagnostics 0 m.subscribers
  refine ⟨log, Eq.trans ?_ (delivered.trans ?_)⟩
  · unfold publish
    cases h.builder <;> rfl
  · cases h.builder <;> rfl

theorem progress?_publish (m : Machine) (h : Held) (other : Builder) :
    (m.publish h).progress? other =
      if other = h.builder then (m.progress? h.builder).map fun _ => h.builder.afterPublishing
      else m.progress? other := by
  obtain ⟨log, published⟩ := m.publish_eq h
  rw [published, ← progress?_setProgress]
  cases other <;> rfl

theorem held_publish (m : Machine) (h : Held) : (m.publish h).held = none := by
  obtain ⟨log, published⟩ := m.publish_eq h
  rw [published]

theorem index_publish (m : Machine) (h : Held) : (m.publish h).index = h.index := by
  obtain ⟨log, published⟩ := m.publish_eq h
  rw [published]

theorem queued_publish (m : Machine) (h : Held) : (m.publish h).queued = m.queued := by
  obtain ⟨log, published⟩ := m.publish_eq h
  rw [published]
  simp

theorem subscribers_publish (m : Machine) (h : Held) :
    (m.publish h).subscribers = m.subscribers := by
  obtain ⟨log, published⟩ := m.publish_eq h
  rw [published]
  simp

theorem deliveries_publish (m : Machine) (h : Held) :
    (m.publish h).deliveries =
      m.deliveries ++ handedOut m.deliveriesTo h.diagnostics 0 m.subscribers := by
  obtain ⟨log, published⟩ := m.publish_eq h
  rw [published]

/-! ## Publications -/

/-- What a step publishes: the build of the holder of the lock, if the step gives it back. -/
def publishedBy (m : Machine) : Step → List Held
  | .publish => m.held.toList
  | _ => []

theorem publishedBy_of_not_movesLock (m : Machine) {s : Step} (away : s.movesLock = false) :
    m.publishedBy s = [] := by
  cases s with
  | publish => cases away
  | _ => rfl

/-- The builds that a run publishes, in order. -/
def publications (m : Machine) : List Step → List Held
  | [] => []
  | s :: rest =>
    match m.step? s with
    | some next => m.publishedBy s ++ next.publications rest
    | none => []

theorem publications_append {m next : Machine} {first : List Step}
    (run : m.run? first = some next) (second : List Step) :
    m.publications (first ++ second) = m.publications first ++ next.publications second := by
  induction first generalizing m with
  | nil =>
    cases run
    rfl
  | cons s rest ih =>
    rw [run?_cons] at run
    obtain ⟨after, hs, run⟩ := Option.bind_eq_some_iff.mp run
    rw [List.cons_append, publications, publications, hs, List.append_assoc]
    exact congrArg (m.publishedBy s ++ ·) (ih run)

theorem publications_concat {m last next : Machine} {steps : List Step} {s : Step}
    (run : m.run? steps = some last) (step : last.step? s = some next) :
    m.publications (steps ++ [s]) = m.publications steps ++ last.publishedBy s := by
  rw [publications_append run, publications, step]
  simp [publications]

end Machine

end ContainerKeys.Rebuild
