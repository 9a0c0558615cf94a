import ContainerKeys.Proofs.Rebuild.Runs

/-!
# The build lock and the queue

Builds do not overlap: the builder at work is the holder of the lock. Jobs do not pile up: a job that is
pending is the one that was left last, so a trigger that finds one shares it.

* `Machine.Locked` — the invariant that says both.
* `Machine.Locked.step`, `Machine.locked_of_run` — one step keeps it, so every run does.
-/

namespace ContainerKeys.Rebuild.Machine

/-- The builder at work is the holder of the lock, and a pending job is the one that was left last. -/
structure Locked (m : Machine) : Prop where
  building_iff : ∀ b, m.progress? b = some .building ↔ ∃ h, m.held = some h ∧ h.builder = b
  pending_queued : ∀ id, m.jobs[id]? = some .pending → m.queued = some id

/-- A new builder adds no one at another progress than its own. -/
theorem getElem?_concat_iff {l : List Progress} {p q : Progress} (h : p ≠ q) (id : Nat) :
    (l ++ [p])[id]? = some q ↔ l[id]? = some q := by
  by_cases inside : id < l.length
  · rw [List.getElem?_append_left inside]
  · rw [List.getElem?_append_right (by omega), List.getElem?_eq_none (by omega : _ ≤ id)]
    simp [List.getElem?_singleton, h]

theorem Locked.initial (w : Workspace) (settings : Settings) : (initial w settings).Locked := by
  constructor
  · intro b
    cases b <;> simp [Machine.initial, progress?]
  · intro id pending
    simp [Machine.initial] at pending

/-- The lock and the queue only depend on progress, holder and last job. -/
theorem Locked.congr {m m' : Machine} (locked : m.Locked) (progress : m'.progress? = m.progress?)
    (held : m'.held = m.held) (queued : m'.queued = m.queued) : m'.Locked := by
  constructor
  · intro b
    rw [progress, held]
    exact locked.building_iff b
  · intro id pending
    have same : m'.progress? (.job id) = m.progress? (.job id) := by rw [progress]
    rw [queued]
    exact locked.pending_queued id (same.symm.trans pending)

/-- A builder that is not at work may move on to anything but work. -/
theorem Locked.setProgress {m : Machine} (locked : m.Locked) {b : Builder} {p : Progress}
    (idle : m.progress? b ≠ some .building) (notBuilding : p ≠ .building)
    (notPending : p ≠ .pending) : (m.setProgress b p).Locked := by
  constructor
  · intro other
    rw [progress?_setProgress, held_setProgress]
    by_cases h : other = b
    · rw [if_pos h, ← locked.building_iff, h]
      constructor
      · intro moved
        exact absurd moved (map_progress_ne notBuilding _)
      · intro building
        exact absurd building idle
    · rw [if_neg h]
      exact locked.building_iff other
  · intro id pending
    rw [queued_setProgress]
    have moved : (m.setProgress b p).progress? (.job id) = some .pending := pending
    rw [progress?_setProgress] at moved
    split at moved
    · exact absurd moved (map_progress_ne notPending _)
    · exact locked.pending_queued id moved

theorem Locked.trigger {m : Machine} (locked : m.Locked) : m.trigger.Locked := by
  by_cases h : m.hasPending
  · rwa [Machine.trigger, if_pos h]
  · rw [trigger_of_not_hasPending (by simpa using h)]
    constructor
    · intro b
      cases b with
      | call id => exact locked.building_iff (.call id)
      | job id =>
        exact (getElem?_concat_iff (by decide) id).trans (locked.building_iff (.job id))
    · intro id pending
      show some m.jobs.length = some id
      change (m.jobs ++ [Progress.pending])[id]? = some .pending at pending
      by_cases inside : id < m.jobs.length
      -- an older pending job would have been shared
      · rw [List.getElem?_append_left inside] at pending
        exact absurd (hasPending_iff.mpr ⟨id, locked.pending_queued id pending, pending⟩) h
      · have := (List.getElem?_eq_some_iff.mp pending).1
        simp at this
        congr
        omega

theorem Locked.call {m : Machine} (locked : m.Locked) :
    Locked { m with calls := m.calls ++ [.waiting] } := by
  refine ⟨?_, locked.pending_queued⟩
  intro b
  cases b with
  | job id => exact locked.building_iff (.job id)
  | call id => exact (getElem?_concat_iff (by decide) id).trans (locked.building_iff (.call id))

/-- While the lock is free, nobody is at work. -/
theorem Locked.idle {m : Machine} (locked : m.Locked) (free : m.held = none) (b : Builder) :
    m.progress? b ≠ some .building := by
  intro building
  obtain ⟨h, held, -⟩ := (locked.building_iff b).mp building
  rw [free] at held
  cases held

theorem Locked.acquire {m : Machine} (locked : m.Locked) {b : Builder} (free : m.held = none)
    (waiting : m.progress? b = some .waiting) : (m.acquire b).Locked := by
  constructor
  · intro other
    rw [progress?_acquire, waiting]
    by_cases h : other = b
    · rw [if_pos h, h]
      exact ⟨fun _ => ⟨_, rfl, rfl⟩, fun _ => rfl⟩
    · rw [if_neg h]
      constructor
      · intro building
        exact absurd building (locked.idle free other)
      · rintro ⟨held, hheld, e⟩
        cases hheld
        exact absurd e.symm h
  · intro id pending
    have moved : (m.acquire b).progress? (.job id) = some .pending := pending
    rw [progress?_acquire] at moved
    split at moved
    · exact absurd moved (map_progress_ne (by decide) _)
    · have := locked.pending_queued id moved
      cases b <;> exact this

theorem afterPublishing_ne (b : Builder) :
    b.afterPublishing ≠ .building ∧ b.afterPublishing ≠ .pending := by
  cases b <;> simp [Builder.afterPublishing]

theorem Locked.publish {m : Machine} (locked : m.Locked) {h : Held} (held : m.held = some h) :
    (m.publish h).Locked := by
  obtain ⟨notBuilding, notPending⟩ := afterPublishing_ne h.builder
  constructor
  · intro other
    rw [progress?_publish, held_publish]
    have none : ¬ ∃ k : Held, (none : Option Held) = some k ∧ k.builder = other := by
      rintro ⟨k, e, -⟩
      cases e
    refine ⟨fun building => ?_, fun e => absurd e none⟩
    exfalso
    split at building
    · exact map_progress_ne notBuilding _ building
    · rename_i different
      obtain ⟨k, hk, e⟩ := (locked.building_iff other).mp building
      rw [held] at hk
      cases hk
      exact different e.symm
  · intro id pending
    have moved : (m.publish h).progress? (.job id) = some .pending := pending
    rw [progress?_publish] at moved
    rw [queued_publish]
    split at moved
    · exact absurd moved (map_progress_ne notPending _)
    · exact locked.pending_queued id moved

/-- Every step keeps the lock and the queue. -/
theorem Locked.step {m m' : Machine} {s : Step} (locked : m.Locked) (h : m.step? s = some m') :
    m'.Locked := by
  cases s with
  | edit files =>
    cases h
    exact locked.congr rfl rfl rfl
  | configure settings =>
    cases h
    exact locked.congr rfl rfl rfl
  | subscribe subscriber =>
    cases h
    exact locked.congr rfl rfl rfl
  | trigger =>
    cases h
    exact locked.trigger
  | call =>
    cases h
    exact locked.call
  | start =>
    obtain ⟨id, pending, rfl⟩ := step?_start h
    refine locked.setProgress ?_ (by decide) (by decide)
    rw [progress?, pending]
    decide
  | acquire b =>
    obtain ⟨free, waiting, rfl⟩ := step?_acquire h
    exact locked.acquire free waiting
  | publish =>
    obtain ⟨held, hheld, rfl⟩ := step?_publish h
    exact locked.publish hheld
  | finish =>
    obtain ⟨id, published, rfl⟩ := step?_finish h
    refine locked.setProgress ?_ (by decide) (by decide)
    rw [progress?, published]
    decide

theorem locked_of_run {w : Workspace} {settings : Settings} {steps : List Step} {m : Machine}
    (run : (initial w settings).run? steps = some m) : m.Locked :=
  run?_induction (motive := fun _ m => m.Locked) (Locked.initial w settings)
    (fun _ _ _ _ _ locked step => locked.step step) run

end ContainerKeys.Rebuild.Machine
