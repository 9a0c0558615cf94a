import ContainerKeys.Rebuild.Machine

/-!
# Using the rebuild machine

Runs of the machine in which one user waits for each request: a rebuild at once, a trigger with the wait
for its job, a report of a changed file, new ignore globs, and a burst of triggers.
-/

namespace ContainerKeys.Rebuild.Machine

/-- Runs steps whose guards hold; the machine stays as it is if one does not. -/
def perform (m : Machine) (steps : List Step) : Machine :=
  (m.run? steps).getD m

/-- Rebuilds at once, by a direct call. -/
def rebuildNow (m : Machine) : Machine :=
  m.perform [.call, .acquire (.call m.calls.length), .publish]

/-- The worker takes up a job and brings it to its end. -/
def serve (m : Machine) (id : Nat) : Machine :=
  if m.jobs[id]? = some .pending then
    m.perform [.start, .acquire (.job id), .publish, .finish]
  else m

/-- The worker brings all jobs to their end. -/
def serveAll (m : Machine) : Machine :=
  (List.range m.jobs.length).foldl serve m

/-- A trigger, with the wait for its job. -/
def schedule (m : Machine) : Machine :=
  (m.perform [.trigger]).serveAll

/-- Does the change of a file call for a rebuild? It does unless the file is no source file. -/
def heeds (m : Machine) (path : Option Path) : Bool :=
  match path with
  | some p => m.settings.isSource p
  | none => true

/-- Replaces the ignore globs and triggers a rebuild, with the wait for its job. -/
def setIgnorePatterns (m : Machine) (patterns : List String) : Machine :=
  (m.perform [.configure { m.settings with ignorePatterns := patterns }]).schedule

/-- Triggers `count` times and notes which job serves each. -/
def triggers (m : Machine) : Nat → Machine × List (Option Nat)
  | 0 => (m, [])
  | count + 1 =>
    let m := m.perform [.trigger]
    let (after, jobs) := m.triggers count
    (after, m.queued :: jobs)

/-- A trigger, and `more` further ones while its job holds the lock, with the wait for all jobs. Returns
which job serves each trigger. -/
def burst (m : Machine) (more : Nat) : Machine × List (Option Nat) :=
  let m := m.perform [.trigger]
  let first := m.queued
  let m := m.perform [.start, .acquire (.job (first.getD 0))]
  let (m, jobs) := m.triggers more
  ((m.perform [.publish, .finish]).serveAll, first :: jobs)

end ContainerKeys.Rebuild.Machine
