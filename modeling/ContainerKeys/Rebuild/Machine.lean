import ContainerKeys.Build

/-!
# The rebuild machine

One index is published at a time. Rebuilds are asked for by triggers, which leave jobs to a single
worker, and by direct calls; a build lock keeps them from overlapping. Subscribers are handed the
diagnostics of every index that is published: one table, from one subscriber to the next, so that a later
one gets what the earlier ones have left of it. What a subscriber does with the table, and how its calls
end, is up to the subscriber.

The machine is a set of guarded steps. A step stands for something that happens at one moment: a change
of the files or settings, a trigger, a direct call, the worker taking up its oldest job, a builder taking
the lock and reading settings and files, a builder publishing and giving the lock back, a job coming to
its end. Any order of steps whose guards hold is a run of the machine.
-/

namespace ContainerKeys.Rebuild

/-- Who builds: a job of the worker or a direct call, by number. -/
inductive Builder where
  | job (id : Nat)
  | call (id : Nat)
deriving DecidableEq, Repr

/-- How far a builder has got. -/
inductive Progress where
  /-- A job that the worker has not taken up. -/
  | pending
  /-- Running, without the lock yet. -/
  | waiting
  /-- Holding the lock, with settings and files read. -/
  | building
  /-- The index is published and the lock given back. -/
  | published
  | done
deriving DecidableEq, Repr

/-- The builder that holds the lock, with the settings that it read and what it built. -/
structure Held where
  builder : Builder
  settings : Settings
  index : Index
  stats : Stats

/-- How a call of a subscriber ends. -/
inductive Ending where
  | returned
  /-- With an error, which is noted. -/
  | failed
  /-- With a signal that is no error: it goes through to the builder and breaks the publication off. -/
  | escaped
deriving DecidableEq, Repr

/-- What a call of a subscriber does: what it makes of the table that it is handed, and how it ends. -/
structure Reaction where
  alter : DiagnosticTable → DiagnosticTable := id
  ending : Ending := .returned

/-- A call that only looks at the table, by whether it fails. -/
instance : Coe Bool Reaction where
  coe fails := { ending := if fails then .failed else .returned }

/-- Someone who is handed diagnostics, with what each of its calls, counted from zero, does. -/
structure Subscriber where
  name : String
  react : Nat → Reaction

/-- Diagnostics handed to a subscriber, by its number. -/
structure Delivery where
  subscriber : Nat
  diagnostics : DiagnosticTable

/-- The state of the machine. -/
structure Machine where
  workspace : Workspace
  settings : Settings
  /-- The published index. -/
  index : Index := .empty
  stats : Stats := {}
  subscribers : List Subscriber := []
  /-- All deliveries so far, in order. -/
  deliveries : List Delivery := []
  /-- The jobs by number, which is the order in which they were left. -/
  jobs : List Progress := []
  /-- The direct calls by number. -/
  calls : List Progress := []
  /-- The job that was left last. -/
  queued : Option Nat := none
  held : Option Held := none
  log : List LogLine := []

/-- What may happen at one moment. -/
inductive Step where
  | edit (files : FileTree)
  | configure (settings : Settings)
  | subscribe (subscriber : Subscriber)
  | trigger
  | call
  | start
  | acquire (builder : Builder)
  | publish
  | finish

namespace Machine

/-- The progress of a builder. -/
def progress? (m : Machine) : Builder → Option Progress
  | .job id => m.jobs[id]?
  | .call id => m.calls[id]?

/-- The machine with a builder at another progress. -/
def setProgress (m : Machine) (b : Builder) (p : Progress) : Machine :=
  match b with
  | .job id => { m with jobs := m.jobs.set id p }
  | .call id => { m with calls := m.calls.set id p }

/-- Is the job that was left last still pending? -/
def hasPending (m : Machine) : Bool :=
  match m.queued with
  | some id => m.jobs[id]? = some .pending
  | none => false

/-- Is the worker busy with a job? -/
def workerBusy (m : Machine) : Bool :=
  m.jobs.any fun p => p ≠ .pending && p ≠ .done

/-- The number of tables that a subscriber was handed. -/
def deliveriesTo (m : Machine) (subscriber : Nat) : Nat :=
  m.deliveries.countP (·.subscriber = subscriber)

/-- The note on how a call of a subscriber ended. -/
def noteOn : Ending → List LogLine
  | .failed => [⟨.error, .service, "Diagnostics subscriber failed"⟩]
  | _ => []

/-- Hands diagnostics to the subscribers, the first of which has the number `first`. A call that fails is
noted, and the next subscriber is called; one that escapes is the last. -/
def deliver (m : Machine) (diagnostics : DiagnosticTable) (first : Nat) :
    List Subscriber → Machine
  | [] => m
  | s :: rest =>
    let reaction := s.react (m.deliveriesTo first)
    let called := { m with
      deliveries := m.deliveries ++ [⟨first, diagnostics⟩]
      log := m.log ++ noteOn reaction.ending }
    if reaction.ending = .escaped then called
    else called.deliver (reaction.alter diagnostics) (first + 1) rest

/-- A trigger. A job that is still pending serves it too; otherwise a new job is left. -/
def trigger (m : Machine) : Machine :=
  if m.hasPending then m
  else { m with jobs := m.jobs ++ [.pending], queued := some m.jobs.length }

/-- Takes the lock and reads settings and files. -/
def acquire (m : Machine) (b : Builder) : Machine :=
  let built := build m.workspace m.settings
  { m.setProgress b .building with
    held := some ⟨b, m.settings, built.value.1, built.value.2⟩
    log := m.log ++ built.log }

/-- Publishes what the holder of the lock built and gives the lock back. -/
def publish (m : Machine) (h : Held) : Machine :=
  let diagnostics := h.index.diagnostics h.settings.reportDuplicates
  let after :=
    match h.builder with
    | .job _ => Progress.published
    | .call _ => Progress.done
  { (m.setProgress h.builder after) with index := h.index, stats := h.stats, held := none }.deliver
    diagnostics 0 m.subscribers

/-- One step, if its guard holds. -/
def step? (m : Machine) : Step → Option Machine
  | .edit files => some { m with workspace := { m.workspace with files } }
  | .configure settings => some { m with settings }
  | .subscribe s => some { m with subscribers := m.subscribers ++ [s] }
  | .trigger => some m.trigger
  | .call => some { m with calls := m.calls ++ [.waiting] }
  | .start =>
    match m.workerBusy, m.jobs.findIdx? (· = .pending) with
    | false, some id => some (m.setProgress (.job id) .waiting)
    | _, _ => none
  | .acquire b =>
    if m.held.isNone ∧ m.progress? b = some .waiting then some (m.acquire b) else none
  | .publish => m.held.map m.publish
  | .finish =>
    (m.jobs.findIdx? (· = .published)).map fun id => m.setProgress (.job id) .done

/-- A run of steps, if all guards hold. -/
def run? (m : Machine) : List Step → Option Machine
  | [] => some m
  | s :: rest =>
    match m.step? s with
    | some m => m.run? rest
    | none => none

end Machine

end ContainerKeys.Rebuild
