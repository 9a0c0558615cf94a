import ContainerKeys.Proofs.Builds
import ContainerKeys.Proofs.DiagnosticTables
import ContainerKeys.Proofs.Rebuild.Runs
import Mathlib.Data.List.Chain

/-!
# Boards of diagnostics

A subscriber may keep a board with the diagnostics of each file: on every push it replaces the entries of
the files that the push names, and keeps the others. A push names only the files with a usage or a
reported duplicate in the new index. So the board follows the published index exactly as long as a file
that was complained about stays mentioned in the next index; once it is deleted, ignored, no longer
parsed or without usages, its old entry stays on the board.

* `Machine.Served.received_of_run` — a subscriber is given every publication, in order.
* `Machine.subscriber_board_agrees_iff` — when the board of a subscriber follows the published index.
* `Machine.deleted_file_stays_on_board` — a run after which it does not.
-/

namespace ContainerKeys.Rebuild

open DiagnosticTable (shown)

/-! ## Boards -/

/-- What a subscriber holds that replaces the entry of each file that a push names. -/
def board (pushes : List DiagnosticTable) : DiagnosticTable :=
  pushes.foldl (fun held push => held.putAll push.entries) .empty

/-- A push sets the files that it names and leaves the others as they are. -/
theorem shown_board_concat (pushes : List DiagnosticTable) (push : DiagnosticTable) (file : Path) :
    shown (board (pushes ++ [push])) file =
      if push.has file then shown push file else shown (board pushes) file := by
  have step : board (pushes ++ [push]) = (board pushes).putAll push.entries := by
    simp [board]
  rw [step, shown, Table.get?_putAll, Table.has, shown]
  cases push.get? file <;> rfl

theorem shown_of_not_has {t : DiagnosticTable} {file : Path} (h : ¬ t.has file = true) :
    shown t file = [] := by
  unfold Table.has at h
  rw [Bool.not_eq_true, Option.isSome_eq_false_iff, Option.isNone_iff_eq_none] at h
  rw [shown, h]
  rfl

/-- Every file that the earlier build complains about is mentioned in the later one. -/
def Held.ClearedBy (earlier later : Held) : Prop :=
  ∀ file, earlier.index.Complains earlier.settings.reportDuplicates file →
    later.index.Mentions later.settings.reportDuplicates file

/-- The board after some publications shows the diagnostics of the last one. -/
def Faithful (builds : List Held) : Prop :=
  ∀ last, builds.getLast? = some last →
    ∀ file, shown (board (builds.map Held.diagnostics)) file = shown last.diagnostics file

theorem faithful_nil : Faithful [] := by
  intro last h
  cases h

/-- One more publication keeps the board faithful if and only if it mentions all files that the last one
complains about. -/
theorem faithful_concat_iff {builds : List Held} (faithful : Faithful builds) (next : Held) :
    Faithful (builds ++ [next]) ↔ ∀ last ∈ builds.getLast?, last.ClearedBy next := by
  have entry : ∀ file, shown (board ((builds ++ [next]).map Held.diagnostics)) file =
      if next.diagnostics.has file then shown next.diagnostics file
      else shown (board (builds.map Held.diagnostics)) file := by
    intro file
    rw [List.map_append]
    exact shown_board_concat ..
  have mentions : ∀ file, next.diagnostics.has file = true ↔
      next.index.Mentions next.settings.reportDuplicates file :=
    fun file => Index.has_diagnostics_iff
  constructor
  · intro after last hlast file complains
    by_contra absent
    -- a file that is not named keeps what the last publication said of it
    have unnamed : ¬ next.diagnostics.has file = true := fun h => absent ((mentions file).mp h)
    have now := after next List.getLast?_concat file
    rw [entry, if_neg unnamed, faithful last hlast, shown_of_not_has unnamed] at now
    exact Index.shown_diagnostics_ne_nil_iff.mpr complains now
  · intro cleared last hlast file
    rw [List.getLast?_concat] at hlast
    cases hlast
    rw [entry]
    by_cases named : next.diagnostics.has file = true
    · rw [if_pos named]
    -- a file that is not named was not complained about, so the board has nothing on it either
    · rw [if_neg named, shown_of_not_has named]
      cases h : builds.getLast? with
      | none =>
        rw [List.getLast?_eq_none_iff.mp h]
        rfl
      | some previous =>
        rw [faithful previous h]
        by_contra said
        have complains := Index.shown_diagnostics_ne_nil_iff.mp said
        exact named ((mentions file).mpr (cleared previous h file complains))

/-- A subscriber that leaves the table as it is, and none of whose calls escapes. Its calls may fail. -/
def Subscriber.Considerate (s : Subscriber) : Prop :=
  ∀ call, (∀ table, (s.react call).alter table = table) ∧ (s.react call).ending ≠ .escaped

namespace Machine

/-! ## Deliveries along a run -/

/-- The diagnostics that were given to a subscriber, in order. -/
def received (m : Machine) (subscriber : Nat) : List DiagnosticTable :=
  (m.deliveries.filter (·.subscriber = subscriber)).map (·.diagnostics)

/-- Only a publication delivers anything or changes the published index. -/
theorem step?_quiet {m m' : Machine} {s : Step} (h : m.step? s = some m') (quiet : s ≠ .publish) :
    m'.deliveries = m.deliveries ∧ m'.index = m.index ∧ m.publishedBy s = [] := by
  cases s with
  | publish => exact absurd rfl quiet
  | acquire b =>
    obtain ⟨-, -, rfl⟩ := step?_acquire h
    cases b <;> exact ⟨rfl, rfl, rfl⟩
  | _ =>
    obtain ⟨-, index, deliveries⟩ := step?_of_not_movesLock h rfl
    exact ⟨deliveries, index, rfl⟩

/-- Subscribers stay, and new ones come behind them. -/
theorem subscribers_grow {m m' : Machine} {s : Step} (h : m.step? s = some m') :
    m.subscribers <+: m'.subscribers := by
  cases s with
  | edit files => cases h; exact List.prefix_refl _
  | configure settings => cases h; exact List.prefix_refl _
  | subscribe subscriber => cases h; exact List.prefix_append ..
  | call => cases h; exact List.prefix_refl _
  | trigger =>
    cases h
    unfold trigger
    split <;> exact List.prefix_refl _
  | start =>
    obtain ⟨id, -, rfl⟩ := step?_start h
    exact List.prefix_refl _
  | acquire b =>
    obtain ⟨-, -, rfl⟩ := step?_acquire h
    cases b <;> exact List.prefix_refl _
  | publish =>
    obtain ⟨held, -, rfl⟩ := step?_publish h
    exact subscribers_publish m held ▸ List.prefix_refl _
  | finish =>
    obtain ⟨id, -, rfl⟩ := step?_finish h
    exact List.prefix_refl _

/-- What is handed out goes to the subscribers that are there. -/
theorem subscriber_of_mem_handedOut {calls : Nat → Nat} {diagnostics : DiagnosticTable} {first : Nat}
    {subscribers : List Subscriber} {d : Delivery}
    (mem : d ∈ handedOut calls diagnostics first subscribers) :
    first ≤ d.subscriber ∧ d.subscriber < first + subscribers.length := by
  induction subscribers generalizing diagnostics first with
  | nil => cases mem
  | cons s rest ih =>
    rw [handedOut, List.mem_cons] at mem
    rw [List.length_cons]
    rcases mem with rfl | mem
    · exact ⟨Nat.le_refl _, Nat.lt_add_of_pos_right (Nat.succ_pos _)⟩
    · split at mem
      · cases mem
      · have := ih mem
        omega

/-- Behind considerate subscribers a subscriber is handed the table once, as it was. -/
theorem filter_handedOut (calls : Nat → Nat) (diagnostics : DiagnosticTable) (first : Nat)
    {subscribers : List Subscriber} {k : Nat} (present : k < subscribers.length)
    (considerate : ∀ other ∈ subscribers.take k, other.Considerate) :
    (handedOut calls diagnostics first subscribers).filter (·.subscriber = first + k) =
      [⟨first + k, diagnostics⟩] := by
  induction subscribers generalizing first k with
  | nil => cases present
  | cons s rest ih =>
    rw [handedOut]
    cases k with
    | zero =>
      -- the others are handed theirs under higher numbers
      rw [List.filter_cons_of_pos (by simp), List.filter_eq_nil_iff.mpr]
      · rfl
      · intro d mem
        split at mem
        · cases mem
        · have := (subscriber_of_mem_handedOut mem).1
          simp only [decide_eq_true_eq]
          omega
    | succ k =>
      obtain ⟨same, caught⟩ := considerate s (by simp) (calls first)
      have behind := ih (first + 1) (Nat.lt_of_succ_lt_succ present) fun other mem =>
        considerate other (by simp [mem])
      have number : first + 1 + k = first + (k + 1) := by omega
      rw [number] at behind
      rw [List.filter_cons_of_neg (by simp), if_neg caught, same, behind]

/-- The subscriber of this number is there, behind considerate ones. -/
structure Served (m : Machine) (k : Nat) : Prop where
  present : k < m.subscribers.length
  considerate : ∀ other ∈ m.subscribers.take k, other.Considerate

theorem Served.step {m m' : Machine} {s : Step} {k : Nat} (served : m.Served k)
    (step : m.step? s = some m') : m'.Served k := by
  obtain ⟨more, grown⟩ := subscribers_grow step
  constructor
  · rw [← grown, List.length_append]
    exact Nat.lt_add_right _ served.present
  · rw [← grown, List.take_append_of_le_length (Nat.le_of_lt served.present)]
    exact served.considerate

/-- A new subscriber is served if those that are there already are considerate. -/
theorem served_subscribe {m : Machine} (considerate : ∀ other ∈ m.subscribers, other.Considerate)
    (s : Subscriber) :
    { m with subscribers := m.subscribers ++ [s] }.Served m.subscribers.length := by
  constructor
  · simp
  · rw [List.take_left]
    exact considerate

/-- A step gives a subscriber that is served what it publishes. -/
theorem Served.received_step {m m' : Machine} {s : Step} {k : Nat} (served : m.Served k)
    (h : m.step? s = some m') :
    m'.received k = m.received k ++ (m.publishedBy s).map Held.diagnostics := by
  by_cases quiet : s = .publish
  · subst quiet
    obtain ⟨held, hheld, rfl⟩ := step?_publish h
    have given := filter_handedOut m.deliveriesTo held.diagnostics 0 served.present served.considerate
    rw [Nat.zero_add] at given
    rw [received, deliveries_publish, List.filter_append, given, List.map_append, publishedBy, hheld]
    rfl
  · obtain ⟨deliveries, -, silent⟩ := step?_quiet h quiet
    rw [received, deliveries, silent, List.map_nil, List.append_nil, received]

/-- A subscriber that is served is given every publication, in order. -/
theorem Served.received_of_run {start m : Machine} {steps : List Step} {k : Nat}
    (served : start.Served k) (run : start.run? steps = some m) :
    m.received k = start.received k ++ (start.publications steps).map Held.diagnostics ∧
      m.Served k := by
  refine run?_induction
    (motive := fun steps m => m.received k =
      start.received k ++ (start.publications steps).map Held.diagnostics ∧ m.Served k) ?_ ?_ run
  · exact ⟨by simp [publications], served⟩
  · rintro steps m s m' run ⟨ih, served⟩ step
    refine ⟨?_, served.step step⟩
    rw [served.received_step step, ih, publications_concat run step, List.map_append,
      List.append_assoc]

/-- Nothing is given to a number that no subscriber has yet. -/
theorem received_of_absent {w : Workspace} {settings : Settings} {steps : List Step} {m : Machine}
    (run : (initial w settings).run? steps = some m) {k : Nat} (absent : m.subscribers.length ≤ k) :
    m.received k = [] := by
  refine run?_induction
    (motive := fun _ m => m.subscribers.length ≤ k → m.received k = []) ?_ ?_ run absent
  · intro _
    rfl
  · intro steps m s m' run ih step absent
    have before : m.subscribers.length ≤ k := (subscribers_grow step).length_le.trans absent
    have nothing := ih before
    by_cases quiet : s = .publish
    · subst quiet
      obtain ⟨held, -, rfl⟩ := step?_publish step
      have others : (handedOut m.deliveriesTo held.diagnostics 0 m.subscribers).filter
          (·.subscriber = k) = [] := by
        apply List.filter_eq_nil_iff.mpr
        intro d mem
        have := (subscriber_of_mem_handedOut mem).2
        simp only [decide_eq_true_eq]
        omega
      rw [received, deliveries_publish, List.filter_append, others, List.append_nil]
      exact nothing
    · rw [received, (step?_quiet step quiet).1]
      exact nothing

/-- The published index is that of the last publication. -/
theorem index_of_run {start m : Machine} {steps : List Step} (run : start.run? steps = some m)
    {last : Held} (h : (start.publications steps).getLast? = some last) : m.index = last.index := by
  refine run?_induction
    (motive := fun steps m => ∀ last, (start.publications steps).getLast? = some last →
      m.index = last.index) ?_ ?_ run last h
  · intro last h
    cases h
  · intro steps m s m' run ih step last h
    rw [publications_concat run step] at h
    by_cases quiet : s = .publish
    · subst quiet
      obtain ⟨held, hheld, rfl⟩ := step?_publish step
      rw [publishedBy, hheld, Option.toList_some, List.getLast?_concat] at h
      cases h
      exact index_publish ..
    · obtain ⟨-, index, silent⟩ := step?_quiet step quiet
      rw [silent, List.append_nil] at h
      rw [index]
      exact ih last h

/-! ## Boards along a run -/

/-- The board of a subscriber shows the diagnostics of the published index, by the settings that the
given build read. -/
def BoardAgrees (m : Machine) (subscriber : Nat) (last : Held) : Prop :=
  ∀ file, shown (board (m.received subscriber)) file =
    shown (m.index.diagnostics last.settings.reportDuplicates) file

/-- The board is faithful at every moment of a run if and only if each publication clears the one before
it. -/
theorem faithful_along_iff {start m : Machine} {steps : List Step}
    (run : start.run? steps = some m) :
    (∀ upto, upto <+: steps → Faithful (start.publications upto)) ↔
      (start.publications steps).IsChain Held.ClearedBy := by
  refine run?_induction
    (motive := fun steps _ => (∀ upto, upto <+: steps → Faithful (start.publications upto)) ↔
      (start.publications steps).IsChain Held.ClearedBy) ?_ ?_ run
  · refine ⟨fun _ => List.IsChain.nil, ?_⟩
    intro _ upto h
    rw [List.prefix_nil.mp h]
    exact faithful_nil
  · intro steps m s m' run ih step
    have longer := publications_concat run step
    -- the moments of the longer run are those of the shorter one and its own end
    have moments : (∀ upto, upto <+: steps ++ [s] → Faithful (start.publications upto)) ↔
        (∀ upto, upto <+: steps → Faithful (start.publications upto)) ∧
          Faithful (start.publications (steps ++ [s])) := by
      constructor
      · intro all
        exact ⟨fun upto h => all upto (h.trans (List.prefix_append ..)), all _ (List.prefix_refl _)⟩
      · rintro ⟨earlier, now⟩ upto h
        rcases List.prefix_concat_iff.mp h with rfl | h
        · exact now
        · exact earlier upto h
    rw [moments, longer]
    by_cases quiet : s = .publish
    · subst quiet
      obtain ⟨next, hnext, rfl⟩ := step?_publish step
      have one : m.publishedBy .publish = [next] := by
        rw [publishedBy, hnext]
        rfl
      rw [one, List.isChain_append, ← ih]
      constructor
      · rintro ⟨earlier, now⟩
        have cleared := (faithful_concat_iff (earlier steps (List.prefix_refl _)) next).mp now
        refine ⟨earlier, List.IsChain.singleton _, ?_⟩
        intro last hlast other hother
        cases hother
        exact cleared last hlast
      · rintro ⟨earlier, -, cleared⟩
        refine ⟨earlier, ?_⟩
        apply (faithful_concat_iff (earlier steps (List.prefix_refl _)) next).mpr
        intro last hlast
        exact cleared last hlast next rfl
    · obtain ⟨-, -, silent⟩ := step?_quiet step quiet
      rw [silent, List.append_nil, ← ih]
      exact ⟨fun h => h.1, fun h => ⟨h, h steps (List.prefix_refl _)⟩⟩

theorem boardAgrees_iff_faithful {start m : Machine} {steps : List Step} {k : Nat}
    (served : start.Served k) (nothing : start.received k = [])
    (run : start.run? steps = some m) :
    (∀ last, (start.publications steps).getLast? = some last → m.BoardAgrees k last) ↔
      Faithful (start.publications steps) := by
  have pushes : m.received k = (start.publications steps).map Held.diagnostics := by
    rw [(served.received_of_run run).1, nothing, List.nil_append]
  constructor
  · intro agrees last h file
    have := agrees last h file
    rw [pushes, index_of_run run h] at this
    exact this
  · intro faithful last h file
    rw [pushes, index_of_run run h]
    exact faithful last h file

/-- A subscriber holds the diagnostics of the published index at every moment after a publication that it
was there for, exactly when each of these publications mentions all files that the one before it complains
about. Those that subscribed before it leave the table as it is, and none of their calls escapes. -/
theorem subscriber_board_agrees_iff (w : Workspace) (settings : Settings) {before after : List Step}
    {s : Subscriber} {m₀ m : Machine} (start : (initial w settings).run? before = some m₀)
    (considerate : ∀ other ∈ m₀.subscribers, other.Considerate)
    (run : m₀.run? (.subscribe s :: after) = some m) :
    (∀ upto m' last, upto <+: after → m₀.run? (.subscribe s :: upto) = some m' →
      (m₀.publications (.subscribe s :: upto)).getLast? = some last →
      m'.BoardAgrees m₀.subscribers.length last) ↔
    (m₀.publications (.subscribe s :: after)).IsChain Held.ClearedBy := by
  have subscribed : m₀.step? (.subscribe s) =
      some { m₀ with subscribers := m₀.subscribers ++ [s] } := rfl
  have served := served_subscribe considerate s
  have nothing : { m₀ with subscribers := m₀.subscribers ++ [s] }.received m₀.subscribers.length = [] :=
    received_of_absent start (Nat.le_refl _)
  generalize ({ m₀ with subscribers := m₀.subscribers ++ [s] } : Machine) = m₁
    at subscribed served nothing
  -- the step of subscribing publishes nothing
  have later : ∀ upto, m₀.publications (.subscribe s :: upto) = m₁.publications upto := by
    intro upto
    rw [publications, subscribed]
    rfl
  have runs : ∀ upto, m₀.run? (.subscribe s :: upto) = m₁.run? upto := by
    intro upto
    rw [run?_cons, subscribed]
    rfl
  rw [runs] at run
  simp only [runs, later]
  rw [← faithful_along_iff run]
  constructor
  · rintro agrees upto ⟨rest, rfl⟩
    rw [run?_append] at run
    obtain ⟨m', hm', -⟩ := Option.bind_eq_some_iff.mp run
    exact (boardAgrees_iff_faithful served nothing hm').mp fun last h =>
      agrees upto m' last (List.prefix_append ..) hm' h
  · intro faithful upto m' last h hm' hlast
    exact (boardAgrees_iff_faithful served nothing hm').mpr (faithful upto h) last hlast

/-! ## A file that is deleted -/

/-- The tree of `container.resolve('k');`. -/
def resolveTree : Code.Node :=
  .mk { kind := .other "program", start := 0, stop := 23 } [
    .mk { kind := .expressionStatement, start := 0, stop := 23 } [
      .mk { kind := .call, start := 0, stop := 22 } [
        .mk { kind := .memberAccess, start := 0, stop := 17, field := some .function } [
          .mk { kind := .identifier, start := 0, stop := 9, field := some .object } [],
          .mk { kind := .propertyIdentifier, start := 10, stop := 17, field := some .property } []],
        .mk { kind := .other "arguments", start := 17, stop := 22, field := some .arguments } [
          .mk { kind := .string, start := 18, stop := 21 } [
            .mk { kind := .other "string_fragment", start := 19, stop := 20 } []]]]]]

/-- The one file of a workspace. -/
def resolveFile : String × Entry :=
  ("a.js", .file (Utf8.encode "container.resolve('k');"))

/-- A folder `/w` with some entries. -/
def folderWith (entries : List (String × Entry)) : FileTree where
  root := .folder [("w", .folder entries)]
  cwd := some "/w"

/-- A workspace whose one file uses a key that nothing registers. -/
def resolving : Workspace where
  files := folderWith [resolveFile]
  parser _ _ := resolveTree

/-- Settings with the one root `/w`. -/
def rootedAtW : Settings := { roots := ["/w"] }

/-- Two direct calls, with a change of the files between them. -/
def rebuiltTwice (files : FileTree) : List Step :=
  [.call, .acquire (.call 0), .publish, .edit files, .call, .acquire (.call 1), .publish]

/-- A subscriber that never fails. -/
def watcher : Subscriber := ⟨"watcher", fun _ => false⟩

theorem run?_rebuiltTwice (w : Workspace) (files : FileTree) (settings : Settings) :
    ∃ m, (initial w settings).run? (.subscribe watcher :: rebuiltTwice files) = some m :=
  ⟨_, rfl⟩

/-- What a builder holds that has read the settings and the files of a workspace. -/
def heldBy (b : Builder) (w : Workspace) (settings : Settings) : Held :=
  ⟨b, settings, (build w settings).value.1, (build w settings).value.2⟩

theorem publications_rebuiltTwice (w : Workspace) (files : FileTree) (settings : Settings) :
    (initial w settings).publications (.subscribe watcher :: rebuiltTwice files) =
      [heldBy (.call 0) w settings, heldBy (.call 1) { w with files } settings] :=
  rfl

theorem findFiles_resolving :
    (Build.findFiles resolving.files rootedAtW).value = ["/w/a.js"] := by
  -- the search as a whole is too large a term to evaluate, its parts are not
  have folder : resolving.files.entry "/w" = .ok (.folder [resolveFile]) := rfl
  have names : (Survey.mk resolving.files rootedAtW).fileNames ⟨"/w", ""⟩ [resolveFile] =
      ["a.js"] := by decide +kernel
  have size : resolving.files.size "/w/a.js" = .ok 23 := by decide +kernel
  have accepted : (Survey.mk resolving.files rootedAtW).Accepts ⟨"/w", ""⟩ "a.js" :=
    ⟨by decide, by decide, 23, size, by decide⟩
  have found : (enumerate resolving.files rootedAtW "/w").outcome = .ok ["/w/a.js"] := by
    rw [outcome_enumerate_folder (by decide) folder, Survey.value_sourcesIn_folder _ _ (by decide),
      names, List.filter_singleton, decide_eq_true accepted]
    have nothing : ((Survey.mk resolving.files rootedAtW).sourcesBelow ⟨"/w", ""⟩
      [resolveFile]).value = [] := rfl
    rw [nothing]
    have path : Spot.entryPath ⟨"/w", ""⟩ "a.js" = "/w/a.js" := by decide
    simp [path]
  rw [Build.value_findFiles]
  show distinct ((Build.filesBelow resolving.files rootedAtW "/w").value ++ []) = _
  rw [Build.value_filesBelow, found]
  rfl

/-- The build complains about the file. -/
theorem complains_resolving :
    (build resolving rootedAtW).value.1.Complains rootedAtW.reportDuplicates "/w/a.js" := by
  have indexed : (FileIndex.ofFile resolving rootedAtW.containerNames "/w/a.js").value =
      { file := "/w/a.js", usages := [⟨"/w/a.js", ⟨⟨0, 18⟩, ⟨0, 21⟩⟩, "k", .resolveCall⟩] } := by
    decide +kernel
  refine .inl ⟨⟨"/w/a.js", ⟨⟨0, 18⟩, ⟨0, 21⟩⟩, "k", .resolveCall⟩, ?_, rfl, ?_⟩
  · rw [usages_build, findFiles_resolving, List.flatMap_singleton, indexed]
    exact List.mem_singleton_self _
  · have nothing := (summarises_build resolving rootedAtW).get?_keys "k"
    rw [findFiles_resolving, List.flatMap_singleton, indexed] at nothing
    rw [Table.has, nothing]
    rfl

/-- Once the file is gone, no build mentions it. -/
theorem not_mentions_deleted :
    ¬ (build { resolving with files := folderWith [] } rootedAtW).value.1.Mentions
      rootedAtW.reportDuplicates "/w/a.js" := by
  have usages : (build { resolving with files := folderWith [] } rootedAtW).value.1.usages = [] := by
    decide +kernel
  have duplicates :
      (build { resolving with files := folderWith [] } rootedAtW).value.1.duplicates = [] := by
    decide +kernel
  rintro (⟨u, mem, -⟩ | ⟨-, d, mem, -⟩)
  · rw [usages] at mem
    cases mem
  · rw [duplicates] at mem
    cases mem

/-- A subscriber whose second call fails. -/
def failingOnce : Subscriber := ⟨"failing", fun call => call == 1⟩

theorem considerate_failingOnce : failingOnce.Considerate := by
  intro call
  refine ⟨fun _ => rfl, ?_⟩
  show (if call == 1 then Ending.failed else Ending.returned) ≠ .escaped
  split <;> decide

/-- The board of a subscriber that comes behind a failing one agrees with the published index all along, if
and only if the build after the deletion clears the one before it. -/
theorem subscriber_board_agrees_iff_deleted :
    ∃ m₀ m, (initial resolving rootedAtW).run? [.subscribe failingOnce] = some m₀ ∧
      (∀ other ∈ m₀.subscribers, other.Considerate) ∧
      m₀.run? (.subscribe watcher :: rebuiltTwice (folderWith [])) = some m ∧
      ((∀ upto m' last, upto <+: rebuiltTwice (folderWith []) →
        m₀.run? (.subscribe watcher :: upto) = some m' →
        (m₀.publications (.subscribe watcher :: upto)).getLast? = some last →
        m'.BoardAgrees 1 last) ↔
      (m₀.publications (.subscribe watcher :: rebuiltTwice (folderWith []))).IsChain
        Held.ClearedBy) := by
  obtain ⟨m₀, m, start, there, run⟩ : ∃ m₀ m,
      (initial resolving rootedAtW).run? [.subscribe failingOnce] = some m₀ ∧
      m₀.subscribers = [failingOnce] ∧
      m₀.run? (.subscribe watcher :: rebuiltTwice (folderWith [])) = some m :=
    ⟨_, _, rfl, rfl, rfl⟩
  have considerate : ∀ other ∈ m₀.subscribers, other.Considerate := by
    rw [there]
    intro other mem
    rw [List.mem_singleton.mp mem]
    exact considerate_failingOnce
  have agrees := subscriber_board_agrees_iff resolving rootedAtW start considerate run
  rw [there] at agrees
  exact ⟨m₀, m, start, considerate, run, agrees⟩

/-- A file with an unregistered key is deleted between two builds. The second push does not name it, so
the board still shows its diagnostics; the published index has none. -/
theorem deleted_file_stays_on_board :
    ∃ m last,
      (initial resolving rootedAtW).run? (.subscribe watcher :: rebuiltTwice (folderWith [])) =
        some m ∧
      ((initial resolving rootedAtW).publications
        (.subscribe watcher :: rebuiltTwice (folderWith []))).getLast? = some last ∧
      shown (board (m.received 0)) "/w/a.js" ≠ [] ∧
      shown (m.index.diagnostics last.settings.reportDuplicates) "/w/a.js" = [] := by
  obtain ⟨m, run⟩ := run?_rebuiltTwice resolving (folderWith []) rootedAtW
  have builds := publications_rebuiltTwice resolving (folderWith []) rootedAtW
  generalize hfirst : heldBy (.call 0) resolving rootedAtW = first at builds
  generalize hsecond : heldBy (.call 1) { resolving with files := folderWith [] } rootedAtW = second
    at builds
  have complained : shown first.diagnostics "/w/a.js" ≠ [] := by
    rw [← hfirst]
    exact Index.shown_diagnostics_ne_nil_iff.mpr complains_resolving
  have named : first.diagnostics.has "/w/a.js" = true := by
    by_contra absent
    exact complained (shown_of_not_has absent)
  have unnamed : ¬ second.diagnostics.has "/w/a.js" = true := by
    rw [← hsecond]
    exact fun has => not_mentions_deleted (Index.has_diagnostics_iff.mp has)
  have latest : ((initial resolving rootedAtW).publications
      (.subscribe watcher :: rebuiltTwice (folderWith []))).getLast? = some second := by
    rw [builds]
    rfl
  refine ⟨m, second, run, latest, ?_, ?_⟩
  -- the watcher is there from the first step on and is given both pushes
  · have there : ({ initial resolving rootedAtW with subscribers := [watcher] } : Machine).run?
        (rebuiltTwice (folderWith [])) = some m := run
    have served : ({ initial resolving rootedAtW with subscribers := [watcher] } : Machine).Served 0 :=
      ⟨Nat.zero_lt_one, fun other mem => nomatch mem⟩
    have given : m.received 0 = [first.diagnostics] ++ [second.diagnostics] := by
      rw [(served.received_of_run there).1]
      exact congrArg (List.map Held.diagnostics) builds
    rw [given, shown_board_concat, if_neg unnamed, ← List.nil_append [first.diagnostics],
      shown_board_concat, if_pos named]
    exact complained
  · rw [index_of_run run latest]
    exact shown_of_not_has unnamed

end Machine

end ContainerKeys.Rebuild
