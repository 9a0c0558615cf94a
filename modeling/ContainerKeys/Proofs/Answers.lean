import ContainerKeys.Proofs.Accounts
import ContainerKeys.Proofs.DeclarationReads
import ContainerKeys.Proofs.FoundFiles
import ContainerKeys.Query

/-!
# Answers at a cursor

A cursor inside a usage of the index is answered from the index, whatever the text of its line: the first
usage there gives the key, and what is known of the key is its last registration. Where a definition is
declared may have to be looked up in another file. That file may be missing or broken, and then it alone is
the answer; but names in it that are no texts make the question fail.

* `keyUnder_first_usage` — the key under a cursor inside a usage, and what is known of it.
* `Index.findDefinition_answers_iff` — when the question where a key is bound has an answer.
-/

namespace ContainerKeys

/-! ## The first usage -/

/-- The usage is in the file, and the position is inside it. -/
def Usage.Covers (u : Usage) (file : Path) (p : Position) : Prop :=
  u.file = file ∧ u.range.start ≤ p ∧ p ≤ u.range.stop

theorem Usage.covers_iff {u : Usage} {file : Path} {p : Position} :
    (u.file = file && u.range.contains p) = true ↔ u.Covers file p := by
  rw [Bool.and_eq_true, decide_eq_true_eq, Range.contains_iff, Covers]

namespace Index

variable {index : Index} {files : FileTree} {w : Workspace} {c : CursorAt} {file : Path}

/-- Among usages that cover a position there is a first one. -/
theorem exists_usageAt? {r : Usage} {p : Position} (mem : r ∈ index.usages) (covers : r.Covers file p) :
    ∃ before first after, index.usages = before ++ first :: after ∧ first.Covers file p ∧
      (∀ u ∈ before, ¬ u.Covers file p) ∧ index.usageAt? file p = some first := by
  have some : (index.usageAt? file p).isSome = true := by
    unfold usageAt?
    rw [List.find?_isSome]
    exact ⟨r, mem, Usage.covers_iff.mpr covers⟩
  rcases Option.isSome_iff_exists.mp some with ⟨first, found⟩
  rcases List.find?_eq_some_iff_append.mp found with ⟨inside, before, after, split, none⟩
  refine ⟨before, first, after, split, Usage.covers_iff.mp inside, ?_, found⟩
  intro u hu covered
  have not := none u hu
  rw [Usage.covers_iff.mpr covered] at not
  cases not

/-- A cursor inside a usage is answered from the index. -/
theorem outcome_keyUnder_of_usage {u : Usage} (absolute : files.absolute c.file = .ok file)
    (found : index.usageAt? file c.position = some u) :
    (index.keyUnder files c).outcome = .ok (some ⟨u.key, u.range⟩) := by
  unfold keyUnder
  rw [Attempt.outcome_bind, Attempt.outcome_ofExcept, absolute]
  simp only [bind, Except.bind, found]
  rfl

theorem outcome_hover_of_keyUnder {found : KeyAt} (h : (index.keyUnder files c).outcome = .ok (some found)) :
    (index.hover files c).outcome =
      .ok ((index.lookup found.key).map fun d => ⟨found.key, d, found.range⟩) := by
  unfold hover
  rw [Attempt.outcome_bind, h]
  rfl

end Index

/-- The registrations of a build, one file after another. -/
def Build.registrations (w : Workspace) (settings : Settings) : List Definition :=
  (Build.results w settings).flatMap (·.registrations)

theorem lookup_build (w : Workspace) (settings : Settings) (key : String) :
    (build w settings).value.1.lookup key = lastOf? key (Build.registrations w settings) := by
  have known := summarises_build w settings
  rw [Build.value_findFiles_eq_distinct] at known
  unfold Index.lookup Build.registrations Build.results
  rw [known.get?_keys, List.flatMap_map]

/-- What stands last under a key is its last registration. -/
theorem lastOf?_append_cons {key : String} {earlier later : List Definition} {d : Definition}
    (called : d.key = key) (none : ∀ e ∈ later, e.key ≠ key) :
    lastOf? key (earlier ++ d :: later) = some d := by
  rw [← List.singleton_append, ← List.append_assoc, lastOf?_append, lastOf?_eq_none_iff.mpr none,
    lastOf?_append_singleton, if_pos called]
  rfl

/-- The path of a usage is the file's own: as a question it is not changed. -/
theorem absolute_file_of_mem_usages {w : Workspace} {settings : Settings} {r : Usage}
    (mem : r ∈ (build w settings).value.1.usages) (tidy : w.files.root.Tidy)
    (named : w.files.root.WellNamed) (rooted : w.files.Rooted) : w.files.absolute r.file = .ok r.file := by
  rw [usages_build, List.mem_flatMap] at mem
  rcases mem with ⟨file, found, used⟩
  have own : r.file = file := (FileIndex.becomes_ofFile w settings.containerNames file).bears.2 r used
  rcases Build.exists_normal_of_mem_findFiles tidy named rooted found with ⟨n, -, -, -, -, path, -⟩
  rw [own, path]
  exact FileTree.absolute_path w.files n

/-- With a cursor inside a usage of a build, however its file is spelled and whatever the line is said to
be, the first usage there that the build met gives the key under the cursor. If the key is registered,
what is known of it is its last registration in the build. In a proper file tree the path of the usage is
itself such a spelling. -/
theorem keyUnder_first_usage {w : Workspace} {settings : Settings} {r : Usage} {c : CursorAt}
    (mem : r ∈ (build w settings).value.1.usages) (absolute : w.files.absolute c.file = .ok r.file)
    (inside : r.range.start ≤ c.position ∧ c.position ≤ r.range.stop) :
    let index := (build w settings).value.1
    (w.files.root.Tidy → w.files.root.WellNamed → w.files.Rooted → w.files.absolute r.file = .ok r.file) ∧
    ∃ before first after,
      index.usages = before ++ first :: after ∧
      first.Covers r.file c.position ∧ (∀ u ∈ before, ¬ u.Covers r.file c.position) ∧
      ((∀ u ∈ index.usages, u.Covers r.file c.position → u = r) → first = r) ∧
      (index.keyUnder w.files c).outcome = .ok (some ⟨first.key, first.range⟩) ∧
      (∀ earlier d later, Build.registrations w settings = earlier ++ d :: later → d.key = first.key →
        (∀ e ∈ later, e.key ≠ first.key) →
          (index.hover w.files c).outcome = .ok (some ⟨first.key, d, first.range⟩)) ∧
      ((∀ d ∈ Build.registrations w settings, d.key ≠ first.key) →
        (index.hover w.files c).outcome = .ok none) := by
  intro index
  refine ⟨absolute_file_of_mem_usages mem, ?_⟩
  -- the usage itself is a candidate, so the search for the first one does not come back empty
  rcases Index.exists_usageAt? mem ⟨rfl, inside⟩ with ⟨before, first, after, split, covers, none, found⟩
  have key := Index.outcome_keyUnder_of_usage absolute found
  have hover := Index.outcome_hover_of_keyUnder key
  rw [lookup_build] at hover
  refine ⟨before, first, after, split, covers, none, ?_, key, ?_, ?_⟩
  · intro alone
    have listed : first ∈ index.usages := by
      rw [split]
      exact List.mem_append_right _ List.mem_cons_self
    exact alone first listed covers
  · intro earlier d later registered called last
    rw [hover, registered, lastOf?_append_cons called last]
    rfl
  · intro unregistered
    rw [hover, lastOf?_eq_none_iff.mpr unregistered]
    rfl

/-- The tree of `container.register({k:1,k:2});container.cradle.k;`. -/
def registerTree : Code.Node :=
  .mk { kind := .other "program", start := 0, stop := 49 } [
    .mk { kind := .expressionStatement, start := 0, stop := 30 } [
      .mk { kind := .call, start := 0, stop := 29 } [
        .mk { kind := .memberAccess, start := 0, stop := 18, field := some .function } [
          .mk { kind := .identifier, start := 0, stop := 9, field := some .object } [],
          .mk { kind := .propertyIdentifier, start := 10, stop := 18, field := some .property } []],
        .mk { kind := .other "arguments", start := 18, stop := 29, field := some .arguments } [
          .mk { kind := .object, start := 19, stop := 28 } [
            .mk { kind := .pair, start := 20, stop := 23 } [
              .mk { kind := .propertyIdentifier, start := 20, stop := 21, field := some .key } [],
              .mk { kind := .other "number", start := 22, stop := 23, field := some .value } []],
            .mk { kind := .pair, start := 24, stop := 27 } [
              .mk { kind := .propertyIdentifier, start := 24, stop := 25, field := some .key } [],
              .mk { kind := .other "number", start := 26, stop := 27, field := some .value } []]]]]],
    .mk { kind := .expressionStatement, start := 30, stop := 49 } [
      .mk { kind := .memberAccess, start := 30, stop := 48 } [
        .mk { kind := .memberAccess, start := 30, stop := 46, field := some .object } [
          .mk { kind := .identifier, start := 30, stop := 39, field := some .object } [],
          .mk { kind := .propertyIdentifier, start := 40, stop := 46, field := some .property } []],
        .mk { kind := .propertyIdentifier, start := 47, stop := 48, field := some .property } []]]]

theorem absolute_oneFile (bytes : Bytes) (tree : Code.Node) :
    (oneFile bytes tree).files.absolute "./a.js" = .ok "/w/a.js" := by
  rfl

/-- A workspace whose one file registers a key twice and uses it once. -/
def twiceRegistered : Workspace :=
  oneFile (Utf8.encode "container.register({k:1,k:2});container.cradle.k;") registerTree

/-- The registration of the key with a value on the first line. -/
def valueAt (key value : Range) : Definition :=
  ⟨"k", .asValue, none, "/w/a.js", none, some value, "/w/a.js", some key⟩

theorem ofFile_twiceRegistered :
    (FileIndex.ofFile twiceRegistered ["container"] "/w/a.js").value =
      { file := "/w/a.js"
        registrations := [valueAt ⟨⟨0, 20⟩, ⟨0, 21⟩⟩ ⟨⟨0, 22⟩, ⟨0, 23⟩⟩,
          valueAt ⟨⟨0, 24⟩, ⟨0, 25⟩⟩ ⟨⟨0, 26⟩, ⟨0, 27⟩⟩]
        usages := [⟨"/w/a.js", ⟨⟨0, 47⟩, ⟨0, 48⟩⟩, "k", .cradleAccess⟩] } := by
  decide +kernel

theorem results_twiceRegistered :
    Build.results twiceRegistered (rootedAt ["/w"]) =
      [(FileIndex.ofFile twiceRegistered ["container"] "/w/a.js").value] := by
  have small : (Utf8.encode "container.register({k:1,k:2});container.cradle.k;").length ≤ 1000000 := by
    have length : (Utf8.encode "container.register({k:1,k:2});container.cradle.k;").length = 49 := by
      decide +kernel
    omega
  have found : (Build.findFiles twiceRegistered.files (rootedAt ["/w"])).value = ["/w/a.js"] := by
    rw [Build.value_findFiles]
    show distinct ((Build.filesBelow twiceRegistered.files _ "/w").value ++ []) = _
    rw [twiceRegistered, value_filesBelow_oneSlash small]
    rfl
  rw [Build.results, ← Build.value_findFiles_eq_distinct, found]
  rfl

/-- The second registration is shown, also where the file is given from its directory and the line is said
to be empty. -/
theorem keyUnder_first_usage_registered :
    let usage : Usage := ⟨"/w/a.js", ⟨⟨0, 47⟩, ⟨0, 48⟩⟩, "k", .cradleAccess⟩
    let c : CursorAt := ⟨"./a.js", ⟨0, 48⟩, some ""⟩
    let index := (build twiceRegistered (rootedAt ["/w"])).value.1
    usage ∈ index.usages ∧ twiceRegistered.files.absolute c.file = .ok usage.file ∧
      (usage.range.start ≤ c.position ∧ c.position ≤ usage.range.stop) ∧
      (index.keyUnder twiceRegistered.files c).outcome = .ok (some ⟨"k", usage.range⟩) ∧
      (index.hover twiceRegistered.files c).outcome =
        .ok (some ⟨"k", valueAt ⟨⟨0, 24⟩, ⟨0, 25⟩⟩ ⟨⟨0, 26⟩, ⟨0, 27⟩⟩, usage.range⟩) := by
  intro usage c index
  have usages : index.usages = [usage] := by
    show (build twiceRegistered (rootedAt ["/w"])).value.1.usages = [usage]
    rw [value_build_fst_eq_mergeAll, Index.usages_mergeAll, results_twiceRegistered, List.flatMap_singleton,
      ofFile_twiceRegistered]
    rfl
  have registrations : Build.registrations twiceRegistered (rootedAt ["/w"]) =
      [valueAt ⟨⟨0, 20⟩, ⟨0, 21⟩⟩ ⟨⟨0, 22⟩, ⟨0, 23⟩⟩, valueAt ⟨⟨0, 24⟩, ⟨0, 25⟩⟩ ⟨⟨0, 26⟩, ⟨0, 27⟩⟩] := by
    rw [Build.registrations, results_twiceRegistered, List.flatMap_singleton, ofFile_twiceRegistered]
  have mem : usage ∈ index.usages := usages ▸ List.mem_singleton_self usage
  have absolute : twiceRegistered.files.absolute c.file = .ok usage.file := absolute_oneFile _ _
  have inside : usage.range.start ≤ c.position ∧ c.position ≤ usage.range.stop := by decide
  rcases keyUnder_first_usage mem absolute inside with
    ⟨-, before, first, after, -, -, -, alone, key, known, -⟩
  have only : first = usage := by
    apply alone
    intro u hu _
    exact List.mem_singleton.mp (usages ▸ hu)
  rw [only] at key known
  refine ⟨mem, absolute, inside, key, ?_⟩
  exact known [_] _ [] registrations rfl (by simp)

/-! ## Where a key is bound -/

namespace PathFault

theorem succeeds_checkNull {p : Path} : Succeeds (checkNull p) ↔ '\x00' ∉ p.toList := by
  unfold checkNull
  by_cases null : '\x00' ∈ p.toList
  · simp [null]
  · simp [null]

end PathFault

/-- A line can be read of any path that can be handed to the file system. -/
theorem succeeds_readLine {files : FileTree} {file : Path} {line : Int} :
    Succeeds (readLine files file line).outcome ↔ '\x00' ∉ file.toList := by
  unfold readLine
  rw [Attempt.outcome_bind, Attempt.outcome_ofExcept, succeeds_bind_iff, PathFault.succeeds_checkNull]
  constructor
  · exact And.left
  · intro proper
    refine ⟨proper, ?_⟩
    intro _ _
    cases files.read file with
    | error fault => exact ⟨none, rfl⟩
    | ok bytes =>
      by_cases negative : line < 0
      · exact ⟨none, by simp [negative]⟩
      · simp [negative]

theorem PathFault.checkNull_eq_ok {p : Path} (proper : '\x00' ∉ p.toList) : checkNull p = .ok () := by
  rcases succeeds_checkNull.mpr proper with ⟨_, checked⟩
  exact checked

namespace Declaration

variable {w : Workspace} {file : Path} {exportName : Option String}

/-- A file that cannot be read or parsed declares nothing. -/
theorem outcome_locate_of_error {fault : SourceFault} (proper : '\x00' ∉ file.toList)
    (loaded : w.load file = .error fault) : (locate w file exportName).outcome = .ok none := by
  unfold locate
  rw [Attempt.outcome_bind, Attempt.outcome_ofExcept, PathFault.checkNull_eq_ok proper, loaded]
  rfl

theorem outcome_locate_of_ok {bytes : Bytes} {root : Code.Node} (proper : '\x00' ∉ file.toList)
    (loaded : w.load file = .ok (bytes, root)) :
    (locate w file exportName).outcome =
      (fun node => node.map (·.range bytes)) <$> (find bytes root exportName).mapError .undecodable := by
  unfold locate
  rw [Attempt.outcome_bind, Attempt.outcome_ofExcept, PathFault.checkNull_eq_ok proper, loaded]
  show (Attempt.ofExcept ((find bytes root exportName).mapError Fault.undecodable) >>= _).outcome = _
  rw [Attempt.outcome_bind, Attempt.outcome_ofExcept]
  cases find bytes root exportName with
  | error fault => rfl
  | ok node => rfl

/-- A declaration can be looked up in any file, read or not, of which all that is read are texts. -/
theorem succeeds_locate :
    Succeeds (locate w file exportName).outcome ↔
      '\x00' ∉ file.toList ∧ ∀ bytes root, w.load file = .ok (bytes, root) →
        ∀ n, Reads bytes root exportName n → Readable bytes n := by
  by_cases proper : '\x00' ∉ file.toList
  · cases loaded : w.load file with
    | error fault =>
      rw [outcome_locate_of_error proper loaded]
      simp [proper]
    | ok pair =>
      rw [outcome_locate_of_ok proper loaded, succeeds_map_iff, succeeds_mapError, succeeds_find_iff]
      constructor
      · intro h
        refine ⟨proper, ?_⟩
        rintro bytes root ⟨⟩
        exact h
      · rintro ⟨-, h⟩
        exact h _ _ rfl
  · have refused : ¬ Succeeds (locate w file exportName).outcome := by
      unfold locate
      rw [Attempt.outcome_bind, Attempt.outcome_ofExcept, succeeds_bind_iff, succeeds_mapError,
        PathFault.succeeds_checkNull]
      exact fun h => proper h.1
    constructor
    · intro h
      exact absurd h refused
    · rintro ⟨h, -⟩
      exact absurd h proper

end Declaration

namespace Index

variable {index : Index} {files : FileTree} {w : Workspace} {c : CursorAt}

theorem succeeds_lineAt :
    Succeeds (lineAt files c).outcome ↔
      (c.lineText = none → ∃ file, files.absolute c.file = .ok file ∧ '\x00' ∉ file.toList) := by
  unfold lineAt
  cases c.lineText with
  | some text => simp
  | none =>
    rw [Attempt.outcome_bind, Attempt.outcome_ofExcept, succeeds_bind_iff]
    simp only [succeeds_readLine, forall_const]
    constructor
    · rintro ⟨⟨file, absolute⟩, proper⟩
      exact ⟨file, absolute, proper file absolute⟩
    · rintro ⟨file, absolute, proper⟩
      refine ⟨⟨file, absolute⟩, ?_⟩
      intro file' absolute'
      rw [absolute] at absolute'
      cases absolute'
      exact proper

/-- A cursor can be asked about if its file can be made absolute, and if it can be read where the line is
needed but not given. -/
theorem succeeds_keyUnder :
    Succeeds (index.keyUnder files c).outcome ↔
      ∃ file, files.absolute c.file = .ok file ∧
        (index.usageAt? file c.position = none → c.lineText = none → '\x00' ∉ file.toList) := by
  unfold keyUnder
  rw [Attempt.outcome_bind, Attempt.outcome_ofExcept, succeeds_bind_iff]
  constructor
  · rintro ⟨⟨file, absolute⟩, later⟩
    refine ⟨file, absolute, ?_⟩
    intro none noText
    have line := later file absolute
    simp only [none] at line
    rw [Attempt.outcome_bind, succeeds_bind_iff] at line
    rcases succeeds_lineAt.mp line.1 noText with ⟨file', absolute', proper⟩
    rw [absolute] at absolute'
    cases absolute'
    exact proper
  · rintro ⟨file, absolute, proper⟩
    refine ⟨⟨file, absolute⟩, ?_⟩
    intro file' absolute'
    rw [absolute] at absolute'
    cases absolute'
    cases found : index.usageAt? file c.position with
    | some usage => exact ⟨some ⟨usage.key, usage.range⟩, rfl⟩
    | none =>
      rw [Attempt.outcome_bind, succeeds_bind_iff]
      refine ⟨succeeds_lineAt.mpr fun noText => ⟨file, absolute, proper found noText⟩, ?_⟩
      intro line _
      exact ⟨_, rfl⟩

/-- What is asked once the key under the cursor is known. -/
theorem outcome_findDefinition {found : Option KeyAt} (key : (index.keyUnder w.files c).outcome = .ok found) :
    (index.findDefinition w c).outcome =
      match found.bind fun k => index.lookup k.key with
      | none => .ok none
      | some d =>
        match d.range with
        | some range => .ok (some ⟨d.originFile, some range⟩)
        | none => (fun range => some ⟨d.originFile, range⟩) <$>
            (Declaration.locate w d.originFile d.exportName).outcome := by
  have key' : Attempt.outcome (ExceptT.adapt Declaration.Fault.path (index.keyUnder w.files c)) = .ok found :=
    Attempt.outcome_adapt_eq_ok.mpr key
  unfold findDefinition
  rw [Attempt.outcome_bind, key']
  cases found with
  | none => rfl
  | some found =>
    show Attempt.outcome (match index.lookup found.key with
      | none => _
      | some d => _) = match index.lookup found.key with
      | none => _
      | some d => _
    cases index.lookup found.key with
    | none => rfl
    | some d =>
      dsimp only
      cases d.range with
      | some range => rfl
      | none =>
        show (Declaration.locate w d.originFile d.exportName >>= _).outcome = _
        rw [Attempt.outcome_bind]
        rfl

/-- The definition of the key under the cursor. -/
def Binds (index : Index) (files : FileTree) (c : CursorAt) (d : Definition) : Prop :=
  ∃ found, (index.keyUnder files c).outcome = .ok (some found) ∧ index.lookup found.key = some d

theorem Binds.outcome_findDefinition {d : Definition} (binds : index.Binds w.files c d) :
    (index.findDefinition w c).outcome =
      match d.range with
      | some range => .ok (some ⟨d.originFile, some range⟩)
      | none => (fun range => some ⟨d.originFile, range⟩) <$>
          (Declaration.locate w d.originFile d.exportName).outcome := by
  rcases binds with ⟨found, key, known⟩
  rw [Index.outcome_findDefinition key, Option.bind_some, known]

/-- The question fails only where the cursor cannot be asked about or the declaration cannot be looked
up. -/
theorem succeeds_findDefinition :
    Succeeds (index.findDefinition w c).outcome ↔
      Succeeds (index.keyUnder w.files c).outcome ∧
        ∀ d, index.Binds w.files c d → d.range = none →
          Succeeds (Declaration.locate w d.originFile d.exportName).outcome := by
  constructor
  · intro h
    constructor
    · have first := h
      unfold findDefinition at first
      rw [Attempt.outcome_bind, succeeds_bind_iff] at first
      exact succeeds_adapt.mp first.1
    · intro d binds unknown
      rw [binds.outcome_findDefinition, unknown] at h
      exact succeeds_map_iff.mp h
  -- where there is no definition, or its range is known, nothing is looked up
  · rintro ⟨⟨found, key⟩, later⟩
    rw [outcome_findDefinition key]
    cases known : found.bind fun k => index.lookup k.key with
    | none => simp
    | some d =>
      rcases Option.bind_eq_some_iff.mp known with ⟨k, rfl, registered⟩
      have located := later d ⟨k, key, registered⟩
      dsimp only
      cases range : d.range with
      | some range => simp
      | none => exact succeeds_map_iff.mpr (located range)

/-- The question where the key under a cursor is bound has an answer just if the cursor can be asked about
and, should the definition have to be looked up in its file, that file has a proper path and all that is
read off it are texts. A file that cannot be read or parsed, or does not declare what is looked for, is then
the answer without a range. -/
theorem findDefinition_answers_iff (index : Index) (w : Workspace) (c : CursorAt) :
    (Succeeds (index.findDefinition w c).outcome ↔
      (∃ file, w.files.absolute c.file = .ok file ∧
        (index.usageAt? file c.position = none → c.lineText = none → '\x00' ∉ file.toList)) ∧
      ∀ d, index.Binds w.files c d → d.range = none → '\x00' ∉ d.originFile.toList ∧
        ∀ bytes root, w.load d.originFile = .ok (bytes, root) →
          ∀ n, Declaration.Reads bytes root d.exportName n → Declaration.Readable bytes n) ∧
    (∀ d, index.Binds w.files c d → d.range = none → '\x00' ∉ d.originFile.toList →
      ((∃ fault, w.load d.originFile = .error fault) ∨
        ∃ bytes root, w.load d.originFile = .ok (bytes, root) ∧
          Declaration.Lacks bytes root d.exportName ∧
          ∀ n, Declaration.Reads bytes root d.exportName n → Declaration.Readable bytes n) →
      (index.findDefinition w c).outcome = .ok (some ⟨d.originFile, none⟩)) ∧
    (∀ d range, index.Binds w.files c d → d.range = some range →
      (index.findDefinition w c).outcome = .ok (some ⟨d.originFile, some range⟩)) := by
  refine ⟨?_, ?_, ?_⟩
  · rw [succeeds_findDefinition, succeeds_keyUnder]
    simp only [Declaration.succeeds_locate]
  · intro d binds unknown proper nothing
    have located : (Declaration.locate w d.originFile d.exportName).outcome = .ok none := by
      rcases nothing with ⟨fault, loaded⟩ | ⟨bytes, root, loaded, lacks, readable⟩
      · exact Declaration.outcome_locate_of_error proper loaded
      · rw [Declaration.outcome_locate_of_ok proper loaded, Declaration.find_of_lacks lacks readable]
        rfl
    rw [binds.outcome_findDefinition, unknown, located]
    rfl
  · intro d range binds known
    rw [binds.outcome_findDefinition, known]

end Index

/-! ## A file with bytes that are no text -/

/-- The bytes of `module.exports = '?'; exports['?'] = 2;`, with bytes in place of the question marks that
are no characters. -/
def undecodable : Bytes :=
  Utf8.encode "module.exports = '" ++ [0xFF] ++ Utf8.encode "'; exports['" ++ [0xC3] ++ Utf8.encode "'] = 2;"

/-- The tree of it. -/
def undecodableTree : Code.Node :=
  .mk { kind := .other "program", start := 0, stop := 39 } [
    .mk { kind := .expressionStatement, start := 0, stop := 21 } [
      .mk { kind := .assignment, start := 0, stop := 20 } [
        .mk { kind := .memberAccess, start := 0, stop := 14, field := some .left } [
          .mk { kind := .identifier, start := 0, stop := 6, field := some .object } [],
          .mk { kind := .propertyIdentifier, start := 7, stop := 14, field := some .property } []],
        .mk { kind := .string, start := 17, stop := 20, field := some .right } [
          .mk { kind := .other "string_fragment", start := 18, stop := 19 } []]]],
    .mk { kind := .expressionStatement, start := 22, stop := 39 } [
      .mk { kind := .assignment, start := 22, stop := 38 } [
        .mk { kind := .other "subscript_expression", start := 22, stop := 34, field := some .left } [
          .mk { kind := .identifier, start := 22, stop := 29, field := some .object } [],
          .mk { kind := .string, start := 30, stop := 33, field := some (.other "index") } [
            .mk { kind := .other "string_fragment", start := 31, stop := 32 } []]],
        .mk { kind := .other "number", start := 37, stop := 38, field := some .right } []]]]

/-- A workspace with the files that are given. -/
def holding (files : List (String × Bytes)) : Workspace where
  files := flat files
  parser _ _ := undecodableTree

/-- A class that is bound to a key, and declared in `/w/m.js`. -/
def elsewhere : Definition :=
  ⟨"k", .asClass, none, "/w/m.js", none, none, "/w/a.js", some ⟨⟨0, 47⟩, ⟨0, 48⟩⟩⟩

/-- An index with one usage of the key. -/
def indexOfElsewhere : Index :=
  ⟨Table.empty.put "k" elsewhere, [⟨"/w/a.js", ⟨⟨0, 83⟩, ⟨0, 86⟩⟩, "k", .resolveCall⟩], []⟩

/-- The cursor in that usage. -/
def inElsewhere : CursorAt := ⟨"/w/a.js", ⟨0, 84⟩, none⟩

theorem binds_elsewhere (files : List (String × Bytes)) :
    indexOfElsewhere.Binds (holding files).files inElsewhere elsewhere := by
  have absolute : (holding files).files.absolute inElsewhere.file = .ok "/w/a.js" := rfl
  have used : indexOfElsewhere.usageAt? "/w/a.js" inElsewhere.position =
      some ⟨"/w/a.js", ⟨⟨0, 83⟩, ⟨0, 86⟩⟩, "k", .resolveCall⟩ := by decide
  exact ⟨_, Index.outcome_keyUnder_of_usage absolute used, by decide⟩

/-- Bytes that are no text, in a file that is only looked into for a declaration, make the question fail. -/
theorem findDefinition_fails_undecodable :
    (indexOfElsewhere.findDefinition (holding [("m.js", undecodable)]) inElsewhere).outcome =
      .error (.undecodable ⟨0xC3, 9, 10, .continuation⟩) := by
  have loaded : (holding [("m.js", undecodable)]).load elsewhere.originFile =
      .ok (undecodable, undecodableTree) := by decide +kernel
  have broken : Declaration.find undecodable undecodableTree none = .error ⟨0xC3, 9, 10, .continuation⟩ := by
    decide +kernel
  have located : (Declaration.locate (holding [("m.js", undecodable)]) elsewhere.originFile
      elsewhere.exportName).outcome = .error (.undecodable ⟨0xC3, 9, 10, .continuation⟩) := by
    rw [Declaration.outcome_locate_of_ok (by decide) loaded, show elsewhere.exportName = none from rfl, broken]
    rfl
  rw [(binds_elsewhere _).outcome_findDefinition, show elsewhere.range = none from rfl, located]
  rfl

/-- Without the file, its path is the answer. -/
theorem findDefinition_answers_iff_missing :
    indexOfElsewhere.Binds (holding []).files inElsewhere elsewhere ∧ elsewhere.range = none ∧
      '\x00' ∉ elsewhere.originFile.toList ∧ (∃ fault, (holding []).load elsewhere.originFile = .error fault) ∧
      Succeeds (indexOfElsewhere.findDefinition (holding []) inElsewhere).outcome ∧
      (indexOfElsewhere.findDefinition (holding []) inElsewhere).outcome = .ok (some ⟨"/w/m.js", none⟩) := by
  have missing : (holding []).load elsewhere.originFile = .error (.unreadable ⟨.notFound, "/w/m.js"⟩) := by
    decide
  rcases Index.findDefinition_answers_iff indexOfElsewhere (holding []) inElsewhere with ⟨-, alone, -⟩
  have answer := alone elsewhere (binds_elsewhere []) rfl (by decide) (Or.inl ⟨_, missing⟩)
  exact ⟨binds_elsewhere [], rfl, by decide, ⟨_, missing⟩, ⟨_, answer⟩, answer⟩

end ContainerKeys
