import ContainerKeys.Proofs.Contributions
import ContainerKeys.Proofs.Names
import Mathlib.Data.List.Forall2

/-!
# Where definitions are declared

A definition is declared in the file that makes the registration, and then its place there is known, or in
another file, and then the symbol that it binds is imported from there. Either file exists.

* `Resolution.isFile_of_resolve` — a specifier stands for nothing but files.
* `Origin.ImportedFrom` — a symbol comes from a module.
* `Definition.Located` — the definition of a draft has its place.
* `definitions_located` — all definitions have.
-/

namespace ContainerKeys

open Code

/-! ## Files that specifiers stand for -/

namespace Resolution

variable {files : FileTree} {q : Path}

theorem isFile_of_resolveInside {package : Path} {subpath : String}
    (h : (resolveInside files package subpath).outcome = .ok (some q)) : files.isFile q = true := by
  unfold resolveInside at h
  split at h
  · rw [outcome_resolveMain] at h
    rcases except_map_eq_ok h with ⟨main, -, found⟩
    exact List.find?_some found.symm
  · have found : probe files (Path.join package subpath) = some q := Except.ok.inj h
    rw [probe_eq_find?] at found
    exact List.find?_some found

theorem isFile_of_searchFolders {name subpath : String} {folders : List Path}
    (h : (searchFolders files name subpath folders).outcome = .ok (some q)) : files.isFile q = true := by
  induction folders with
  | nil => cases h
  | cons folder rest ih =>
    rw [outcome_searchFolders_cons] at h
    split at h
    · split at h
      · exact ih h
      · exact isFile_of_resolveInside h
    · exact ih h

/-- What a specifier stands for is a file. -/
theorem isFile_of_resolve {specifier : String} {importer : Path}
    (h : (resolve files specifier importer).outcome = .ok (some q)) : files.isFile q = true := by
  rw [outcome_resolve] at h
  split at h
  · exact List.find?_some (Except.ok.inj h)
  · split at h
    · cases h
    · exact isFile_of_searchFolders h

end Resolution

/-! ## Symbols that are imported -/

namespace Origin

variable {files : FileTree} {source : Bytes} {imports : ImportTable} {file : Path} {origin : Origin}

/-- The import that binds a symbol: a name by itself, or a member of a name that stands for a whole module or
its default export. -/
inductive BoundBy (source : Bytes) (imports : ImportTable) : Node → Binding → Prop
  | name {symbol : Node} {name : String} {binding : Binding} (identifier : symbol.isIdentifier = true)
      (spelled : symbol.name source = .ok name) (bound : imports.get? name = some binding) :
      BoundBy source imports symbol binding
  | member {symbol object : Node} {property name : String} {binding : Binding}
      (accessed : symbol.memberName source = .ok (some property))
      (child : symbol.child? .object = some object) (identifier : object.isIdentifier = true)
      (spelled : object.name source = .ok name) (bound : imports.get? name = some binding)
      (whole : binding.isNamespace = true ∨ binding.exported = none) :
      BoundBy source imports symbol binding

/-- The symbol that a registration binds comes from a module: the specifier of its import stands for it. -/
def ImportedFrom (files : FileTree) (source : Bytes) (imports : ImportTable) (file : Path)
    (bound : Option Node) (module : Path) : Prop :=
  ∃ symbol binding, bound = some symbol ∧ BoundBy source imports symbol binding ∧
    (Resolution.resolve files binding.specifier file).outcome = .ok (some module)

theorem boundBy_of_memberBinding {symbol : Node} {binding : Binding} {property : String}
    (h : memberBinding source imports symbol = .ok (some (binding, property))) :
    BoundBy source imports symbol binding := by
  unfold memberBinding at h
  rcases except_bind_eq_ok.mp h with ⟨member, accessed, rest⟩
  split at rest
  · rename_i object child
    split at rest
    · rename_i shape
      rcases except_bind_eq_ok.mp rest with ⟨name, spelled, looked⟩
      split at looked
      · rename_i bound
        split at looked
        · rename_i whole
          cases looked
          exact .member accessed child shape.2 spelled bound whole
        · cases looked
      · cases looked
    · cases rest
  · cases rest

/-- A module that resolves is the origin, and the place in it is not known. -/
theorem resolved_of_ofBinding {binding : Binding} {exported : Option String} {localName : String}
    (h : (ofBinding files file binding exported localName).outcome = .ok origin) :
    origin.file = file ∨ origin.range = none ∧
      (Resolution.resolve files binding.specifier file).outcome = .ok (some origin.file) := by
  rcases Attempt.outcome_bind_eq_ok.mp h with ⟨found, resolved, rest⟩
  cases found with
  | some module =>
    cases rest
    exact Or.inr ⟨rfl, resolved⟩
  | none =>
    rcases Attempt.outcome_bind_eq_ok.mp rest with ⟨noted, -, rest⟩
    cases rest
    exact Or.inl rfl

/-- The origin is the file itself, or the symbol is imported from it and its place is not known. -/
theorem imported_of_ofBound {bound : Option Node}
    (h : (ofBound files source imports file bound).outcome = .ok origin) :
    origin.file = file ∨ origin.range = none ∧
      ImportedFrom files source imports file bound origin.file := by
  cases bound with
  | none =>
    cases h
    exact Or.inl rfl
  | some symbol =>
    have imported {binding : Binding} {exported : Option String} {localName : String}
        (bound : BoundBy source imports symbol binding)
        (given : Attempt.outcome (ExceptT.adapt Fault.tooDeep
          (ofBinding files file binding exported localName)) = .ok origin) :
        origin.file = file ∨ origin.range = none ∧
          ImportedFrom files source imports file (some symbol) origin.file := by
      rcases resolved_of_ofBinding (Attempt.outcome_adapt_eq_ok.mp given) with same | ⟨range, resolved⟩
      · exact Or.inl same
      · exact Or.inr ⟨range, symbol, binding, rfl, bound, resolved⟩
    rw [ofBound] at h
    split at h
    · rename_i identifier
      rcases Attempt.outcome_bind_eq_ok.mp h with ⟨name, spelled, rest⟩
      split at rest
      · rename_i binding bound
        exact imported (.name identifier (except_mapError_eq_ok.mp spelled) bound) rest
      · cases rest
        exact Or.inl rfl
    · rcases Attempt.outcome_bind_eq_ok.mp h with ⟨member, accessed, rest⟩
      split at rest
      · exact imported (boundBy_of_memberBinding (except_mapError_eq_ok.mp accessed)) rest
      · cases rest
        exact Or.inl rfl

end Origin

/-! ## Definitions -/

/-- The definition of a draft has its place: it is known where the key is registered, and where the symbol is
declared exactly if that is the same file; another file exists and the symbol is imported from it. -/
structure Definition.Located (files : FileTree) (x : Indexer) (imports : ImportTable) (draft : Draft)
    (d : Definition) : Prop where
  registeredIn : d.registeredIn = x.file
  registrationRange : d.registrationRange = some (draft.keyNode.range x.source)
  range : d.range = none ↔ d.originFile ≠ d.registeredIn
  imported : d.originFile ≠ d.registeredIn →
    files.isFile d.originFile = true ∧
      ∃ registration, Registration.ofValue x.source draft.value = .ok registration ∧
        Origin.ImportedFrom files x.source imports d.registeredIn registration.bound d.originFile

theorem Indexer.located_define {x : Indexer} {files : FileTree} {imports : ImportTable} {draft : Draft}
    {d : Definition} (h : (x.define files imports draft).outcome = .ok d) :
    d.Located files x imports draft := by
  unfold define at h
  rcases Attempt.outcome_bind_eq_ok.mp h with ⟨registration, read, h⟩
  rcases Attempt.outcome_bind_eq_ok.mp h with ⟨origin, found, h⟩
  rcases Attempt.outcome_bind_eq_ok.mp h with ⟨noted, -, h⟩
  cases h
  have imported := Origin.imported_of_ofBound found
  refine ⟨rfl, rfl, ?_, ?_⟩
  · dsimp only
    rcases imported with same | ⟨range, -⟩
    · simp [same]
    · by_cases same : origin.file = x.file
      · simp [same]
      · simp [same, range]
  · intro elsewhere
    rcases imported with same | ⟨-, imported⟩
    · exact absurd same elsewhere
    · rcases imported with ⟨symbol, binding, bound, bindsIt, resolved⟩
      exact ⟨Resolution.isFile_of_resolve resolved, registration, except_mapError_eq_ok.mp read, symbol,
        binding, bound, bindsIt, resolved⟩

/-- A definition points to a file if it is made in one. -/
theorem Definition.Located.isFile_originFile {files : FileTree} {x : Indexer} {imports : ImportTable}
    {draft : Draft} {d : Definition} (located : d.Located files x imports draft)
    (file : files.isFile x.file = true) : files.isFile d.originFile = true := by
  by_cases same : d.originFile = d.registeredIn
  · rw [same, located.registeredIn]
    exact file
  · exact (located.imported same).1

theorem FileIndex.exists_located_of_ofTree {files : FileTree} {x : Indexer} {root : Node}
    {index : FileIndex} (h : (ofTree files x root).outcome = .ok index) {d : Definition}
    (member : d ∈ index.registrations) : ∃ imports draft, d.Located files x imports draft := by
  unfold ofTree at h
  rcases Attempt.outcome_bind_eq_ok.mp h with ⟨findings, -, h⟩
  rcases Attempt.outcome_bind_eq_ok.mp h with ⟨registrations, defined, h⟩
  cases h
  rcases Attempt.exists_of_mem_mapM defined member with ⟨draft, given⟩
  exact ⟨_, draft, Indexer.located_define given⟩

/-- The definitions of drafts, whatever tree they come from and whatever is imported, have their places. So
have those of a file that is read, and they all point to files. -/
theorem definitions_located (files : FileTree) (x : Indexer) (imports : ImportTable) {drafts : List Draft}
    {definitions : List Definition}
    (defined : (drafts.mapM (x.define files imports)).outcome = .ok definitions) :
    List.Forall₂ (fun draft d => Definition.Located files x imports draft d) drafts definitions ∧
      ∀ (w : Workspace) containers file, ∀ d ∈ (FileIndex.ofFile w containers file).value.registrations,
        w.files.isFile d.originFile = true ∧
          ∃ source table draft, d.Located w.files ⟨file, source, containers⟩ table draft := by
  constructor
  · apply (Attempt.outcome_mapM_eq_ok defined).imp
    intro draft d given
    exact Indexer.located_define given
  · intro w containers file d member
    have becomes := FileIndex.becomes_ofFile w containers file
    generalize (FileIndex.ofFile w containers file).value = index at becomes member
    cases becomes with
    | indexed read parsed done =>
      rcases FileIndex.exists_located_of_ofTree done member with ⟨table, draft, located⟩
      refine ⟨located.isFile_originFile ?_, _, table, draft, located⟩
      rw [Resolution.isFile_eq_isSome_read, read]
      rfl
    | unreadable => cases member
    | unparsed => cases member
    | undecodable => cases member
    | tooDeep => cases member

/-! ## An imported value -/

/-- A file that registers `M`. -/
def registering : Indexer where
  file := "/w/a.js"
  source := Utf8.asciiBytes "c.register('k',M)"
  containers := []

/-- The registration. -/
def importedDraft : Draft where
  key := "k"
  keyNode := .mk { kind := .string, start := 11, stop := 14 } []
  value := .mk { kind := .identifier, start := 15, stop := 16 } []

/-- The import of `M`. -/
def importOfM : Binding where
  specifier := "./m.js"
  range := ⟨⟨0, 6⟩, ⟨0, 7⟩⟩

/-- The imported file next to the one that registers. -/
def importedTree : FileTree where
  root := .folder [("w", .folder [("a.js", .file registering.source), ("m.js", .file [])])]
  cwd := some "/"

theorem resolve_importOfM :
    (Resolution.resolve importedTree importOfM.specifier "/w/a.js").outcome = .ok (some "/w/m.js") := by
  have path : Path.normalize (Path.join (Resolution.folderOf importedTree "/w/a.js") "./m.js") =
      "/w/m.js" := by
    decide
  have isFile : importedTree.isFile "/w/m.js" = true := by decide
  rw [Resolution.outcome_resolve, if_pos (by decide), importOfM, path]
  exact congrArg _ (List.find?_cons_of_pos isFile)

/-- The definition of `k` has no range: it is declared in the imported file, which exists. -/
theorem definitions_located_imported :
    ∃ d, ([importedDraft].mapM
        (registering.define importedTree (.ofBindings [("M", importOfM)]))).outcome = .ok [d] ∧
      d.originFile = "/w/m.js" ∧ d.range = none ∧ importedTree.isFile d.originFile = true := by
  have read : Registration.ofValue registering.source importedDraft.value =
      .ok ⟨.asValue, none, some importedDraft.value⟩ := by decide +kernel
  have spelled : importedDraft.value.name registering.source = .ok "M" := by decide +kernel
  have bound : (ImportTable.ofBindings [("M", importOfM)]).get? "M" = some importOfM := by decide
  have origin : (Origin.ofBound importedTree registering.source (.ofBindings [("M", importOfM)])
      registering.file (some importedDraft.value)).outcome = .ok ⟨"/w/m.js", none, none⟩ := by
    rw [Origin.ofBound, if_pos (by decide)]
    refine Attempt.outcome_bind_eq_ok.mpr ⟨"M", congrArg (Except.mapError _) spelled, ?_⟩
    simp only [bound]
    exact Attempt.outcome_adapt_eq_ok.mpr
      (Attempt.outcome_bind_eq_ok.mpr ⟨some "/w/m.js", resolve_importOfM, rfl⟩)
  have defined : ∃ d, (registering.define importedTree (.ofBindings [("M", importOfM)])
      importedDraft).outcome = .ok d ∧ d.originFile = "/w/m.js" := by
    refine ⟨_, Attempt.outcome_bind_eq_ok.mpr ⟨_, congrArg (Except.mapError _) read,
      Attempt.outcome_bind_eq_ok.mpr ⟨_, origin, Attempt.outcome_bind_eq_ok.mpr ⟨(), rfl, rfl⟩⟩⟩, rfl⟩
  rcases defined with ⟨d, defined, file⟩
  have mapped : ([importedDraft].mapM (registering.define importedTree
      (.ofBindings [("M", importOfM)]))).outcome = .ok [d] := by
    rw [List.mapM_cons]
    exact Attempt.outcome_bind_eq_ok.mpr ⟨d, defined, Attempt.outcome_bind_eq_ok.mpr ⟨[], rfl, rfl⟩⟩
  rcases (definitions_located importedTree registering _ mapped).1 with _ | ⟨located, -⟩
  have elsewhere : d.originFile ≠ d.registeredIn := by
    rw [located.registeredIn, file]
    decide
  exact ⟨d, mapped, file, located.range.mpr elsewhere, (located.imported elsewhere).1⟩

end ContainerKeys
