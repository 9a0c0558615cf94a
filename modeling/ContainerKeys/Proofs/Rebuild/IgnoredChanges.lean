import ContainerKeys.Proofs.Isolation
import ContainerKeys.Proofs.Rebuild.Runs
import ContainerKeys.Rebuild.Service
import Mathlib.Data.List.Nodup

/-!
# Changes that are ignored

A change is ignored if the name of the file has no source extension. The build may depend on such a file
all the same: a found file may be a link to it, an import may name it in full, and a manifest says which
file a package stands for. Where nothing of the kind is the case, the index stays what it was.

* `Unconsulted` — the file at a place plays no part in a build.
* `Machine.ignored_change_keeps_index` — an ignored change of such a file.
* `Machine.deleted_import_changes_index` — an ignored change of a file that is imported in full.
-/

namespace ContainerKeys.Rebuild

open FileTree (Route DiffersAt entryAt)

/-- The file at the place plays no part in a build, before its change or after: no file that is found
stands there, and what the imports of the files found ask for has the same answer in both trees. -/
structure Unconsulted (w : Workspace) (settings : Settings) (r : Route) (files : FileTree) : Prop where
  found : ∀ file ∈ (Build.findFiles w.files settings).value, w.files.placeOf? file ≠ some r
  found' : ∀ file ∈ (Build.findFiles files settings).value, files.placeOf? file ≠ some r
  asked : ∀ file ∈ (Build.findFiles w.files settings).value, ∀ specifier,
    FileIndex.Imports w settings.containerNames file specifier →
      ∀ look ∈ Resolution.looks w.files specifier file, look.Same w.files files

namespace Machine

/-- An ignored change of a file that plays no part in the build leaves the index as it is. -/
theorem ignored_change_keeps_index {m : Machine} {p : Path} {r : Route} {files : FileTree}
    (ignored : m.heeds (some p) = false) (named : r.getLast? = some (Path.base p))
    (differs : DiffersAt r m.workspace.files files) (tidy : m.workspace.files.root.Tidy)
    (tidy' : files.root.Tidy) (unconsulted : Unconsulted m.workspace m.settings r files) :
    (build m.workspace m.settings).value.1 =
      (build { m.workspace with files } m.settings).value.1 := by
  -- the name of the file has no source extension, so no search lists it
  have keeps : DiffersAt.KeepsSource m.settings r m.workspace.files files := by
    intro name last source
    have same : name = Path.base p := Option.some.inj (last.symm.trans named)
    have heeded : m.settings.isSource p = true := by
      rw [Settings.isSource, ← Path.extension_base, ← same]
      exact source
    rw [heeds, heeded] at ignored
    cases ignored
  have found := differs.value_findFiles_eq keeps tidy tidy'
    (fun q hq => differs.fits_of_ne (unconsulted.found q hq))
    (fun q hq => differs.symm.fits_of_ne (unconsulted.found' q hq))
  refine value_build_fst_congr m.workspace { m.workspace with files } found ?_
  intro file hfile
  apply FileIndex.alike_ofFile
  · exact differs.toOption_read_eq (unconsulted.found file hfile)
      (unconsulted.found' file (found ▸ hfile))
  · intro specifier imports
    exact Resolution.outcome_resolve_eq differs.cwd differs.limit differs.isFolder_eq
      (unconsulted.asked file hfile specifier imports)

/-! ## A file that is imported in full -/

/-- The tree of `const M = require('./m.json');` and, on a second line, `container.register('k', M);`. -/
def importTree : Code.Node :=
  .mk { kind := .other "program", start := 0, stop := 58 } [
    .mk { kind := .other "lexical_declaration", start := 0, stop := 30 } [
      .mk { kind := .declarator, start := 6, stop := 29 } [
        .mk { kind := .identifier, start := 6, stop := 7, field := some .name } [],
        .mk { kind := .call, start := 10, stop := 29, field := some .value } [
          .mk { kind := .identifier, start := 10, stop := 17, field := some .function } [],
          .mk { kind := .other "arguments", start := 17, stop := 29, field := some .arguments } [
            .mk { kind := .string, start := 18, stop := 28 } [
              .mk { kind := .other "string_fragment", start := 19, stop := 27 } []]]]]],
    .mk { kind := .expressionStatement, start := 31, stop := 58 } [
      .mk { kind := .call, start := 31, stop := 57 } [
        .mk { kind := .memberAccess, start := 31, stop := 49, field := some .function } [
          .mk { kind := .identifier, start := 31, stop := 40, field := some .object } [],
          .mk { kind := .propertyIdentifier, start := 41, stop := 49, field := some .property } []],
        .mk { kind := .other "arguments", start := 49, stop := 57, field := some .arguments } [
          .mk { kind := .string, start := 50, stop := 53 } [
            .mk { kind := .other "string_fragment", start := 51, stop := 52 } []],
          .mk { kind := .identifier, start := 55, stop := 56 } []]]]]

/-- An empty object. -/
def object : Bytes := [123, 125]

/-- An empty array. -/
def array : Bytes := [91, 93]

/-- A source that registers what it imports from `m.json`, which may be there. -/
def importFiles (json : Option Bytes) : List (String × Bytes) :=
  ("a.js", Utf8.encode "const M = require('./m.json');\ncontainer.register('k', M);") ::
    (json.map fun bytes => ("m.json", bytes)).toList

/-- A workspace with that source. -/
def importing (json : Option Bytes) : Workspace where
  files := flat (importFiles json)
  parser _ _ := importTree

/-- Settings with the one root `/w`. -/
def atW : Settings := { roots := ["/w"] }

theorem placeOf?_importing (json : Option Bytes) :
    (importing json).files.placeOf? "/w/a.js" = some ["w", "a.js"] := by
  cases json <;> rfl

/-- The survey of the workspace. -/
def surveyOf (json : Option Bytes) : Survey := ⟨(importing json).files, atW⟩

theorem accepts_importing (json : Option Bytes) (name : String)
    (listed : name = "a.js" ∨ name = "m.json") :
    (surveyOf json).Accepts ⟨"/w", ""⟩ name ↔ name = "a.js" := by
  rcases listed with rfl | rfl
  · have source : atW.isSource "a.js" = true := by decide
    have kept : (IgnoreRules.ofPatterns atW.ignorePatterns).ignores "a.js" = false := by decide
    have size : (importing json).files.size "/w/a.js" = .ok 58 :=
      FileTree.size_eq_ok_iff.mpr ⟨["w", "a.js"], _, placeOf?_importing json, rfl, by decide +kernel⟩
    exact iff_of_true ⟨source, kept, 58, size, (by decide : (58 : Int) ≤ 1000000)⟩ rfl
  · have plain : atW.isSource "m.json" = false := by decide
    refine iff_of_false ?_ (by decide)
    rintro ⟨source, -⟩
    rw [show (surveyOf json).settings.isSource "m.json" = false from plain] at source
    cases source

/-- Only the source is found. -/
theorem findFiles_importing (json : Option Bytes) :
    (Build.findFiles (importing json).files atW).value = ["/w/a.js"] := by
  have folder : (importing json).files.entry "/w" =
      .ok (.folder ((importFiles json).map fun f => (f.1, .file f.2))) := by
    cases json <;> rfl
  have names : ((surveyOf json).fileNames ⟨"/w", ""⟩
      ((importFiles json).map fun f => (f.1, .file f.2))).filter (fun name =>
        (surveyOf json).Accepts ⟨"/w", ""⟩ name) = ["a.js"] := by
    have accepts := accepts_importing json
    cases json with
    | none =>
      have only : (surveyOf none).fileNames ⟨"/w", ""⟩
        ((importFiles none).map fun f => (f.1, .file f.2)) = ["a.js"] := by decide +kernel
      rw [only]
      simp [accepts]
    | some bytes =>
      have both : (surveyOf (some bytes)).fileNames ⟨"/w", ""⟩
        ((importFiles (some bytes)).map fun f => (f.1, .file f.2)) = ["a.js", "m.json"] :=
        List.mergeSort_of_pairwise (l := ["a.js", "m.json"]) (by decide)
      rw [both]
      simp [accepts]
  have nothing : ((surveyOf json).sourcesBelow ⟨"/w", ""⟩
      ((importFiles json).map fun f => (f.1, .file f.2))).value = [] := by
    cases json <;> rfl
  have path : Spot.entryPath ⟨"/w", ""⟩ "a.js" = "/w/a.js" := by decide
  have searched : ((surveyOf json).sourcesIn ⟨"/w", ""⟩
      (.folder ((importFiles json).map fun f => (f.1, .file f.2)))).value = ["/w/a.js"] := by
    rw [Survey.value_sourcesIn_folder _ _ (by decide), names, nothing, List.map_singleton, path]
    simp
  have found : (Build.filesBelow (importing json).files atW "/w").value = ["/w/a.js"] :=
    (Build.value_filesBelow_folder atW rfl folder).trans searched
  rw [Build.value_findFiles]
  show distinct ((Build.filesBelow (importing json).files atW "/w").value ++ []) = _
  rw [found]
  rfl

/-- What the source registers under `k`, with the place that it leads to. -/
def registered (originFile : Path) (exportName : Option String) (range : Option Range) : Definition where
  key := "k"
  kind := .asValue
  lifetime := none
  originFile
  exportName
  range
  registeredIn := "/w/a.js"
  registrationRange := some ⟨⟨1, 19⟩, ⟨1, 22⟩⟩

theorem lookup_importing {json : Option Bytes} {d : Definition} (key : d.key = "k")
    (registers : (FileIndex.ofFile (importing json) atW.containerNames "/w/a.js").value.registrations =
      [d]) : (build (importing json) atW).value.1.lookup "k" = some d := by
  rw [Index.lookup, (summarises_build _ atW).get?_keys, findFiles_importing, List.flatMap_singleton,
    registers]
  simp [lastOf?, key]

/-- With `m.json`, the key leads there. -/
theorem lookup_present :
    (build (importing (some object)) atW).value.1.lookup "k" =
      some (registered "/w/m.json" none none) :=
  lookup_importing rfl (by decide +kernel)

/-- Without `m.json`, it stays with the source. -/
theorem lookup_absent :
    (build (importing none) atW).value.1.lookup "k" =
      some (registered "/w/a.js" (some "M") (some ⟨⟨0, 6⟩, ⟨0, 7⟩⟩)) :=
  lookup_importing rfl (by decide +kernel)

theorem nodup_importFiles (json : Option Bytes) : ((importFiles json).map Prod.fst).Nodup := by
  cases json with
  | none => exact List.nodup_singleton _
  | some bytes => exact (by decide : ["a.js", "m.json"].Nodup)

theorem not_found_importing (json : Option Bytes) :
    ∀ file ∈ (Build.findFiles (importing json).files atW).value,
      (importing json).files.placeOf? file ≠ some ["w", "m.json"] := by
  intro file hfile
  rw [findFiles_importing, List.mem_singleton] at hfile
  rw [hfile, placeOf?_importing]
  decide

/-- What `m.json` says plays no part, so it may be rewritten. -/
theorem ignored_change_keeps_index_rewritten :
    let m := initial (importing (some object)) atW
    let files := (importing (some array)).files
    m.heeds (some "/w/m.json") = false ∧ Unconsulted m.workspace m.settings ["w", "m.json"] files ∧
      (build m.workspace m.settings).value.1 =
        (build { m.workspace with files } m.settings).value.1 := by
  intro m files
  have ignored : m.heeds (some "/w/m.json") = false := by decide
  have rewritten : FileTree.Rewritten atW ["w", "m.json"] m.workspace.files files :=
    rewritten_flat (nodup_importFiles _) (nodup_importFiles _) rfl rfl rfl (by decide) (by decide)
      (by decide)
  have unconsulted : Unconsulted m.workspace m.settings ["w", "m.json"] files :=
    ⟨not_found_importing _, not_found_importing _, fun _ _ _ _ look _ => rewritten.same look⟩
  exact ⟨ignored, unconsulted, ignored_change_keeps_index ignored (by decide) rewritten.differs
    rewritten.tidy rewritten.tidy' unconsulted⟩

/-- The deletion of `m.json` is ignored, but the index of the files that are left is another one. -/
theorem deleted_import_changes_index :
    let m := initial (importing (some object)) atW
    let files := (importing none).files
    m.heeds (some "/w/m.json") = false ∧ ["w", "m.json"].getLast? = some (Path.base "/w/m.json") ∧
      DiffersAt ["w", "m.json"] m.workspace.files files ∧ m.workspace.files.root.Tidy ∧
      files.root.Tidy ∧
      (build m.workspace m.settings).value.1.lookup "k" ≠
        (build { m.workspace with files } m.settings).value.1.lookup "k" := by
  intro m files
  have removed : m.workspace.files.removeAt (["w"] ++ ["m.json"]) = files := rfl
  refine ⟨by decide, by decide, ?_, tidy_flat (nodup_importFiles _), tidy_flat (nodup_importFiles _), ?_⟩
  · rw [← removed]
    exact FileTree.differsAt_removeAt entryAt_flat (file_of_entryAt_flat (nodup_importFiles _))
  · show (build (importing (some object)) atW).value.1.lookup "k" ≠
      (build (importing none) atW).value.1.lookup "k"
    rw [lookup_present, lookup_absent]
    decide

end Machine

end ContainerKeys.Rebuild
