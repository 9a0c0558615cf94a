import ContainerKeys.Proofs.Contributions
import ContainerKeys.Proofs.Edits
import ContainerKeys.Proofs.Searches

/-!
# What the bytes of one source file reach

A build reads the bytes of a source file for that file alone. If they change, the search finds the same
files, every other file contributes what it contributed before, and only the keys that the file registers
in one of its versions may lead elsewhere.

* `value_build_fst_congr` — files that contribute the same give the same index.
* `FileTree.Rewritten` — two trees that differ in the bytes of one source file.
* `build_isolates_file` — what the build keeps.
-/

namespace ContainerKeys

open FileTree (Route entryAt)

/-! ## Files that contribute the same -/

namespace Index

theorem value_merge_congr {a b : FileIndex} (alike : a.Alike b) (index : Index) :
    (index.merge a).value = (index.merge b).value := by
  rw [merge, merge, alike.1, alike.2]

theorem value_mergeAll_congr {f g : α → FileIndex} {l : List α}
    (alike : ∀ a ∈ l, (f a).Alike (g a)) (index : Index) :
    (index.mergeAll (l.map f)).value = (index.mergeAll (l.map g)).value := by
  induction l generalizing index with
  | nil => rfl
  | cons a rest ih =>
    rw [List.map_cons, List.map_cons, mergeAll, mergeAll, Logged.value_bind, Logged.value_bind,
      value_merge_congr (alike a List.mem_cons_self)]
    exact ih (fun b hb => alike b (List.mem_cons_of_mem a hb)) _

end Index

/-- Two workspaces where the same files are found and contribute the same have the same index. -/
theorem value_build_fst_congr (w w' : Workspace) {settings : Settings}
    (found : (Build.findFiles w.files settings).value = (Build.findFiles w'.files settings).value)
    (alike : ∀ file ∈ (Build.findFiles w.files settings).value,
      (FileIndex.ofFile w settings.containerNames file).value.Alike
        (FileIndex.ofFile w' settings.containerNames file).value) :
    (build w settings).value.1 = (build w' settings).value.1 := by
  rw [value_build_fst, value_build_fst, ← found]
  exact Index.value_mergeAll_congr alike _

/-! ## One rewritten file -/

/-- The trees have no links and differ in the bytes of one file, which stands at `r`. It is no manifest
and within the size limit before and after. -/
structure FileTree.Rewritten (settings : Settings) (r : Route) (t t' : FileTree) : Prop where
  differs : DiffersAt r t t'
  tidy : t.root.Tidy
  tidy' : t'.root.Tidy
  noLinks : t.NoLinks
  before : ∃ bytes, entryAt t.root r = some (.file bytes) ∧ bytes.length ≤ settings.maxFileSize
  after : ∃ bytes, entryAt t'.root r = some (.file bytes) ∧ bytes.length ≤ settings.maxFileSize
  notManifest : r.getLast? ≠ some "package.json"

namespace FileTree.Rewritten

variable {settings : Settings} {r : Route} {t t' : FileTree}

theorem symm (h : Rewritten settings r t t') : Rewritten settings r t' t where
  differs := h.differs.symm
  tidy := h.tidy'
  tidy' := h.tidy
  noLinks ρ target link := h.noLinks ρ target (h.differs.symm.link link)
  before := h.after
  after := h.before
  notManifest := h.notManifest

theorem present (h : Rewritten settings r t t') :
    (entryAt t.root r).isSome = (entryAt t'.root r).isSome := by
  obtain ⟨bytes, file, -⟩ := h.before
  obtain ⟨bytes', file', -⟩ := h.after
  rw [file, file']
  rfl

theorem placeOf?_eq (h : Rewritten settings r t t') (p : Path) : t.placeOf? p = t'.placeOf? p :=
  h.differs.placeOf?_eq h.present p

theorem fits (h : Rewritten settings r t t') {p : Path} (fit : t.Fits settings p) :
    t'.Fits settings p := by
  by_cases here : t.placeOf? p = some r
  · obtain ⟨bytes, file, small⟩ := h.after
    rw [h.placeOf?_eq] at here
    exact ⟨bytes.length, size_eq_ok_iff.mpr ⟨r, _, here, file, rfl⟩, small⟩
  · exact h.differs.fits_of_ne here fit

/-- The search finds the same files. -/
theorem value_findFiles_eq (h : Rewritten settings r t t') :
    (Build.findFiles t settings).value = (Build.findFiles t' settings).value :=
  h.differs.value_findFiles_eq (fun _ _ _ => h.present) h.tidy h.tidy' (fun _ _ => h.fits)
    (fun _ _ => h.symm.fits)

/-- No path to a manifest leads to the file. -/
theorem placeOf?_manifestPath_ne (h : Rewritten settings r t t') (package : Path) :
    t.placeOf? (Resolution.manifestPath package) ≠ some r := by
  intro place
  exact h.notManifest (Resolution.getLast?_placeOf?_manifestPath h.noLinks place)

/-- Every question of a resolution has the same answer. -/
theorem same (h : Rewritten settings r t t') (look : Resolution.Look) : look.Same t t' := by
  cases look with
  | file p => exact h.differs.isFile_eq h.present p
  | manifest package =>
    exact h.differs.toOption_read_eq (h.placeOf?_manifestPath_ne package)
      (h.symm.placeOf?_manifestPath_ne package)

/-- Every module resolves to the same file. -/
theorem agrees (h : Rewritten settings r t t') (file : Path) (specifier : String) :
    Resolution.Agrees t t' file specifier :=
  Resolution.outcome_resolve_eq h.differs.cwd h.differs.limit h.differs.isFolder_eq fun look _ => h.same look

end FileTree.Rewritten

/-! ## What other files contribute -/

/-- Some file that is found at the place registers the key. -/
def RegistersAt (w : Workspace) (settings : Settings) (r : Route) (key : String) : Prop :=
  ∃ file ∈ (Build.findFiles w.files settings).value, w.files.placeOf? file = some r ∧
    ∃ d ∈ (FileIndex.ofFile w settings.containerNames file).value.registrations, d.key = key

/-- The last registration of a key depends on the registrations of that key alone. -/
theorem lastOf?_eq_of_filter_eq {key : String} {ds es : List Definition}
    (same : ds.filter (·.key = key) = es.filter (·.key = key)) : lastOf? key ds = lastOf? key es := by
  have only (ds : List Definition) : lastOf? key (ds.filter (·.key = key)) = lastOf? key ds := by
    unfold lastOf?
    rw [← List.filter_reverse, List.find?_filter]
    simp
  rw [← only ds, same, only es]

theorem filter_flatMap_congr {p : β → Bool} {f g : α → List β} {l : List α}
    (same : ∀ a ∈ l, (f a).filter p = (g a).filter p) :
    (l.flatMap f).filter p = (l.flatMap g).filter p := by
  rw [List.filter_flatMap, List.filter_flatMap]
  exact List.flatMap_congr same

section

variable {w : Workspace} {settings : Settings} {r : Route} {files : FileTree}

/-- A file that does not stand at the place contributes the same. -/
theorem FileTree.Rewritten.alike_ofFile (h : FileTree.Rewritten settings r w.files files)
    {file : Path} (other : w.files.placeOf? file ≠ some r) (containers : List String) :
    (FileIndex.ofFile w containers file).value.Alike
      (FileIndex.ofFile { w with files } containers file).value := by
  apply FileIndex.alike_ofFile
  · exact h.differs.toOption_read_eq other (h.placeOf?_eq file ▸ other)
  · intro specifier _
    exact h.agrees file specifier

/-- What is left of the contributions is the same, if nothing is left of those from the place. -/
theorem FileTree.Rewritten.filter_flatMap_eq (h : FileTree.Rewritten settings r w.files files)
    {part : FileIndex → List β} (alike : ∀ a b : FileIndex, a.Alike b → part a = part b) (p : β → Bool)
    (gone : ∀ file ∈ (Build.findFiles w.files settings).value, w.files.placeOf? file = some r →
      ∀ b ∈ part (FileIndex.ofFile w settings.containerNames file).value, p b = false)
    (gone' : ∀ file ∈ (Build.findFiles files settings).value, files.placeOf? file = some r →
      ∀ b ∈ part (FileIndex.ofFile { w with files } settings.containerNames file).value,
        p b = false) :
    ((Build.findFiles w.files settings).value.flatMap fun file =>
        part (FileIndex.ofFile w settings.containerNames file).value).filter p =
      ((Build.findFiles files settings).value.flatMap fun file =>
        part (FileIndex.ofFile { w with files } settings.containerNames file).value).filter p := by
  have found := h.value_findFiles_eq
  rw [← found] at gone' ⊢
  apply filter_flatMap_congr
  intro file hfile
  by_cases here : w.files.placeOf? file = some r
  · rw [List.filter_eq_nil_iff.mpr, List.filter_eq_nil_iff.mpr]
    · intro b hb
      rw [gone' file hfile (h.placeOf?_eq file ▸ here) b hb]
      decide
    · intro b hb
      rw [gone file hfile here b hb]
      decide
  · rw [alike _ _ (h.alike_ofFile here settings.containerNames)]

/-- A file with a fault gives the same index as an empty file in its place. -/
theorem FileTree.Rewritten.build_eq_of_empty (h : FileTree.Rewritten settings r w.files files)
    (faulty : ∀ file ∈ (Build.findFiles w.files settings).value, w.files.placeOf? file = some r →
      (FileIndex.ofFile w settings.containerNames file).value.fault.isSome)
    (empty : entryAt files.root r = some (.file []))
    (childless : ∀ grammar, (w.parser grammar []).children = []) :
    (build w settings).value.1 = (build { w with files } settings).value.1 := by
  refine value_build_fst_congr w { w with files } h.value_findFiles_eq ?_
  intro file hfile
  by_cases here : w.files.placeOf? file = some r
  · have nothing := (FileIndex.becomes_ofFile w settings.containerNames file).nothing_of_fault
      (faulty file hfile here)
    have read : files.read file = .ok [] :=
      read_eq_ok_iff.mpr ⟨r, h.placeOf?_eq file ▸ here, empty⟩
    have nothing' := (FileIndex.becomes_ofFile { w with files } settings.containerNames
      file).nothing_of_childless read childless
    exact ⟨nothing.1.trans nothing'.1.symm, nothing.2.trans nothing'.2.symm⟩
  · exact h.alike_ofFile here settings.containerNames

/-- The bytes of one file. If they are rewritten, the usages in other files stay, in their order; the
registrations made by other files stay, whether they count or are displaced; and a key that the file
registers in neither version leads to the same definition. If the file had a fault and is empty
afterwards, nothing changes at all. -/
theorem build_isolates_file (rewritten : FileTree.Rewritten settings r w.files files) :
    let before := (build w settings).value.1
    let after := (build { w with files } settings).value.1
    let other (file : Path) : Bool := w.files.placeOf? file ≠ some r
    before.usages.filter (fun u => other u.file) = after.usages.filter (fun u => other u.file) ∧
    ((before.winners ++ before.duplicates).filter fun d => other d.registeredIn).Perm
      ((after.winners ++ after.duplicates).filter fun d => other d.registeredIn) ∧
    (∀ key, ¬ RegistersAt w settings r key → ¬ RegistersAt { w with files } settings r key →
      before.lookup key = after.lookup key) ∧
    ((∀ file ∈ (Build.findFiles w.files settings).value, w.files.placeOf? file = some r →
        (FileIndex.ofFile w settings.containerNames file).value.fault.isSome) →
      entryAt files.root r = some (.file []) →
      (∀ grammar, (w.parser grammar []).children = []) → before = after) := by
  intro before after other
  have known := summarises_build w settings
  have known' := summarises_build { w with files } settings
  have same {file : Path} (here : files.placeOf? file = some r) : other file = false := by
    simp [other, rewritten.placeOf?_eq file, here]
  refine ⟨?_, ?_, ?_, rewritten.build_eq_of_empty⟩
  · show (build w settings).value.1.usages.filter _ =
      (build { w with files } settings).value.1.usages.filter _
    rw [usages_build, usages_build]
    apply rewritten.filter_flatMap_eq (fun _ _ alike => alike.2)
    · intro file _ here u hu
      rw [(FileIndex.becomes_ofFile w _ file).bears.2 u hu]
      simp [other, here]
    · intro file _ here u hu
      rw [(FileIndex.becomes_ofFile { w with files } _ file).bears.2 u hu]
      exact same here
  · apply (known.perm.filter _).trans
    apply List.Perm.trans _ (known'.perm.filter _).symm
    apply List.Perm.of_eq
    apply rewritten.filter_flatMap_eq (fun _ _ alike => alike.1)
    · intro file _ here d hd
      rw [(FileIndex.becomes_ofFile w _ file).bears.1 d hd]
      simp [other, here]
    · intro file _ here d hd
      rw [(FileIndex.becomes_ofFile { w with files } _ file).bears.1 d hd]
      exact same here
  · intro key unregistered unregistered'
    show (build w settings).value.1.keys.get? key =
      (build { w with files } settings).value.1.keys.get? key
    rw [known.get?_keys, known'.get?_keys]
    apply lastOf?_eq_of_filter_eq
    apply rewritten.filter_flatMap_eq (fun _ _ alike => alike.1)
    · intro file hfile here d hd
      exact decide_eq_false fun e => unregistered ⟨file, hfile, here, d, hd, e⟩
    · intro file hfile here d hd
      exact decide_eq_false fun e => unregistered' ⟨file, hfile, here, d, hd, e⟩

end

/-! ## A broken file that is emptied -/

section

variable {files files' : List (String × Bytes)} {name : String}

/-- A directory `/w` that holds regular files. -/
def flat (files : List (String × Bytes)) : FileTree where
  root := .folder [("w", .folder (files.map fun f => (f.1, .file f.2)))]
  cwd := some "/w"

theorem entryAt_flat : entryAt (flat files).root ["w"] =
    some (.folder (files.map fun f => (f.1, .file f.2))) := rfl

theorem nodup_entries_flat (nodup : (files.map Prod.fst).Nodup) :
    ((files.map fun f => (f.1, Entry.file f.2)).map Prod.fst).Nodup := by
  rw [List.map_map]
  exact nodup

theorem file_of_entryAt_flat (nodup : (files.map Prod.fst).Nodup) (e : Entry)
    (h : entryAt (flat files).root (["w"] ++ [name]) = some e) : ∃ bytes, e = .file bytes := by
  have listed := (FileTree.entryAt_concat_iff entryAt_flat (nodup_entries_flat nodup)).mp h
  obtain ⟨f, -, same⟩ := List.mem_map.mp listed
  cases same
  exact ⟨f.2, rfl⟩

theorem tidy_flat (nodup : (files.map Prod.fst).Nodup) : (flat files).root.Tidy := by
  refine .folder (by simp) ?_
  intro c hc
  cases List.mem_singleton.mp hc
  refine .folder (nodup_entries_flat nodup) ?_
  intro c hc
  obtain ⟨f, -, rfl⟩ := List.mem_map.mp hc
  exact .file f.2

theorem noLinks_flat (files : List (String × Bytes)) : (flat files).NoLinks := by
  apply FileTree.entryAt_folder_ne_link
  intro c hc
  cases List.mem_singleton.mp hc
  apply FileTree.entryAt_folder_ne_link
  intro c hc
  obtain ⟨f, -, rfl⟩ := List.mem_map.mp hc
  exact FileTree.entryAt_file_ne_link f.2

/-- Rewriting one of the files. -/
theorem rewritten_flat {settings : Settings} {bytes bytes' : Bytes}
    (nodup : (files.map Prod.fst).Nodup) (nodup' : (files'.map Prod.fst).Nodup)
    (set : (flat files).setAt (["w"] ++ [name]) (.file bytes') = flat files')
    (before : entryAt (flat files).root ["w", name] = some (.file bytes))
    (after : entryAt (flat files').root ["w", name] = some (.file bytes'))
    (small : bytes.length ≤ settings.maxFileSize) (small' : bytes'.length ≤ settings.maxFileSize)
    (other : name ≠ "package.json") :
    FileTree.Rewritten settings ["w", name] (flat files) (flat files') where
  differs := set ▸ FileTree.differsAt_setAt entryAt_flat (file_of_entryAt_flat nodup) bytes'
  tidy := tidy_flat nodup
  tidy' := tidy_flat nodup'
  noLinks := noLinks_flat files
  before := ⟨bytes, before, small⟩
  after := ⟨bytes', after, small'⟩
  notManifest := by simpa using other

end

/-- The text `(`, which is no program. -/
def brokenText : Bytes := [40]

/-- Two sources, the first of which is broken. -/
def halfBroken : Workspace where
  files := flat [("a.js", brokenText), ("b.js", Utf8.encode "f();")]
  parser _ source :=
    .mk { kind := if source = brokenText then .error else .other "program",
          start := 0, stop := source.length } []

/-- The broken source may as well be empty. -/
theorem build_isolates_file_broken :
    FileTree.Rewritten { roots := ["/w"] } ["w", "a.js"] halfBroken.files
        (flat [("a.js", []), ("b.js", Utf8.encode "f();")]) ∧
      (build halfBroken { roots := ["/w"] }).value.1 =
        (build { halfBroken with files := flat [("a.js", []), ("b.js", Utf8.encode "f();")] }
          { roots := ["/w"] }).value.1 := by
  have rewritten : FileTree.Rewritten { roots := ["/w"] } ["w", "a.js"] halfBroken.files
      (flat [("a.js", []), ("b.js", Utf8.encode "f();")]) :=
    rewritten_flat (by decide) (by decide) rfl rfl rfl (by decide) (by decide) (by decide)
  refine ⟨rewritten, (build_isolates_file rewritten).2.2.2 ?_ rfl fun _ => rfl⟩
  intro file _ place
  have read : halfBroken.files.read file = .ok brokenText :=
    FileTree.read_eq_ok_iff.mpr ⟨["w", "a.js"], place, rfl⟩
  have becomes := FileIndex.becomes_ofFile halfBroken ["container"] file
  show (FileIndex.ofFile halfBroken ["container"] file).value.fault.isSome
  generalize (FileIndex.ofFile halfBroken ["container"] file).value = index at becomes
  cases becomes with
  | indexed read' parsed =>
    -- the parser refuses the text
    rw [read] at read'
    cases read'
    obtain ⟨grammar, rfl, sound⟩ := parse_eq_ok parsed
    cases sound
  | unreadable => rfl
  | unparsed => rfl
  | undecodable => rfl
  | tooDeep => rfl

end ContainerKeys
