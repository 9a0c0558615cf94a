import ContainerKeys.Proofs.Contributions
import ContainerKeys.Proofs.Isolation
import ContainerKeys.Proofs.Surveys
import Mathlib.Data.List.Pairwise

/-!
# The files of a build

Every file of a build is found under a path in normal form. Roots may overlap, and a file below several of
them is found under one path unless the roots spell that path in different ways. There are two such ways: a
root with exactly two leading slashes keeps both, so a file below `/w` and `//w` has two paths; and a root
may spell out the bytes of a name.

* `Build.exists_normal_of_mem_findFiles` — the form of the paths that are found.
* `Build.FoundBelow.leads` — without links, a path that is found leads to a file of its own names.
* `build_indexes_once_iff` — when no file is indexed twice.
-/

namespace ContainerKeys

open FileTree (Route entryAt)

open ContainerKeys.Path (Normal)

/-! ## Paths that are found -/

namespace Path.Normal

variable {n m : Normal}

theorem cons_slash_path (one : n.mark = ['/']) (two : m.mark = ['/', '/']) (parts : m.parts = n.parts) :
    m.path = "/" ++ n.path := by
  apply String.toList_injective
  rw [String.toList_append, toList_path, toList_path, chars, chars, one, two, parts]
  rfl

/-- One more slash in front of a path makes the second of two leading slashes. -/
theorem of_cons_slash (h : m.path = "/" ++ n.path) :
    n.mark = ['/'] ∧ m.mark = ['/', '/'] ∧ m.parts = n.parts := by
  have chars : m.chars = '/' :: n.chars := by
    rw [← m.toList_path, h, String.toList_append, n.toList_path]
    rfl
  have split : Path.parts ('/' :: n.chars) = [] :: Path.parts n.chars := rfl
  have parts : m.parts = n.parts := by
    rw [← m.filter_parts_chars, chars, split, List.filter_cons_of_neg (by simp), n.filter_parts_chars]
  have length : m.mark.length = n.mark.length + 1 := by
    have all := congrArg List.length chars
    simp only [Normal.chars, parts, List.length_append, List.length_cons] at all
    omega
  refine ⟨?_, ?_, parts⟩
  · rcases n.isMark with one | two
    · exact one
    · rcases m.isMark with one' | two'
      · simp [two, one'] at length
      · simp [two, two'] at length
  · rcases m.isMark with one' | two'
    · rcases n.isMark with one | two
      · simp [one, one'] at length
      · simp [two, one'] at length
    · exact two'

end Path.Normal

/-- The root is spelled as the names in a tree are: no part of its absolute path spells out the bytes of a
character. -/
def FileTree.SpelledAsNamed (t : FileTree) (root : Path) : Prop :=
  ∀ n : Normal, t.absolute root = .ok n.path → ∀ part ∈ n.parts, Text.nameOf part = String.ofList part

/-- Two different paths with the same names. -/
def FileTree.Respelled (p q : Path) : Prop :=
  p ≠ q ∧ (namesOf p).filter (· ≠ "") = (namesOf q).filter (· ≠ "")

namespace Build

variable {t : FileTree} {settings : Settings} {p : Path}

theorem mem_findFiles :
    p ∈ (findFiles t settings).value ↔ ∃ root ∈ settings.roots, p ∈ (filesBelow t settings root).value := by
  rw [value_findFiles, mem_distinct, List.mem_flatMap]

/-- What is found below a root is a source below the directory that the root leads to. -/
theorem mem_filesBelow (tidy : t.root.Tidy) (named : t.root.WellNamed) {root : Path} :
    p ∈ (filesBelow t settings root).value ↔
      ∃ path base names, t.absolute root = .ok path ∧ t.isFolder path = true ∧
        t.placeOf? path = some base ∧ t.SourceBelow settings path base names ∧
        t.ListableAlong base names ∧ p = names.foldl Path.join path := by
  constructor
  · intro h
    by_cases directory : ∃ path, t.absolute root = .ok path ∧ t.isFolder path = true
    · rcases directory with ⟨path, absolute, directory⟩
      rcases FileTree.isFolder_iff.mp directory with ⟨base, entries, listable, place, folder⟩
      rcases exists_routes_below settings tidy named absolute place folder with ⟨routes, found, mem, -⟩
      rw [value_filesBelow, found] at h
      rcases List.mem_map.mp h with ⟨names, listed, rfl⟩
      rcases (mem names).mp listed with ⟨source, listableAlong⟩
      exact ⟨path, base, names, absolute, directory, place, source, listableAlong, rfl⟩
    · rw [value_filesBelow_of_not_folder fun path absolute =>
        Bool.eq_false_iff.mpr fun folder => directory ⟨path, absolute, folder⟩] at h
      cases h
  · rintro ⟨path, base, names, absolute, directory, place, source, listableAlong, rfl⟩
    rcases FileTree.isFolder_iff.mp directory with ⟨base', entries, listable, place', folder⟩
    rw [place] at place'
    cases place'
    rcases exists_routes_below settings tidy named absolute place folder with ⟨routes, found, mem, -⟩
    rw [value_filesBelow, found]
    exact List.mem_map.mpr ⟨names, (mem names).mpr ⟨source, listableAlong⟩, rfl⟩

/-- The path `n` was found below the root, whose absolute form is `r`, along some names. -/
structure FoundBelow (t : FileTree) (settings : Settings) (root : Path) (r n : Normal)
    (base names : Route) : Prop where
  listed : root ∈ settings.roots
  absolute : t.absolute root = .ok r.path
  rootMark : r.mark = FileTree.markOf root
  place : t.placeOf? r.path = some base
  source : t.SourceBelow settings r.path base names
  path : names.foldl Path.join r.path = n.path
  mark : n.mark = r.mark
  parts : n.parts = r.parts ++ names.map String.toList

/-- A path that is found is in normal form: the root's own, and the names from there on. -/
theorem exists_normal_of_mem_findFiles (tidy : t.root.Tidy) (named : t.root.WellNamed)
    (rooted : t.Rooted) (h : p ∈ (findFiles t settings).value) :
    ∃ (n : Normal) (root : Path) (r : Normal) (base names : Route),
      p = n.path ∧ FoundBelow t settings root r n base names := by
  rcases mem_findFiles.mp h with ⟨root, listed, below⟩
  rcases (mem_filesBelow tidy named).mp below with
    ⟨path, base, names, absolute, -, place, source, -, rfl⟩
  rcases FileTree.absolute_eq_ok rooted absolute with ⟨r, rfl, mark⟩
  have plain : ∀ part ∈ names.map String.toList, Path.Plain part := by
    intro part hp
    rcases List.mem_map.mp hp with ⟨name, hname, rfl⟩
    exact source.plain named name hname
  have joined := r.foldl_join_path source.ne_nil plain
  exact ⟨r.descend (names.map String.toList) plain, root, r, base, names, joined,
    ⟨listed, absolute, mark, place, source, joined, rfl, rfl⟩⟩

variable {root : Path} {r n : Normal} {base names : Route}

/-- Names in a tree stand for themselves. -/
theorem FoundBelow.nameOf_eq (h : FoundBelow t settings root r n base names) (named : t.root.WellNamed) :
    ∀ name ∈ names, Text.nameOf name.toList = name := by
  rcases h.source.entry with ⟨e, found, -⟩
  intro name hname
  exact (named _ e found name (List.mem_append_right base hname)).itself

/-- Without links, a path that is found leads to the file that its own names lead to. -/
theorem FoundBelow.leads (h : FoundBelow t settings root r n base names) (named : t.root.WellNamed)
    (noLinks : t.NoLinks) :
    t.placeOf? n.path = some n.names ∧ ∃ bytes, entryAt t.root n.names = some (.file bytes) := by
  have route : n.names = base ++ names := by
    have later : (names.map String.toList).map Text.nameOf = names := by
      rw [List.map_map]
      exact (List.map_congr_left (h.nameOf_eq named)).trans (List.map_id names)
    rw [Normal.names, h.parts, List.map_append, later, FileTree.eq_of_placeOf?_path noLinks h.place]
    rfl
  constructor
  · -- it leads somewhere, since its size is known
    rcases h.source.fits with ⟨size, known, -⟩
    rw [h.path] at known
    rcases FileTree.size_eq_ok_iff.mp known with ⟨ρ, e, reached, -⟩
    rw [reached, FileTree.eq_of_placeOf?_path noLinks reached]
  · rcases h.source.entry with ⟨e, found, stands⟩
    rw [route, found]
    cases e with
    | file bytes => exact ⟨bytes, rfl⟩
    | link target => exact absurd found (noLinks _ target)
    | folder entries => exact stands.elim

/-- Below a root that spells out no bytes, the parts of a path are its names. -/
theorem FoundBelow.map_names (h : FoundBelow t settings root r n base names) (named : t.root.WellNamed)
    (spelled : t.SpelledAsNamed root) : n.names.map String.toList = n.parts := by
  have itself : ∀ part ∈ n.parts, (Text.nameOf part).toList = part := by
    rw [h.parts]
    intro part hp
    rcases List.mem_append.mp hp with old | new
    · rw [spelled r h.absolute part old, String.toList_ofList]
    · rcases List.mem_map.mp new with ⟨name, hname, rfl⟩
      rw [h.nameOf_eq named name hname]
  rw [Normal.names, List.map_map]
  exact (List.map_congr_left itself).trans (List.map_id n.parts)

end Build

/-! ## Files that are found twice -/

variable {w : Workspace} {settings : Settings}

/-- A list without repetitions, of whose members only one gives anything. -/
theorem flatMap_eq_of_nodup {α β : Type} {f : α → List β} {l : List α} (nodup : l.Nodup) {a : α}
    (h : a ∈ l) (others : ∀ b ∈ l, b ≠ a → f b = []) : l.flatMap f = f a := by
  rcases List.append_of_mem h with ⟨before, after, rfl⟩
  have absent : a ∉ before ∧ a ∉ after := by
    have distinct := List.nodup_append.mp nodup
    refine ⟨fun mem => distinct.2.2 a mem a List.mem_cons_self rfl, (List.nodup_cons.mp distinct.2.1).1⟩
  have front : before.flatMap f = [] := by
    apply List.flatMap_eq_nil_iff.mpr
    intro b hb
    exact others b (List.mem_append_left _ hb) fun e => absent.1 (e ▸ hb)
  have back : after.flatMap f = [] := by
    apply List.flatMap_eq_nil_iff.mpr
    intro b hb
    exact others b (List.mem_append_right _ (List.mem_cons_of_mem _ hb)) fun e => absent.2 (e ▸ hb)
  rw [List.flatMap_append, List.flatMap_cons, front, back, List.nil_append, List.append_nil]

/-- A file tree without links, with names that files can have. -/
structure FileTree.Straight (t : FileTree) : Prop where
  tidy : t.root.Tidy
  named : t.root.WellNamed
  noLinks : t.NoLinks
  rooted : t.Rooted

namespace FileTree.Straight

variable {t : FileTree} {p q : Path}

theorem exists_leads (h : t.Straight) (found : p ∈ (Build.findFiles t settings).value) :
    ∃ (n : Normal) (bytes : Bytes), p = n.path ∧ t.placeOf? p = some n.names ∧
      entryAt t.root n.names = some (.file bytes) := by
  rcases Build.exists_normal_of_mem_findFiles h.tidy h.named h.rooted found with
    ⟨n, root, r, base, names, rfl, below⟩
  rcases below.leads h.named h.noLinks with ⟨place, bytes, file⟩
  exact ⟨n, bytes, rfl, place, file⟩

/-- Two paths lead to one file just if they have the same names. -/
theorem placeOf?_eq_iff (h : t.Straight) (hp : p ∈ (Build.findFiles t settings).value)
    (hq : q ∈ (Build.findFiles t settings).value) :
    t.placeOf? p = t.placeOf? q ↔ (namesOf p).filter (· ≠ "") = (namesOf q).filter (· ≠ "") := by
  rcases h.exists_leads hp with ⟨n, -, rfl, place, -⟩
  rcases h.exists_leads hq with ⟨m, -, rfl, place', -⟩
  rw [place, place', n.filter_namesOf_path, m.filter_namesOf_path, Option.some.injEq]

/-- The leading slashes of a path that is found are those of a root. -/
theorem exists_root_mark (h : t.Straight) {n : Normal} (found : n.path ∈ (Build.findFiles t settings).value) :
    ∃ root ∈ settings.roots, n.mark = markOf root := by
  rcases Build.exists_normal_of_mem_findFiles h.tidy h.named h.rooted found with
    ⟨m, root, r, base, names, same, below⟩
  refine ⟨root, below.listed, ?_⟩
  rw [(Normal.path_inj.mp same).1, below.mark, below.rootMark]

/-- Where roots spell out no bytes, a path can only be respelled with a second leading slash. -/
theorem slash_of_respelled (h : t.Straight) (spelled : ∀ root ∈ settings.roots, t.SpelledAsNamed root)
    (hp : p ∈ (Build.findFiles t settings).value) (hq : q ∈ (Build.findFiles t settings).value)
    (respelled : Respelled p q) : q = "/" ++ p ∨ p = "/" ++ q := by
  rcases Build.exists_normal_of_mem_findFiles h.tidy h.named h.rooted hp with
    ⟨n, root, r, base, names, rfl, below⟩
  rcases Build.exists_normal_of_mem_findFiles h.tidy h.named h.rooted hq with
    ⟨m, root', r', base', names', rfl, below'⟩
  rcases respelled with ⟨ne, same⟩
  have parts : n.parts = m.parts := by
    rw [n.filter_namesOf_path, m.filter_namesOf_path] at same
    rw [← below.map_names h.named (spelled root below.listed), same,
      below'.map_names h.named (spelled root' below'.listed)]
  rcases n.isMark with one | two
  · rcases m.isMark with one' | two'
    · exact absurd (Normal.path_inj.mpr ⟨one.trans one'.symm, parts⟩) ne
    · exact Or.inl (Normal.cons_slash_path one two' parts.symm)
  · rcases m.isMark with one' | two'
    · exact Or.inr (Normal.cons_slash_path one' two parts)
    · exact absurd (Normal.path_inj.mpr ⟨two.trans two'.symm, parts⟩) ne

/-- The two leading slashes are those of a root. -/
theorem exists_root_of_cons_slash (h : t.Straight) (hp : p ∈ (Build.findFiles t settings).value)
    (hq : "/" ++ p ∈ (Build.findFiles t settings).value) :
    ∃ root ∈ settings.roots, Path.rootMark root.toList = ['/', '/'] := by
  rcases h.exists_leads hp with ⟨n, -, rfl, -⟩
  rcases h.exists_leads hq with ⟨m, -, slash, -⟩
  rcases Normal.of_cons_slash slash.symm with ⟨-, two, -⟩
  rcases h.exists_root_mark (slash ▸ hq) with ⟨root, listed, mark⟩
  refine ⟨root, listed, ?_⟩
  rw [two, markOf] at mark
  by_cases absolute : Path.isAbsolute root = true
  · rw [if_pos absolute] at mark
    exact mark.symm
  · rw [if_neg absolute] at mark
    cases mark

end FileTree.Straight

/-- In a file tree without links, every path that is found leads to a file, and no file is found twice just
if no path is found in two spellings. Where roots spell out no bytes, the two spellings can only be with one
and with two leading slashes, and then a root has exactly two. If no path is found in two spellings, each
file is indexed once, so that the index holds its usages once. -/
theorem build_indexes_once_iff (straight : w.files.Straight) :
    let found := (Build.findFiles w.files settings).value
    (∀ p ∈ found, ∃ ρ bytes, w.files.placeOf? p = some ρ ∧ entryAt w.files.root ρ = some (.file bytes)) ∧
    ((found.Pairwise fun p q => w.files.placeOf? p ≠ w.files.placeOf? q) ↔
      ∀ p ∈ found, ∀ q ∈ found, ¬ FileTree.Respelled p q) ∧
    ((∀ root ∈ settings.roots, w.files.SpelledAsNamed root) →
      (∀ p ∈ found, ∀ q ∈ found, FileTree.Respelled p q → q = "/" ++ p ∨ p = "/" ++ q) ∧
      ((∀ root ∈ settings.roots, Path.rootMark root.toList ≠ ['/', '/']) →
        ∀ p ∈ found, ∀ q ∈ found, ¬ FileTree.Respelled p q)) ∧
    ((∀ p ∈ found, ∀ q ∈ found, ¬ FileTree.Respelled p q) → ∀ file ∈ found,
      (build w settings).value.1.usages.filter
          (fun u => w.files.placeOf? u.file = w.files.placeOf? file) =
        (FileIndex.ofFile w settings.containerNames file).value.usages) := by
  intro found
  have nodup : found.Nodup := by
    show (Build.findFiles w.files settings).value.Nodup
    rw [Build.value_findFiles]
    exact nodup_distinct _
  have apart {p q : Path} (hp : p ∈ found) (hq : q ∈ found) (ne : p ≠ q) :
      w.files.placeOf? p ≠ w.files.placeOf? q ↔ ¬ FileTree.Respelled p q := by
    rw [Ne, straight.placeOf?_eq_iff hp hq, FileTree.Respelled]
    simp [ne]
  refine ⟨?_, ⟨?_, ?_⟩, ?_, ?_⟩
  -- each path leads to a file
  · intro p hp
    rcases straight.exists_leads hp with ⟨n, bytes, -, place, file⟩
    exact ⟨_, bytes, place, file⟩
  -- the list has no repetitions, so being apart is a matter of names alone
  · intro pairwise p hp q hq respelled
    have symmetric : Std.Symm fun p q => w.files.placeOf? p ≠ w.files.placeOf? q := ⟨fun _ _ => Ne.symm⟩
    have ne := respelled.1
    exact (apart hp hq ne).mp (pairwise.forall hp hq ne) respelled
  · intro once
    exact nodup.imp_of_mem fun hp hq ne => (apart hp hq ne).mpr (once _ hp _ hq)
  -- names that spell out nothing give the parts back, which leaves the leading slashes
  · intro spelled
    have slash {p q : Path} (hp : p ∈ found) (hq : q ∈ found) :=
      straight.slash_of_respelled spelled hp hq
    refine ⟨fun p hp q hq => slash hp hq, ?_⟩
    intro single p hp q hq respelled
    have two : ∃ root ∈ settings.roots, Path.rootMark root.toList = ['/', '/'] := by
      rcases slash hp hq respelled with rfl | rfl
      · exact straight.exists_root_of_cons_slash hp hq
      · exact straight.exists_root_of_cons_slash hq hp
    rcases two with ⟨root, listed, mark⟩
    exact single root listed mark
  -- usages bear the path of their file, so those of one file all come from one path
  · intro once file hfile
    have bears (p : Path) : ∀ u ∈ (FileIndex.ofFile w settings.containerNames p).value.usages,
        u.file = p :=
      (FileIndex.becomes_ofFile w settings.containerNames p).bears.2
    rw [usages_build, List.filter_flatMap, flatMap_eq_of_nodup nodup hfile]
    · apply List.filter_eq_self.mpr
      intro u hu
      rw [bears file u hu, decide_eq_true rfl]
    · intro p hp ne
      apply List.filter_eq_nil_iff.mpr
      intro u hu
      rw [bears p u hu, decide_eq_true_eq]
      exact (apart hp hfile ne).mpr (once p hp file hfile)

/-! ## One directory, two roots -/

/-- The tree of `container.cradle.k;`. -/
def cradleTree : Code.Node :=
  .mk { kind := .other "program", start := 0, stop := 19 } [
    .mk { kind := .expressionStatement, start := 0, stop := 19 } [
      .mk { kind := .memberAccess, start := 0, stop := 18 } [
        .mk { kind := .memberAccess, start := 0, stop := 16, field := some .object } [
          .mk { kind := .identifier, start := 0, stop := 9, field := some .object } [],
          .mk { kind := .propertyIdentifier, start := 10, stop := 16, field := some .property } []],
        .mk { kind := .propertyIdentifier, start := 17, stop := 18, field := some .property } []]]]

/-- A workspace with one file, `/w/a.js`, and the tree of it. -/
def oneFile (bytes : Bytes) (tree : Code.Node) : Workspace where
  files := flat [("a.js", bytes)]
  parser _ _ := tree

/-- The file uses one key once. -/
def oneUsage : Workspace :=
  oneFile (Utf8.encode "container.cradle.k;") cradleTree

/-- The one usage, by the path of its file. -/
def usageIn (file : Path) : Usage :=
  ⟨file, ⟨⟨0, 17⟩, ⟨0, 18⟩⟩, "k", .cradleAccess⟩

theorem wellNamed_oneFile (bytes : Bytes) (tree : Code.Node) : (oneFile bytes tree).files.root.WellNamed := by
  have file : (Entry.file bytes).WellNamed := Entry.wellNamed_of_not_isFolder rfl
  apply Entry.wellNamed_folder
  simp only [List.forall_mem_singleton]
  refine ⟨by decide, Entry.wellNamed_folder ?_⟩
  simp only [List.map_cons, List.map_nil, List.forall_mem_singleton]
  exact ⟨by decide, file⟩

theorem read_oneFile (bytes : Bytes) (tree : Code.Node) :
    (oneFile bytes tree).files.read "/w/a.js" = .ok bytes := by
  rfl

theorem small_oneUsage : (Utf8.encode "container.cradle.k;").length ≤ 1000000 := by
  have length : (Utf8.encode "container.cradle.k;").length = 19 := by decide +kernel
  omega

theorem usages_oneUsage :
    (FileIndex.ofFile oneUsage ["container"] "/w/a.js").value.usages = [usageIn "/w/a.js"] ∧
      (FileIndex.ofFile oneUsage ["container"] "//w/a.js").value.usages = [usageIn "//w/a.js"] := by
  constructor
  · decide +kernel
  · decide +kernel

/-- The settings with the given roots. -/
def rootedAt (roots : List Path) : Settings := { roots }

/-- The search below a root that leads to the directory finds its one file. -/
theorem value_filesBelow_oneFile {bytes : Bytes} {tree : Code.Node} (small : bytes.length ≤ 1000000)
    {roots : List Path} {root file : Path}
    (absolute : (oneFile bytes tree).files.absolute root = .ok root)
    (folder : (oneFile bytes tree).files.entry root = .ok (.folder [("a.js", .file bytes)]))
    (free : Spot.barrier? ⟨root, ""⟩ true = none)
    (path : Spot.entryPath ⟨root, ""⟩ "a.js" = file)
    (size : (oneFile bytes tree).files.size file = .ok bytes.length) :
    (Build.filesBelow (oneFile bytes tree).files (rootedAt roots) root).value = [file] := by
  have names : (Survey.mk (oneFile bytes tree).files (rootedAt roots)).fileNames ⟨root, ""⟩
      [("a.js", .file bytes)] = ["a.js"] := List.mergeSort_singleton _
  have source : (rootedAt roots).isSource "a.js" = true := rfl
  have kept : (IgnoreRules.ofPatterns []).ignores "a.js" = false := by decide
  have limit : (bytes.length : Int) ≤ 1000000 := by omega
  have accepted : (Survey.mk (oneFile bytes tree).files (rootedAt roots)).Accepts ⟨root, ""⟩ "a.js" :=
    ⟨source, kept, bytes.length, path ▸ size, limit⟩
  have nothing : ((Survey.mk (oneFile bytes tree).files (rootedAt roots)).sourcesBelow ⟨root, ""⟩
    [("a.js", .file bytes)]).value = [] := rfl
  rw [Build.value_filesBelow_folder _ absolute folder, Survey.value_sourcesIn_folder _ _ free, names,
    List.filter_singleton, decide_eq_true accepted, nothing]
  simp [path]

theorem value_filesBelow_oneSlash {bytes : Bytes} {tree : Code.Node} (small : bytes.length ≤ 1000000)
    (roots : List Path) :
    (Build.filesBelow (oneFile bytes tree).files (rootedAt roots) "/w").value = ["/w/a.js"] :=
  value_filesBelow_oneFile small rfl rfl (by decide) (by decide) rfl

theorem value_filesBelow_twoSlashes {bytes : Bytes} {tree : Code.Node} (small : bytes.length ≤ 1000000)
    (roots : List Path) :
    (Build.filesBelow (oneFile bytes tree).files (rootedAt roots) "//w").value = ["//w/a.js"] :=
  value_filesBelow_oneFile small rfl rfl (by decide) (by decide) rfl

theorem value_findFiles_oneSlash :
    (Build.findFiles oneUsage.files (rootedAt ["/w"])).value = ["/w/a.js"] := by
  rw [Build.value_findFiles]
  show distinct ((Build.filesBelow oneUsage.files _ "/w").value ++ []) = _
  rw [oneUsage, value_filesBelow_oneSlash small_oneUsage]
  rfl

theorem value_findFiles_twoSlashes :
    (Build.findFiles oneUsage.files (rootedAt ["/w", "//w"])).value = ["/w/a.js", "//w/a.js"] := by
  rw [Build.value_findFiles]
  show distinct ((Build.filesBelow oneUsage.files _ "/w").value ++
    ((Build.filesBelow oneUsage.files _ "//w").value ++ [])) = _
  rw [oneUsage, value_filesBelow_oneSlash small_oneUsage, value_filesBelow_twoSlashes small_oneUsage]
  decide

/-- With the roots `/w` and `//w`, one file is found under two paths, and its one usage counts twice. -/
theorem twice_found_below_two_slashes :
    (Build.findFiles oneUsage.files (rootedAt ["/w", "//w"])).value = ["/w/a.js", "//w/a.js"] ∧
      oneUsage.files.placeOf? "/w/a.js" = some ["w", "a.js"] ∧
      oneUsage.files.placeOf? "//w/a.js" = some ["w", "a.js"] ∧
      (build oneUsage (rootedAt ["/w", "//w"])).value.1.usages =
        [usageIn "/w/a.js", usageIn "//w/a.js"] := by
  refine ⟨value_findFiles_twoSlashes, by decide, by decide, ?_⟩
  rw [usages_build, value_findFiles_twoSlashes]
  show (FileIndex.ofFile oneUsage ["container"] "/w/a.js").value.usages ++
    ((FileIndex.ofFile oneUsage ["container"] "//w/a.js").value.usages ++ []) = _
  rw [usages_oneUsage.1, usages_oneUsage.2]
  rfl

theorem straight_oneFile (bytes : Bytes) (tree : Code.Node) : (oneFile bytes tree).files.Straight where
  tidy := tidy_flat (by simp)
  named := wellNamed_oneFile bytes tree
  noLinks := noLinks_flat _
  rooted := by
    rintro _ ⟨⟩
    exact ⟨⟨['/'], [['w']], Or.inl rfl, by simp; decide⟩, by decide, rfl⟩

theorem spelledAsNamed_oneUsage {root : Path} (absolute : oneUsage.files.absolute root = .ok "/w") :
    oneUsage.files.SpelledAsNamed root := by
  intro n absolute'
  have path : n.path = "/w" := Except.ok.inj (absolute'.symm.trans absolute)
  have parts : n.parts = [['w']] := by
    rw [← n.filter_parts_chars, ← n.toList_path, path]
    decide
  rw [parts]
  decide

/-- With the roots `/w` and `.`, the file is indexed once. -/
theorem build_indexes_once_iff_relative :
    oneUsage.files.Straight ∧
      ((Build.findFiles oneUsage.files (rootedAt ["/w", "."])).value.Pairwise fun p q =>
        oneUsage.files.placeOf? p ≠ oneUsage.files.placeOf? q) ∧
      (build oneUsage (rootedAt ["/w", "."])).value.1.usages.filter
          (fun u => oneUsage.files.placeOf? u.file = oneUsage.files.placeOf? "/w/a.js") =
        [usageIn "/w/a.js"] := by
  have spelled : ∀ root ∈ (rootedAt ["/w", "."]).roots, oneUsage.files.SpelledAsNamed root := by
    simp only [rootedAt, List.forall_mem_cons]
    exact ⟨spelledAsNamed_oneUsage (by decide), spelledAsNamed_oneUsage (by decide), by simp⟩
  rcases @build_indexes_once_iff oneUsage (rootedAt ["/w", "."]) (straight_oneFile _ _) with
    ⟨-, pairwise, slashes, counted⟩
  have once := (slashes spelled).2 (by decide)
  have listed : "/w/a.js" ∈ (Build.findFiles oneUsage.files (rootedAt ["/w", "."])).value := by
    rw [Build.mem_findFiles]
    refine ⟨"/w", List.mem_cons_self, ?_⟩
    rw [oneUsage, value_filesBelow_oneSlash small_oneUsage]
    exact List.mem_cons_self
  refine ⟨straight_oneFile _ _, pairwise.mpr once, ?_⟩
  rw [counted once "/w/a.js" listed]
  exact usages_oneUsage.1

end ContainerKeys
