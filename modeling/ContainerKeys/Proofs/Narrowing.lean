import ContainerKeys.Proofs.Surveys
import Mathlib.Data.List.Flatten

/-!
# Narrower searches

More globs, fewer extensions and a smaller limit only take files away from what a search finds; those that
are left keep their order. More globs leave out whole directories, so the two searches are compared directory
by directory.

* `Survey.Narrower` — one search accepts and enters no more than another one in the same tree.
* `Survey.Narrower.sourcesIn_sublist` — what it finds in a directory and below, by induction over the tree.
* `enumerate_sublist_of_narrower` — the search below a root.
-/

namespace ContainerKeys

/-! ## Sorted sublists -/

/-- A new element goes in front of those that are no smaller, and behind all others. -/
theorem mergeSort_key_cons (key : α → String) (a : α) (l : List α) :
    ((a :: l).mergeSort fun a b => key a ≤ key b) =
      (l.mergeSort fun a b => key a ≤ key b).filter (fun b => !decide (key a ≤ key b)) ++
        a :: (l.mergeSort fun a b => key a ≤ key b).filter fun b => decide (key a ≤ key b) := by
  rcases List.mergeSort_cons (key_le_trans key) (key_le_total key) a l with
    ⟨smaller, others, whole, rest, isSmaller⟩
  have sorted := pairwise_mergeSort_key key (a :: l)
  rw [whole, List.pairwise_append, List.pairwise_cons] at sorted
  have noSmaller : ∀ b ∈ others, decide (key a ≤ key b) = true := by
    intro b hb
    exact decide_eq_true (sorted.2.1.1 b hb)
  have front : smaller.filter (fun b => decide (key a ≤ key b)) = [] := by
    rw [List.filter_eq_nil_iff]
    intro b hb
    simpa using isSmaller b hb
  have back : others.filter (fun b => !decide (key a ≤ key b)) = [] := by
    rw [List.filter_eq_nil_iff]
    intro b hb
    rw [noSmaller b hb]
    exact Bool.false_ne_true
  rw [whole, rest, List.filter_append, List.filter_append, front, back,
    List.filter_eq_self.mpr isSmaller, List.filter_eq_self.mpr noSmaller, List.append_nil, List.nil_append]

/-- Sorting by a key keeps a sublist: elements with the same key stay in their order. -/
theorem mergeSort_key_sublist (key : α → String) {l l' : List α} (sub : l.Sublist l') :
    (l.mergeSort fun a b => key a ≤ key b).Sublist (l'.mergeSort fun a b => key a ≤ key b) := by
  induction sub with
  | slnil => exact List.Sublist.refl _
  | cons a sub ih =>
    rcases List.mergeSort_cons (key_le_trans key) (key_le_total key) a _ with
      ⟨smaller, others, whole, rest, -⟩
    rw [whole]
    rw [rest] at ih
    exact ih.trans ((List.sublist_cons_self a others).append_left smaller)
  | cons_cons a sub ih =>
    rw [mergeSort_key_cons, mergeSort_key_cons]
    exact (ih.filter _).append ((ih.filter _).cons_cons a)

/-! ## Two searches in one tree -/

namespace Survey

/-- The search `s` goes through the same tree as `s'` and takes in no more than it. -/
structure Narrower (s s' : Survey) : Prop where
  files : s.files = s'.files
  ignores : ∀ path, s'.rules.ignores path = true → s.rules.ignores path = true
  source : ∀ name, s.settings.isSource name = true → s'.settings.isSource name = true
  limit : s.settings.maxFileSize ≤ s'.settings.maxFileSize

namespace Narrower

variable {s s' : Survey} (h : s.Narrower s')

include h

theorem kept {path : String} (kept : s.rules.ignores path = false) : s'.rules.ignores path = false := by
  cases ignored : s'.rules.ignores path with
  | false => rfl
  | true =>
    rw [h.ignores path ignored] at kept
    exact kept

theorem accepts {spot : Spot} {name : String} (accepted : s.Accepts spot name) : s'.Accepts spot name := by
  rcases accepted with ⟨source, kept, size, known, small⟩
  refine ⟨h.source name source, h.kept kept, size, ?_, Int.le_trans small h.limit⟩
  rw [← h.files]
  exact known

/-- Both searches meet the same files in a directory. -/
theorem fileNames_eq (spot : Spot) (entries : List (String × Entry)) :
    s.fileNames spot entries = s'.fileNames spot entries := by
  have same : ∀ name e, s.countsAsFolder spot name e = s'.countsAsFolder spot name e := by
    intro name e
    cases e with
    | file => rfl
    | folder => rfl
    | link => rw [countsAsFolder, countsAsFolder, h.files]
  unfold fileNames
  simp only [same]

theorem entered_sublist (spot : Spot) (entries : List (String × Entry)) :
    (s.entered spot entries).Sublist (s'.entered spot entries) := by
  apply mergeSort_key_sublist Prod.fst
  apply List.monotone_filter_right
  intro c enters
  rw [decide_eq_true_eq] at enters ⊢
  exact ⟨enters.1, h.kept enters.2⟩

/-- What the narrower search finds in a directory and below is found by the other one, in the same order. -/
theorem sourcesIn_sublist (spot : Spot) (e : Entry) :
    (s.sourcesIn spot e).value.Sublist (s'.sourcesIn spot e).value := by
  induction e using Entry.induction_on generalizing spot with
  | file => exact List.Sublist.refl _
  | link => exact List.Sublist.refl _
  | folder entries listable ih =>
    cases barrier : spot.barrier? listable with
    | none =>
      rw [value_sourcesIn_eq_flatMap barrier, value_sourcesIn_eq_flatMap barrier, h.fileNames_eq]
      apply List.Sublist.append
      · apply List.Sublist.map
        apply List.monotone_filter_right
        intro name accepted
        rw [decide_eq_true_eq] at accepted ⊢
        exact h.accepts accepted
      -- first the same directories with less in them, then more directories
      · have less := List.Sublist.flatMap_right (s.entered spot entries) fun c hc =>
          ih c (mem_entered.mp hc).1 (spot.below c.1)
        exact less.trans ((h.entered_sublist spot entries).flatMap _)
    -- what cannot be listed is listed by neither search
    | some error =>
      rw [value_sourcesIn_of_barrier s entries barrier]
      exact List.nil_sublist _

end Narrower

end Survey

/-- Further globs leave out no less. -/
theorem IgnoreRules.ignores_append {ignored more : List String} {path : String}
    (h : (ofPatterns ignored).ignores path = true) : (ofPatterns (ignored ++ more)).ignores path = true := by
  rw [ignores, List.any_eq_true] at h ⊢
  rcases h with ⟨pattern, given, accepts⟩
  refine ⟨pattern, ?_, accepts⟩
  rw [ofPatterns, mem_distinct] at given ⊢
  rw [← List.append_assoc]
  exact List.mem_append_left more given

/-- The settings with these globs, extensions and size limit. -/
def Settings.searching (settings : Settings) (ignored extensions : List String) (limit : Int) : Settings :=
  { settings with ignorePatterns := ignored, extensions := some extensions, maxFileSize := limit }

theorem Settings.sourceExtensions_searching (settings : Settings) (ignored : List String)
    {extensions : List String} (some : extensions ≠ []) (limit : Int) :
    (settings.searching ignored extensions limit).sourceExtensions = extensions := by
  cases extensions with
  | nil => exact absurd rfl some
  | cons e es => rfl

/-- Whether a root can be searched does not depend on the settings. -/
theorem outcome_enumerate_cases (files : FileTree) (root : Path) :
    (∃ fault, ∀ settings, (enumerate files settings root).outcome = .error fault) ∨
      ∃ path e, ∀ settings, (enumerate files settings root).outcome =
        .ok (Survey.sourcesIn ⟨files, settings⟩ ⟨path, ""⟩ e).value := by
  cases absolute : files.absolute root with
  | error fault =>
    refine .inl ⟨.path fault, fun settings => ?_⟩
    rw [enumerate, absolute]
    rfl
  | ok path =>
    by_cases folder : ∃ entries listable, files.entry path = .ok (.folder entries listable)
    · rcases folder with ⟨entries, listable, folder⟩
      exact .inr ⟨path, _, fun settings => outcome_enumerate_folder absolute folder⟩
    · have plain : ∀ entries listable, files.entry path ≠ .ok (.folder entries listable) :=
        fun entries listable found => folder ⟨entries, listable, found⟩
      exact .inl ⟨.notFolder path, fun settings => outcome_enumerate_of_not_folder absolute plain⟩

/-- A search with further globs, fewer extensions and a smaller limit fails where the other one fails, and
finds a part of what the other one finds, in the same order. -/
theorem enumerate_sublist_of_narrower (files : FileTree) (settings : Settings) (root : Path)
    (ignored more : List String) {extensions extensions' : List String} {limit limit' : Int}
    (some : extensions ≠ []) (included : extensions ⊆ extensions') (limits : limit ≤ limit') :
    (∃ fault,
      (enumerate files (settings.searching (ignored ++ more) extensions limit) root).outcome = .error fault ∧
      (enumerate files (settings.searching ignored extensions' limit') root).outcome = .error fault) ∨
    ∃ found found',
      (enumerate files (settings.searching (ignored ++ more) extensions limit) root).outcome = .ok found ∧
      (enumerate files (settings.searching ignored extensions' limit') root).outcome = .ok found' ∧
      found.Sublist found' := by
  have some' : extensions' ≠ [] := by
    rintro rfl
    exact some (List.subset_nil.mp included)
  have narrower : Survey.Narrower ⟨files, settings.searching (ignored ++ more) extensions limit⟩
      ⟨files, settings.searching ignored extensions' limit'⟩ := by
    refine ⟨rfl, fun path => IgnoreRules.ignores_append, ?_, limits⟩
    intro name source
    rw [Settings.isSource, Settings.sourceExtensions_searching _ _ some, List.contains_iff_mem] at source
    rw [Settings.isSource, Settings.sourceExtensions_searching _ _ some', List.contains_iff_mem]
    exact included source
  rcases outcome_enumerate_cases files root with ⟨fault, fails⟩ | ⟨path, e, finds⟩
  · exact .inl ⟨fault, fails _, fails _⟩
  · exact .inr ⟨_, _, finds _, finds _, narrower.sourcesIn_sublist _ _⟩

/-- Settings for a search in `linkedTree` for empty scripts outside of the sub-directory. -/
def outsideSub : Settings :=
  Settings.searching {} (["*.md"] ++ ["sub/**"]) [".js"] 0

/-- The narrower search still finds a file of the directory itself. -/
theorem enumerate_sublist_of_narrower_linked :
    [".js"] ≠ [] ∧ [".js"] ⊆ [".ts", ".js"] ∧ (0 : Int) ≤ 1000000 ∧
      ∃ found found',
        (enumerate linkedTree outsideSub ".").outcome = .ok found ∧
        (enumerate linkedTree (Settings.searching {} ["*.md"] [".ts", ".js"] 1000000) ".").outcome =
          .ok found' ∧
        found.Sublist found' ∧ "/w/b.js" ∈ found := by
  have nonempty : [".js"] ≠ [] := by decide
  have included : [".js"] ⊆ [".ts", ".js"] := by decide
  have limits : (0 : Int) ≤ 1000000 := by decide
  have absolute : linkedTree.absolute "." = .ok "/w" := by decide
  have folder : linkedTree.entry "/w" = .ok (.folder [("sub", .folder [("c.js", .file [])]),
      ("again", .link "sub"), ("b.js", .file []), ("gone.js", .link "nowhere"), ("A.TS", .link "b.js"),
      ("dist", .folder [("d.js", .file [])])]) := rfl
  have source : outsideSub.isSource "b.js" = true := by decide
  have kept : (IgnoreRules.ofPatterns ["*.md", "sub/**"]).ignores "b.js" = false := by decide
  have size : linkedTree.size "/w/b.js" = .ok 0 := by decide
  have path : Spot.entryPath ⟨"/w", ""⟩ "b.js" = "/w/b.js" := by decide
  have accepted : (Survey.mk linkedTree outsideSub).Accepts ⟨"/w", ""⟩ "b.js" :=
    ⟨source, kept, 0, path ▸ size, Int.le_refl 0⟩
  refine ⟨nonempty, included, limits, ?_⟩
  have searched := @outcome_enumerate_folder linkedTree outsideSub _ _ _ _ absolute folder
  rcases enumerate_sublist_of_narrower linkedTree {} "." ["*.md"] ["sub/**"] nonempty included limits with
    ⟨fault, fails, -⟩ | ⟨found, found', finds, finds', sub⟩
  · cases searched.symm.trans fails
  · refine ⟨found, found', finds, finds', sub, ?_⟩
    rw [← Except.ok.inj (searched.symm.trans finds), ← path]
    apply Survey.mem_sourcesIn_of_accepts (by decide) ?_ accepted
    rw [Survey.mem_fileNames]
    exact ⟨.file [], by simp, rfl⟩

end ContainerKeys
