import ContainerKeys.Proofs.Packages

/-!
# Paths inside a package

A package specifier is the name of the package, a slash and a path inside it. If that path does not go up,
what it stands for is below the directory of the package. The exception is a path that starts with a slash
itself: it is taken from the root.

* `Path.Within` — a path below a directory.
* `Resolution.toList_eq_of_splitPackage` — the name and the path make up the specifier.
* `Resolution.within_of_mem_modulePaths` — the paths that a path inside a package may stand for.
* `Resolution.resolve_within_package` — what a specifier with a path inside a package stands for.
-/

namespace ContainerKeys

/-! ## Paths below a directory -/

namespace Path

/-- No part stays in a directory or goes up from it. -/
def NoDots (p : List Char) : Prop :=
  ∀ part ∈ parts p, part ≠ ['.'] ∧ part ≠ ['.', '.']

instance (p : List Char) : Decidable (NoDots p) :=
  inferInstanceAs (Decidable (∀ part ∈ parts p, _))

/-- A path goes on from a directory and does not go up. -/
def Within (p folder : Path) : Prop :=
  ∃ rest, rest ≠ [] ∧ p.toList = lead folder ++ rest ∧ NoDots rest

variable {cs ending : List Char}

theorem NoDots.append (noDots : NoDots cs) (free : '/' ∉ ending) (long : 2 < ending.length) :
    NoDots (cs ++ ending) := by
  rcases Text.splitOn_append free cs with ⟨front, last, split, longer⟩
  intro part member
  rw [parts, longer, List.mem_append, List.mem_singleton] at member
  rcases member with before | rfl
  · apply noDots
    rw [parts, split]
    exact List.mem_append_left _ before
  · constructor
    · intro dot
      have length := congrArg List.length dot
      simp at length
      omega
    · intro up
      have length := congrArg List.length up
      simp at length
      omega

theorem NoDots.append_cons (noDots : NoDots cs) (noDots' : NoDots ending) :
    NoDots (cs ++ '/' :: ending) := by
  intro part member
  rw [parts, Text.splitOn_append_cons, List.mem_append] at member
  rcases member with before | behind
  · exact noDots part before
  · exact noDots' part behind

theorem Plain.noDots {part : List Char} (plain : Plain part) : NoDots part := by
  intro other member
  rw [parts, Text.splitOn_of_not_mem plain.noSlash, List.mem_singleton] at member
  rw [member]
  exact ⟨plain.notDot, plain.notUp⟩

theorem lead_join_of_relative (p : Path) {q : Path} (some : q ≠ "") (relative : ¬ isAbsolute q = true) :
    lead (join p q) = lead p ++ lead q := by
  have nonempty : q.toList ≠ [] := fun none => some (String.toList_injective none)
  have last : (lead p ++ q.toList).getLast? = q.toList.getLast? := by
    rw [List.getLast?_append_of_ne_nil _ nonempty]
  unfold lead at last ⊢
  rw [toList_join p relative, lead, last]
  split
  · rfl
  · exact List.append_assoc _ _ _

end Path

namespace Resolution

open ContainerKeys.Path (Within NoDots)

/-- A specifier is cut behind some of its parts. -/
theorem exists_splitPackage (specifier : String) :
    ∃ k, 0 < k ∧ splitPackage specifier =
      (String.ofList (Text.joinWith '/' ((Path.parts specifier.toList).take k)),
        String.ofList (Text.joinWith '/' ((Path.parts specifier.toList).drop k))) := by
  unfold splitPackage
  dsimp only
  split
  · exact ⟨2, by decide, rfl⟩
  · exact ⟨1, by decide, rfl⟩

/-- The name and the path inside the package make up a specifier. -/
theorem toList_eq_of_splitPackage {specifier : String} (some : (splitPackage specifier).2 ≠ "") :
    specifier.toList = (splitPackage specifier).1.toList ++ '/' :: (splitPackage specifier).2.toList := by
  rcases exists_splitPackage specifier with ⟨k, positive, split⟩
  have front : (Path.parts specifier.toList).take k ≠ [] := by
    rw [ne_eq, List.take_eq_nil_iff, not_or]
    exact ⟨Nat.ne_of_gt positive, Text.splitOn_ne_nil '/' specifier.toList⟩
  have back : (Path.parts specifier.toList).drop k ≠ [] := by
    intro none
    rw [split, none] at some
    exact some rfl
  rw [split, String.toList_ofList, String.toList_ofList, ← Text.joinWith_append '/' front back,
    List.take_append_drop]
  exact (Text.joinWith_splitOn specifier.toList).symm

/-- What a path inside a package may stand for is inside the package. -/
theorem within_of_mem_modulePaths {package q : Path} {subpath : String} (some : subpath ≠ "")
    (relative : ¬ Path.isAbsolute subpath = true) (noDots : NoDots subpath.toList)
    (h : q ∈ modulePaths (Path.join package subpath)) : Within q package := by
  have joined : (Path.join package subpath).toList = Path.lead package ++ subpath.toList :=
    Path.toList_join package relative
  have nonempty : subpath.toList ≠ [] := fun none => some (String.toList_injective none)
  have endings : ∀ ending ∈ Code.sourceExtensions, '/' ∉ ending.toList ∧ 2 < ending.toList.length ∧
      Path.Plain ("index" ++ ending).toList := by
    decide
  rcases List.mem_append.mp h with direct | index
  · rcases List.mem_cons.mp direct with rfl | extended
    · exact ⟨subpath.toList, nonempty, joined, noDots⟩
    · rcases List.mem_map.mp extended with ⟨ending, known, rfl⟩
      rcases endings ending known with ⟨free, long, -⟩
      refine ⟨subpath.toList ++ ending.toList, by simp [nonempty], ?_, noDots.append free long⟩
      rw [String.toList_append, joined, List.append_assoc]
  · rcases List.mem_map.mp index with ⟨ending, known, rfl⟩
    rcases endings ending known with ⟨-, long, plain⟩
    have name : ("index" ++ ending).toList = "index".toList ++ ending.toList := String.toList_append
    refine ⟨Path.lead subpath ++ ("index" ++ ending).toList, by simp [name], ?_, ?_⟩
    · rw [Path.join_append _ (by decide) plain, Path.toList_join _ plain.not_isAbsolute,
        Path.lead_join_of_relative package some relative, List.append_assoc]
    · -- a slash at the end of the path is not doubled
      rw [Path.lead]
      split
      · exact noDots.append plain.noSlash (by rw [name, List.length_append]; omega)
      · rw [List.append_assoc]
        exact noDots.append_cons plain.noDots

/-- What a specifier with a path inside a package stands for is inside that package, as it is found in a
directory above the file, unless the path starts with a slash. Then it stands for that path itself. -/
theorem resolve_within_package (files : FileTree) {specifier : String} {importer q : Path}
    {n : Path.Normal} (absolute : files.absolute importer = .ok n.path)
    (package : isPathSpecifier specifier = false) (some : (splitPackage specifier).2 ≠ "")
    (noDots : NoDots (splitPackage specifier).2.toList)
    (h : (resolve files specifier importer).outcome = .ok (Option.some q)) :
    specifier.toList = (splitPackage specifier).1.toList ++ '/' :: (splitPackage specifier).2.toList ∧
      (¬ Path.isAbsolute (splitPackage specifier).2 = true →
        ∃ k ≤ n.parts.length - 1, Within q (packageBelow (n.upTo k) (splitPackage specifier).1)) ∧
      (Path.isAbsolute (splitPackage specifier).2 = true → q ∈ modulePaths (splitPackage specifier).2) := by
  have searched : ¬ NamesNoPackage specifier := by
    intro nothing
    rw [outcome_resolve, if_neg (by simp [package]), if_pos nothing] at h
    cases h
  rw [outcome_resolve_package files absolute package searched] at h
  rcases (eq_some_iff_of_outcome_searchFolders h q).mp rfl with ⟨k, upper, serves, -⟩
  have member : q ∈ modulePaths
      (Path.join (packageBelow (n.upTo k) (splitPackage specifier).1) (splitPackage specifier).2) :=
    List.mem_of_find?_eq_some (serves.gives.stands_of_ne some)
  refine ⟨toList_eq_of_splitPackage some, ?_, ?_⟩
  · intro relative
    exact ⟨k, Nat.le_of_lt_succ upper, within_of_mem_modulePaths some relative noDots member⟩
  · intro rooted
    rw [Path.join, if_pos rooted] at member
    exact member

/-- A path inside a package, found with an extension. -/
theorem resolve_within_package_lib :
    let files := packageTree [("lib.js", .file [])] [] []
    (resolve files "p/lib" "/w/a.js").outcome = .ok (some "/w/node_modules/p/lib.js") ∧
      ∃ k ≤ 1, Within "/w/node_modules/p/lib.js" (packageBelow (importingFile.upTo k) "p") := by
  intro files
  have split : splitPackage "p/lib" = ("p", "lib") := by decide
  have absolute : files.absolute "/w/a.js" = .ok importingFile.path := absolute_importingFile _ _ _
  have serves : Serves files "p" "lib" (importingFile.upTo 1) "/w/node_modules/p/lib.js" := by
    have path : Path.join "/w/node_modules/p" "lib" = "/w/node_modules/p/lib" := by decide
    have withJs : "/w/node_modules/p/lib" ++ ".js" = "/w/node_modules/p/lib.js" := by decide
    refine ⟨holdsPackage_near _ _ _, .inside (by decide) ?_⟩
    rw [packageBelow_near, path, ← withJs]
    apply stands_js
    · decide +kernel
    · rw [withJs]
      decide +kernel
  have package : isPathSpecifier "p/lib" = false := by decide +kernel
  have searched : ¬ NamesNoPackage "p/lib" := by decide
  have outcome : (resolve files "p/lib" "/w/a.js").outcome = .ok (some "/w/node_modules/p/lib.js") :=
    outcome_resolve_of_serves files absolute package searched (by decide) (split ▸ serves)
  have within := (resolve_within_package files absolute package (by decide) (by decide) outcome).2.1
  rw [split] at within
  exact ⟨outcome, within (by decide)⟩

/-- A path that starts with a slash leads out of the package. -/
theorem resolve_leaves_package :
    let files := packageTree [] [] [("x.js", .file [])]
    splitPackage "p//w/x.js" = ("p", "/w/x.js") ∧ NoDots "/w/x.js".toList ∧
      (resolve files "p//w/x.js" "/w/a.js").outcome = .ok (some "/w/x.js") ∧
      ∀ k ≤ 1, ¬ Within "/w/x.js" (packageBelow (importingFile.upTo k) "p") := by
  intro files
  have split : splitPackage "p//w/x.js" = ("p", "/w/x.js") := by decide
  have absolute : files.absolute "/w/a.js" = .ok importingFile.path := absolute_importingFile _ _ _
  have serves : Serves files "p" "/w/x.js" (importingFile.upTo 1) "/w/x.js" := by
    have path : Path.join "/w/node_modules/p" "/w/x.js" = "/w/x.js" := by decide
    have file : files.isFile "/w/x.js" = true := by decide +kernel
    refine ⟨holdsPackage_near _ _ _, .inside (by decide) ?_⟩
    rw [packageBelow_near, path]
    exact List.find?_cons_of_pos file
  refine ⟨split, by decide, ?_, ?_⟩
  · exact outcome_resolve_of_serves files absolute (by decide +kernel) (by decide) (by decide) (split ▸ serves)
  · rintro k upper ⟨rest, -, below, -⟩
    rcases Nat.le_one_iff_eq_zero_or_eq_one.mp upper with rfl | rfl
    · rw [packageBelow_far] at below
      exact absurd ⟨rest, below.symm⟩ (by decide : ¬ Path.lead "/node_modules/p" <+: "/w/x.js".toList)
    · rw [packageBelow_near] at below
      exact absurd ⟨rest, below.symm⟩ (by decide : ¬ Path.lead "/w/node_modules/p" <+: "/w/x.js".toList)

end Resolution

end ContainerKeys
