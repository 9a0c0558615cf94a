import ContainerKeys.FileTree.Basic
import ContainerKeys.Proofs.Pieces
import Mathlib.Data.List.TakeWhile

/-!
# Parts of paths

What joining paths does to their parts, and what the last part of a path says of it.

* `Path.parts_join` — the parts of the second path come last.
* `Path.extension_base` — the extension of a path is that of its last part.
-/

namespace ContainerKeys

namespace Path

/-- The parts of the second path come last, whatever the first one is. -/
theorem parts_join (p q : Path) :
    ∃ front, parts (join p q).toList = front ++ parts q.toList := by
  unfold join
  split
  · exact ⟨[], rfl⟩
  · split
    · rename_i ends
      rcases ends with none | slash
      -- nothing stands before the second path
      · have empty : p.toList = [] := List.getLast?_eq_none_iff.mp none
        exact ⟨[], by rw [String.toList_append, empty]; rfl⟩
      · obtain ⟨front, split⟩ := List.getLast?_eq_some_iff.mp slash
        refine ⟨parts front, ?_⟩
        rw [String.toList_append, split, List.append_assoc, List.singleton_append]
        exact Text.splitOn_append_cons '/' front q.toList
    · refine ⟨parts p.toList, ?_⟩
      rw [String.toList_append, String.toList_append, List.append_assoc]
      exact Text.splitOn_append_cons '/' p.toList q.toList

theorem baseChars_baseChars (p : List Char) : baseChars (baseChars p) = baseChars p := by
  unfold baseChars
  rw [List.reverse_reverse, List.takeWhile_idem]

/-- The extension of a path is that of its last part. -/
theorem extension_base (p : Path) : extension (base p) = extension p := by
  unfold extension base extensionChars
  rw [String.toList_ofList, baseChars_baseChars]

end Path

end ContainerKeys
