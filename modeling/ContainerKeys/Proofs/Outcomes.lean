import ContainerKeys.Proofs.Attempts
import ContainerKeys.Proofs.Drafts

/-!
# What becomes of a file

A file may fail to be read, to be parsed or to be decoded, also in the middle of a walk or after it, and
a manifest that it leads to may be nested too deep. Whatever happens, it has a file index, and a fault
leaves nothing else in it.

* `FileIndex.Becomes` — the file index of a file, by the step at which indexing it ends.
* `FileIndex.becomes_ofFile` — every file becomes something.
* `FileIndex.Becomes.nothing_of_fault` — a fault leaves nothing else.
-/

namespace ContainerKeys

open Code

theorem Attempt.outcome_lift {ε α : Type} (x : Logged α) :
    Attempt.outcome (liftM x : Attempt ε α) = .ok x.value := rfl

namespace FileIndex

/-! ## Outcomes -/

/-- What becomes of the bytes of a file, without the log. -/
theorem outcome_ofSource (w : Workspace) (containers : List String) (file : Path) (source : Bytes) :
    (ofSource w containers file source).outcome =
      match parse w.parser file source with
      | .error fault => .ok { file, fault := some (.unparsed fault) }
      | .ok root =>
        match (ofTree w.files ⟨file, source, containers⟩ root).outcome with
        | .ok index => .ok index
        | .error (.undecodable fault) => .ok { file, fault := some (.undecodable fault) }
        | .error (.tooDeep fault) => .error fault := by
  rw [ofSource, Attempt.outcome_bind, Attempt.outcome_lift]
  cases parse w.parser file source with
  | error fault => rfl
  | ok root =>
    show Attempt.outcome (liftM (ofTree w.files ⟨file, source, containers⟩ root).run >>= _) = _
    rw [Attempt.outcome_bind, Attempt.outcome_lift]
    show Attempt.outcome (match (ofTree w.files ⟨file, source, containers⟩ root).outcome with
      | .ok index => _
      | .error (.undecodable fault) => _
      | .error (.tooDeep fault) => _) = _
    cases done : (ofTree w.files ⟨file, source, containers⟩ root).outcome with
    | ok index =>
      simp only [done]
      rfl
    | error fault =>
      simp only [done]
      cases fault <;> rfl

section

variable {w : Workspace} {containers : List String} {file : Path}

theorem value_of_unreadable {fault : FileFault} (read : w.files.read file = .error fault) :
    (ofFile w containers file).value = { file, fault := some (.unreadable fault) } := by
  rw [ofFile, read]
  rfl

theorem value_of_readable {source : Bytes} (read : w.files.read file = .ok source) :
    (ofFile w containers file).value =
      match (ofSource w containers file source).outcome with
      | .ok index => index
      | .error fault => { file, fault := some (.tooDeep fault) } := by
  rw [ofFile, read]
  cases done : (ofSource w containers file source).outcome with
  | ok index =>
    have run : (ofSource w containers file source).run.value = .ok index := done
    simp only [Logged.value_bind, run]
    rfl
  | error fault =>
    have run : (ofSource w containers file source).run.value = .error fault := done
    simp only [Logged.value_bind, run]
    rfl

end

/-- The file index of a file, by the step at which indexing it ends. -/
inductive Becomes (w : Workspace) (containers : List String) (file : Path) : FileIndex → Prop
  | indexed {source : Bytes} {root : Node} {index : FileIndex}
      (read : w.files.read file = .ok source) (parsed : parse w.parser file source = .ok root)
      (done : (ofTree w.files ⟨file, source, containers⟩ root).outcome = .ok index) :
      Becomes w containers file index
  | unreadable {fault : FileFault} (read : w.files.read file = .error fault) :
      Becomes w containers file { file, fault := some (.unreadable fault) }
  | unparsed {source : Bytes} {fault : ParseFault}
      (read : w.files.read file = .ok source) (flawed : parse w.parser file source = .error fault) :
      Becomes w containers file { file, fault := some (.unparsed fault) }
  | undecodable {source : Bytes} {root : Node} {fault : Utf8.Fault}
      (read : w.files.read file = .ok source) (parsed : parse w.parser file source = .ok root)
      (broken : (ofTree w.files ⟨file, source, containers⟩ root).outcome =
        .error (.undecodable fault)) :
      Becomes w containers file { file, fault := some (.undecodable fault) }
  | tooDeep {source : Bytes} {root : Node} {fault : Json.TooDeep}
      (read : w.files.read file = .ok source) (parsed : parse w.parser file source = .ok root)
      (broken : (ofTree w.files ⟨file, source, containers⟩ root).outcome = .error (.tooDeep fault)) :
      Becomes w containers file { file, fault := some (.tooDeep fault) }

/-- Every file becomes something, whatever is in it. -/
theorem becomes_ofFile (w : Workspace) (containers : List String) (file : Path) :
    Becomes w containers file (ofFile w containers file).value := by
  cases read : w.files.read file with
  | error fault =>
    rw [value_of_unreadable read]
    exact .unreadable read
  | ok source =>
    rw [value_of_readable read, outcome_ofSource]
    cases parsed : parse w.parser file source with
    | error fault => exact .unparsed read parsed
    | ok root =>
      cases done : (ofTree w.files ⟨file, source, containers⟩ root).outcome with
      | ok index => simpa [done] using Becomes.indexed read parsed done
      | error fault =>
        cases fault with
        | undecodable fault => simpa [done] using Becomes.undecodable read parsed done
        | tooDeep fault => simpa [done] using Becomes.tooDeep read parsed done

/-- A tree that is indexed leaves no fault. -/
theorem fault_ofTree {files : FileTree} {x : Indexer} {root : Node} {index : FileIndex}
    (h : (ofTree files x root).outcome = .ok index) : index.fault = none := by
  unfold ofTree at h
  obtain ⟨findings, -, h⟩ := Attempt.outcome_bind_eq_ok.mp h
  obtain ⟨registrations, -, h⟩ := Attempt.outcome_bind_eq_ok.mp h
  cases h
  rfl

/-- A file with a fault contributes nothing. -/
theorem Becomes.nothing_of_fault {w : Workspace} {containers : List String} {file : Path}
    {index : FileIndex} (h : Becomes w containers file index) (faulty : index.fault.isSome) :
    index.registrations = [] ∧ index.usages = [] := by
  cases h with
  | indexed read parsed done =>
    rw [fault_ofTree done] at faulty
    cases faulty
  | unreadable => exact ⟨rfl, rfl⟩
  | unparsed => exact ⟨rfl, rfl⟩
  | undecodable => exact ⟨rfl, rfl⟩
  | tooDeep => exact ⟨rfl, rfl⟩

end FileIndex

end ContainerKeys
