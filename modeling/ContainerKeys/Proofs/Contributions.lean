import ContainerKeys.Proofs.Modules
import ContainerKeys.Proofs.Outcomes
import ContainerKeys.Proofs.Usages

/-!
# What a file contributes

What a file contributes to the index bears its path, and depends on its own bytes and on the files that
its imports resolve to, on nothing else.

* `FileIndex.Becomes.bears` — what is contributed bears the path of the file.
* `FileIndex.Becomes.nothing_of_childless` — a tree without nodes below its root contributes nothing.
* `FileIndex.alike_ofFile` — the same bytes and the same resolved imports give the same contribution.
-/

namespace ContainerKeys

open Code

/-! ## Attempts -/

theorem except_mapError_eq_ok {x : Except ε α} {f : ε → ε'} {a : α} :
    x.mapError f = .ok a ↔ x = .ok a := by
  cases x with
  | error e => simp [Except.mapError]
  | ok b => simp [Except.mapError]

namespace Attempt

variable {ε ε' α β : Type}

/-- A sequence gives the same if its steps do. -/
theorem outcome_bind_congr {x x' : Attempt ε α} {f f' : α → Attempt ε β}
    (first : x.outcome = x'.outcome)
    (second : ∀ a, x.outcome = .ok a → (f a).outcome = (f' a).outcome) :
    (x >>= f).outcome = (x' >>= f').outcome := by
  rw [outcome_bind, outcome_bind, ← first]
  cases given : x.outcome with
  | error e => rfl
  | ok a => exact second a given

theorem outcome_adapt_congr (f : ε → ε') {x x' : Attempt ε α} (same : x.outcome = x'.outcome) :
    Attempt.outcome (ExceptT.adapt f x) = Attempt.outcome (ExceptT.adapt f x') :=
  congrArg (Except.mapError f) same

theorem outcome_mapM_congr {f f' : α → Attempt ε β} (same : ∀ a, (f a).outcome = (f' a).outcome)
    (l : List α) : (l.mapM f).outcome = (l.mapM f').outcome := by
  induction l with
  | nil => rfl
  | cons a rest ih =>
    rw [List.mapM_cons, List.mapM_cons]
    apply outcome_bind_congr (same a)
    intro b _
    apply outcome_bind_congr ih
    intro bs _
    rfl

theorem outcome_gather_of_forall_eq_nil {f : α → Attempt ε (List β)} {l : List α}
    (nothing : ∀ a ∈ l, (f a).outcome = .ok []) : (gather f l).outcome = .ok [] := by
  induction l with
  | nil => rfl
  | cons a rest ih =>
    have later := ih fun b hb => nothing b (List.mem_cons_of_mem a hb)
    rw [gather, outcome_bind, nothing a List.mem_cons_self]
    show ((gather f rest) >>= _).outcome = _
    rw [outcome_bind, later]
    rfl

theorem exists_of_mem_mapM {f : α → Attempt ε β} {l : List α} {r : List β}
    (h : (l.mapM f).outcome = .ok r) {b : β} (hb : b ∈ r) : ∃ a, (f a).outcome = .ok b := by
  have related := outcome_mapM_eq_ok h
  clear h
  induction related with
  | nil => cases hb
  | cons given _ ih =>
    rcases List.mem_cons.mp hb with rfl | hb
    · exact ⟨_, given⟩
    · exact ih hb

end Attempt

/-! ## Paths -/

/-- A usage bears the path of the file. -/
def Finding.Bears (file : Path) : Finding → Prop
  | .usage u => u.file = file
  | _ => True

theorem Finding.Spelled.bears {x : Indexer} {root : Node} {f : Finding} (h : f.Spelled x root) :
    f.Bears x.file := by
  cases f with
  | usage u => exact h.1
  | binding => trivial
  | draft => trivial

namespace Indexer

variable {x : Indexer}

/-- The usages that a walk finds bear the path of the file. -/
theorem bears_findings {root : Node} {fs : List Finding}
    (h : (x.findings root).outcome = .ok fs) : ∀ f ∈ fs, f.Bears x.file :=
  fun f hf => (spelled_findings h f hf).bears

theorem registeredIn_define {files : FileTree} {imports : ImportTable} {draft : Draft}
    {d : Definition} (h : (x.define files imports draft).outcome = .ok d) :
    d.registeredIn = x.file := by
  unfold define at h
  obtain ⟨registration, -, h⟩ := Attempt.outcome_bind_eq_ok.mp h
  obtain ⟨origin, -, h⟩ := Attempt.outcome_bind_eq_ok.mp h
  obtain ⟨noted, -, h⟩ := Attempt.outcome_bind_eq_ok.mp h
  cases h
  rfl

end Indexer

namespace FileIndex

theorem bears_ofTree {files : FileTree} {x : Indexer} {root : Node} {index : FileIndex}
    (h : (ofTree files x root).outcome = .ok index) :
    (∀ d ∈ index.registrations, d.registeredIn = x.file) ∧ ∀ u ∈ index.usages, u.file = x.file := by
  unfold ofTree at h
  obtain ⟨findings, hf, h⟩ := Attempt.outcome_bind_eq_ok.mp h
  obtain ⟨registrations, hr, h⟩ := Attempt.outcome_bind_eq_ok.mp h
  cases h
  constructor
  · intro d hd
    obtain ⟨draft, defined⟩ := Attempt.exists_of_mem_mapM hr hd
    exact Indexer.registeredIn_define defined
  · intro u hu
    exact Indexer.bears_findings (Attempt.outcome_adapt_eq_ok.mp hf) _ (mem_usagesOf.mp hu)

/-- What a file contributes bears its path. -/
theorem Becomes.bears {w : Workspace} {containers : List String} {file : Path} {index : FileIndex}
    (h : Becomes w containers file index) :
    (∀ d ∈ index.registrations, d.registeredIn = file) ∧ ∀ u ∈ index.usages, u.file = file := by
  cases h with
  | indexed read parsed done => exact bears_ofTree done
  | unreadable => simp
  | unparsed => simp
  | undecodable => simp
  | tooDeep => simp

end FileIndex

/-! ## Childless trees -/

namespace Indexer

variable {x : Indexer}

theorem memberName_childless (source : Bytes) (label : Label) :
    (Node.mk label []).memberName source = .ok none := by
  unfold Node.memberName
  split
  · rfl
  · rfl

theorem visit_childless (label : Label) {visitor : Visitor (Attempt Utf8.Fault) Finding}
    (member : visitor ∈ [x.bindingVisitor, x.keyVisitor]) :
    (Visitor.visit visitor ⟨.mk label [], none⟩).outcome = .ok [] := by
  unfold Visitor.visit
  split
  · rename_i hook _
    rcases List.mem_pair.mp member with rfl | rfl
    · cases hook <;> rfl
    · cases hook with
      | memberAccess =>
        show x.ofMember (.mk label []) = .ok []
        rw [ofMember, Node.isCradleAccess, memberName_childless]
        rfl
      | call => rfl
      | method => rfl
      | function => rfl
      | importStatement => rfl
      | declarator => rfl
  · rfl

/-- A walk over a tree without nodes below its root finds nothing. -/
theorem findings_childless (label : Label) : (x.findings (.mk label [])).outcome = .ok [] := by
  apply Attempt.outcome_gather_of_forall_eq_nil
  intro v hv
  rw [Node.walk_eq_preorder, Node.preorder_eq] at hv
  cases List.mem_singleton.mp hv
  apply Attempt.outcome_gather_of_forall_eq_nil
  intro visitor member
  exact visit_childless label member

end Indexer

theorem parse_eq_ok {parser : Parser} {path : Path} {source : Bytes} {root : Node}
    (h : parse parser path source = .ok root) :
    ∃ grammar, parser grammar source = root ∧ root.hasFlaw = false := by
  unfold parse at h
  split at h
  · cases h
  · rename_i grammar _
    dsimp only at h
    split at h
    · cases h
    · rename_i sound
      cases h
      exact ⟨grammar, rfl, Bool.not_eq_true _ ▸ sound⟩

namespace FileIndex

/-- A tree without nodes below its root contributes nothing. -/
theorem Becomes.nothing_of_childless {w : Workspace} {containers : List String} {file : Path}
    {index : FileIndex} (h : Becomes w containers file index) {source : Bytes}
    (read : w.files.read file = .ok source)
    (childless : ∀ grammar, (w.parser grammar source).children = []) :
    index.registrations = [] ∧ index.usages = [] := by
  cases h with
  | indexed read' parsed done =>
    rw [read] at read'
    cases read'
    obtain ⟨grammar, rfl, -⟩ := parse_eq_ok parsed
    have bare := childless grammar
    generalize w.parser grammar source = root at bare done
    obtain ⟨label, children⟩ := root
    cases bare
    unfold ofTree at done
    obtain ⟨findings, found, done⟩ := Attempt.outcome_bind_eq_ok.mp done
    rw [Attempt.outcome_adapt_eq_ok, Indexer.findings_childless] at found
    cases found
    cases done
    exact ⟨rfl, rfl⟩
  | unreadable => exact ⟨rfl, rfl⟩
  | unparsed => exact ⟨rfl, rfl⟩
  | undecodable => exact ⟨rfl, rfl⟩
  | tooDeep => exact ⟨rfl, rfl⟩

end FileIndex

/-! ## Imports -/

section

variable {t t' : FileTree}

/-- The module resolves to the same file in both trees. -/
def Resolution.Agrees (t t' : FileTree) (file : Path) (specifier : String) : Prop :=
  (resolve t specifier file).outcome = (resolve t' specifier file).outcome

namespace Origin

theorem outcome_ofBinding_eq {file : Path} {binding : Binding}
    (same : Resolution.Agrees t t' file binding.specifier) (exported : Option String)
    (localName : String) :
    (ofBinding t file binding exported localName).outcome =
      (ofBinding t' file binding exported localName).outcome := by
  rw [ofBinding, ofBinding]
  exact Attempt.outcome_bind_congr same fun _ _ => rfl

/-- The binding of a member access is one of the table. -/
theorem get?_of_memberBinding {source : Bytes} {imports : ImportTable} {bound : Node}
    {binding : Binding} {property : String}
    (h : memberBinding source imports bound = .ok (some (binding, property))) :
    ∃ name, imports.get? name = some binding := by
  unfold memberBinding at h
  obtain ⟨member, -, h⟩ := except_bind_eq_ok.mp h
  split at h
  · split at h
    · obtain ⟨name, -, h⟩ := except_bind_eq_ok.mp h
      split at h
      · rename_i found
        split at h
        · cases h
          exact ⟨name, found⟩
        · cases h
      · cases h
    · cases h
  · cases h

theorem outcome_ofBound_eq {source : Bytes} {imports : ImportTable} {file : Path}
    (same : ∀ name binding, imports.get? name = some binding →
      Resolution.Agrees t t' file binding.specifier) (bound : Option Node) :
    (ofBound t source imports file bound).outcome = (ofBound t' source imports file bound).outcome := by
  cases bound with
  | none => rfl
  | some bound =>
    rw [ofBound, ofBound]
    by_cases plain : bound.isIdentifier = true
    · rw [if_pos plain, if_pos plain]
      apply Attempt.outcome_bind_congr rfl
      intro name _
      cases found : imports.get? name with
      | none => rfl
      | some binding =>
        exact Attempt.outcome_adapt_congr _ (outcome_ofBinding_eq (same name binding found) _ _)
    · rw [if_neg plain, if_neg plain]
      apply Attempt.outcome_bind_congr rfl
      intro member given
      cases member with
      | none => rfl
      | some member =>
        obtain ⟨binding, property⟩ := member
        obtain ⟨name, found⟩ := get?_of_memberBinding (except_mapError_eq_ok.mp given)
        exact Attempt.outcome_adapt_congr _ (outcome_ofBinding_eq (same name binding found) _ _)

end Origin

theorem Indexer.outcome_define_eq {x : Indexer} {imports : ImportTable}
    (same : ∀ name binding, imports.get? name = some binding →
      Resolution.Agrees t t' x.file binding.specifier) (draft : Draft) :
    (x.define t imports draft).outcome = (x.define t' imports draft).outcome := by
  rw [define, define]
  apply Attempt.outcome_bind_congr rfl
  intro registration _
  exact Attempt.outcome_bind_congr (Origin.outcome_ofBound_eq same _) fun _ _ => rfl

namespace FileIndex

theorem outcome_ofTree_eq {x : Indexer} {root : Node}
    (same : ∀ findings, (x.findings root).outcome = .ok findings →
      ∀ name binding, (ImportTable.ofBindings (bindingsOf findings)).get? name = some binding →
        Resolution.Agrees t t' x.file binding.specifier) :
    (ofTree t x root).outcome = (ofTree t' x root).outcome := by
  rw [ofTree, ofTree]
  apply Attempt.outcome_bind_congr rfl
  intro findings found
  have defined := Indexer.outcome_define_eq (same findings (Attempt.outcome_adapt_eq_ok.mp found))
  exact Attempt.outcome_bind_congr (Attempt.outcome_mapM_congr defined _) fun _ _ => rfl

/-- A name in the file is bound to the module. -/
def Imports (w : Workspace) (containers : List String) (file : Path) (specifier : String) : Prop :=
  ∃ source root findings name binding, w.files.read file = .ok source ∧
    parse w.parser file source = .ok root ∧
    ((Indexer.mk file source containers).findings root).outcome = .ok findings ∧
    (ImportTable.ofBindings (bindingsOf findings)).get? name = some binding ∧
    binding.specifier = specifier

/-- Two file indexes that contribute the same. -/
def Alike (a b : FileIndex) : Prop :=
  a.registrations = b.registrations ∧ a.usages = b.usages

/-- A file contributes the same in two trees that agree on its bytes and on its imports. -/
theorem alike_ofFile {w : Workspace} {containers : List String} {file : Path} {files : FileTree}
    (read : (w.files.read file).toOption = (files.read file).toOption)
    (same : ∀ specifier, Imports w containers file specifier →
      Resolution.Agrees w.files files file specifier) :
    Alike (ofFile w containers file).value (ofFile { w with files } containers file).value := by
  cases given : w.files.read file with
  | error fault =>
    cases given' : files.read file with
    | error fault' =>
      rw [value_of_unreadable given, value_of_unreadable (w := { w with files }) given']
      exact ⟨rfl, rfl⟩
    | ok source => rw [given, given'] at read; cases read
  | ok source =>
    have given' : files.read file = .ok source := by
      cases h : files.read file with
      | error fault => rw [given, h] at read; cases read
      | ok source' => rw [given, h] at read; cases read; rfl
    have indexed : (ofSource w containers file source).outcome =
        (ofSource { w with files } containers file source).outcome := by
      rw [outcome_ofSource, outcome_ofSource]
      cases parsed : parse w.parser file source with
      | error fault => rfl
      | ok root =>
        dsimp only
        rw [outcome_ofTree_eq]
        intro findings found name binding bound
        exact same _ ⟨source, root, findings, name, binding, given, parsed, found, bound, rfl⟩
    rw [value_of_readable given, value_of_readable (w := { w with files }) given', indexed]
    exact ⟨rfl, rfl⟩

end FileIndex

end

end ContainerKeys
