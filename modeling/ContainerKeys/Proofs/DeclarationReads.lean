import ContainerKeys.Declaration
import ContainerKeys.Proofs.Attempts

/-!
# What the search for a declaration reads

The search for a declaration reads names off the top-level statements of a file: what they declare, what
their clauses export, what is assigned to, and the keys of an object that is exported as a whole. It
succeeds just if all these are texts.

* `Declaration.StatementReads` — the nodes that are read off one statement.
* `Declaration.Reads` — the nodes that are read off a file.
* `Declaration.succeeds_find_iff` — when the search succeeds.
-/

namespace ContainerKeys

namespace Declaration

open Code

/-! ## Texts of nodes -/

variable (source : Bytes)

/-- The node is a text. -/
def Readable (n : Node) : Prop :=
  Succeeds (n.text source)

/-- The node is of a kind whose text can be a key. -/
def SpellsKey (n : Node) : Prop :=
  n.kind ∈ [.propertyIdentifier, .shorthandProperty, .shorthandPattern, .identifier, .string]

instance (n : Node) : Decidable (SpellsKey n) :=
  inferInstanceAs (Decidable (n.kind ∈ [_, _, _, _, _]))

variable {source}

@[simp] theorem succeeds_text {n : Node} : Succeeds (n.text source) ↔ Readable source n :=
  Iff.rfl

@[simp] theorem succeeds_name {n : Node} : Succeeds (n.name source) ↔ Readable source n := by
  simp [Node.name]

@[simp] theorem succeeds_denseText {n : Node} : Succeeds (denseText source n) ↔ Readable source n := by
  simp [denseText]

theorem succeeds_stringValue {n : Node} :
    Succeeds (n.stringValue source) ↔ (n.kind = .string → Readable source n) := by
  unfold Node.stringValue
  by_cases string : n.kind = .string
  · simp [string]
  · simp [string]

/-- A key is read off a string, or it is the text of a node of another kind that spells keys. -/
theorem keyName_eq (n : Node) :
    n.keyName source =
      if n.kind = .string then n.stringValue source
      else if SpellsKey n then some <$> n.name source
      else .ok none := by
  have named : n.kind ∈ [.propertyIdentifier, .shorthandProperty, .shorthandPattern, .identifier] →
      n.kind ≠ .string ∧ SpellsKey n := by
    intro kind
    refine ⟨?_, List.mem_append_left [_] kind⟩
    rintro string
    simp [string] at kind
  unfold Node.keyName
  split
  iterate 4
    · rename_i kind
      have spells := named (by simp [kind])
      rw [if_neg spells.1, if_pos spells.2]
      rfl
  · by_cases string : n.kind = .string
    · rw [if_pos string]
    · have other : ¬ SpellsKey n := by
        unfold SpellsKey
        simp only [List.mem_cons, List.not_mem_nil, or_false]
        tauto
      rw [if_neg string, if_neg other, Node.stringValue, if_neg string]
      rfl

theorem spellsKey_of_string {n : Node} (string : n.kind = .string) : SpellsKey n := by
  simp [SpellsKey, string]

theorem succeeds_keyName {n : Node} :
    Succeeds (n.keyName source) ↔ (SpellsKey n → Readable source n) := by
  rw [keyName_eq]
  by_cases string : n.kind = .string
  · simp [string, succeeds_stringValue, spellsKey_of_string string]
  · by_cases spells : SpellsKey n
    · simp [string, spells]
    · simp [string, spells]

theorem kind_of_stringValue {n : Node} {name : String}
    (h : n.stringValue source = .ok (some name)) : n.kind = .string := by
  unfold Node.stringValue at h
  split at h
  · assumption
  · cases h

/-- A node that spells out a key is of a kind that does. -/
theorem spellsKey_of_keyName {n : Node} {key : String} (h : n.keyName source = .ok (some key)) :
    SpellsKey n := by
  rw [keyName_eq] at h
  split at h
  · exact spellsKey_of_string ‹_›
  · split at h
    · assumption
    · cases h

theorem keyName_of_stringValue {n : Node} {key : String}
    (h : n.stringValue source = .ok (some key)) : n.keyName source = .ok (some key) := by
  unfold Node.keyName
  rw [kind_of_stringValue h]
  exact h

theorem succeeds_readName {read : Node → NameResult} {n : Option Node} :
    Succeeds (Node.readName read n) ↔ ∀ m, n = some m → Succeeds (read m) := by
  cases n with
  | none => simp [Node.readName]
  | some m => simp [Node.readName]

theorem succeeds_memberName {n : Node} :
    Succeeds (n.memberName source) ↔ ∀ m, n.kind = .memberAccess → n.child? .property = some m →
      m.kind = .propertyIdentifier → Readable source m := by
  unfold Node.memberName
  by_cases access : n.kind = .memberAccess
  · rw [if_pos access]
    cases child : n.child? .property with
    | none => simp
    | some property =>
      by_cases kind : property.kind = .propertyIdentifier
      · simp [kind, access]
      · simp [kind, access]
  · simp [access]

/-! ## Declarations -/

/-- Classes and functions: they introduce their own name. -/
def ownKinds : List Kind := [.classDeclaration, .functionDeclaration, .generatorDeclaration]

/-- Declarations of variables. -/
def variableKinds : List Kind := [.lexicalDeclaration, .variableDeclaration]

/-- The nodes that spell the names which a declaration introduces. -/
inductive DeclaredBy (declaration : Node) : Node → Prop
  | own {name : Node} (kind : declaration.kind ∈ ownKinds)
    (child : declaration.child? .name = some name) : DeclaredBy declaration name
  | declarator {d name : Node} (kind : declaration.kind ∈ variableKinds)
    (listed : d ∈ declaration.namedChildren) (declares : d.kind = .declarator)
    (child : d.child? .name = some name) (identifier : name.kind = .identifier) :
    DeclaredBy declaration name

theorem declaredNames_own {n : Node} (kind : n.kind ∈ ownKinds) :
    declaredNames source n =
      (n.child? .name).elim (return []) fun name => do return [(← name.name source, name)] := by
  unfold ownKinds at kind
  unfold declaredNames
  simp only [List.mem_cons, List.not_mem_nil, or_false] at kind
  generalize n.kind = k at kind
  cases n.child? .name with
  | none => rcases kind with rfl | rfl | rfl <;> rfl
  | some name => rcases kind with rfl | rfl | rfl <;> rfl

theorem succeeds_declaredNames_own {n : Node} (kind : n.kind ∈ ownKinds) :
    Succeeds (declaredNames source n) ↔ ∀ m, n.child? .name = some m → Readable source m := by
  rw [declaredNames_own kind]
  cases n.child? .name with
  | none => simp
  | some name => simp

/-- The name that a part of a declaration of variables introduces. -/
def declaratorNames (source : Bytes) (d : Node) : Except Utf8.Fault (List (String × Node)) :=
  match d.child? .name with
  | some name =>
    if d.kind = .declarator ∧ name.kind = .identifier then return [(← name.name source, name)]
    else return []
  | none => return []

theorem declaredNames_variable {n : Node} (kind : n.kind ∈ variableKinds) :
    declaredNames source n = gather (declaratorNames source) n.namedChildren := by
  unfold variableKinds at kind
  unfold declaredNames
  simp only [List.mem_cons, List.not_mem_nil, or_false] at kind
  generalize n.kind = k at kind
  rcases kind with rfl | rfl
  · rfl
  · rfl

theorem succeeds_declaredNames_variable {n : Node} (kind : n.kind ∈ variableKinds) :
    Succeeds (declaredNames source n) ↔ ∀ d ∈ n.namedChildren, ∀ m, d.kind = .declarator →
      d.child? .name = some m → m.kind = .identifier → Readable source m := by
  rw [declaredNames_variable kind, succeeds_gather_iff]
  apply forall₂_congr
  intro d _
  unfold declaratorNames
  cases child : d.child? .name with
  | none => simp
  | some name =>
    by_cases declares : d.kind = .declarator ∧ name.kind = .identifier
    · simp [declares]
    · simp [declares]
      tauto

theorem declaredNames_of_other {n : Node} (own : n.kind ∉ ownKinds) (several : n.kind ∉ variableKinds) :
    declaredNames source n = .ok [] := by
  unfold ownKinds at own
  unfold variableKinds at several
  simp only [List.mem_cons, List.not_mem_nil, or_false, not_or] at own several
  unfold declaredNames
  split
  · exact absurd ‹_› own.1
  · exact absurd ‹_› own.2.1
  · exact absurd ‹_› own.2.2
  · exact absurd ‹_› several.1
  · exact absurd ‹_› several.2
  · rfl

theorem succeeds_declaredNames {n : Node} :
    Succeeds (declaredNames source n) ↔ ∀ m, DeclaredBy n m → Readable source m := by
  have apart : ∀ k ∈ ownKinds, k ∉ variableKinds := by decide
  by_cases own : n.kind ∈ ownKinds
  · rw [succeeds_declaredNames_own own]
    constructor
    · intro h m declared
      cases declared with
      | own _ child => exact h m child
      | declarator kind => exact absurd kind (apart _ own)
    · intro h m child
      exact h m (.own own child)
  · by_cases several : n.kind ∈ variableKinds
    · rw [succeeds_declaredNames_variable several]
      constructor
      · intro h m declared
        cases declared with
        | own kind => exact absurd kind own
        | declarator _ listed declares child identifier => exact h _ listed m declares child identifier
      · intro h d listed m declares child identifier
        exact h m (.declarator several listed declares child identifier)
    · rw [declaredNames_of_other own several]
      constructor
      · intro _ m declared
        cases declared with
        | own kind => exact absurd kind own
        | declarator kind => exact absurd kind several
      · intro _
        exact succeeds_ok []

/-! ## Exports -/

/-- The nodes that spell the names which a statement exports by its clauses: the new name, or else the
name itself. -/
structure ClauseExports (statement n : Node) : Prop where
  specifier : ∃ clause ∈ statement.namedChildren, clause.kind = .exportClause ∧
    ∃ s ∈ clause.namedChildren, s.kind = .exportSpecifier ∧ (s.child? .alias).or (s.child? .name) = some n
  key : SpellsKey n

theorem succeeds_ofClause {clause : Node} :
    Succeeds (ofClause source clause) ↔ ∀ s ∈ clause.namedChildren, s.kind = .exportSpecifier →
      ∀ m, (s.child? .alias).or (s.child? .name) = some m → SpellsKey m → Readable source m := by
  unfold ofClause
  rw [succeeds_gather_iff]
  apply forall₂_congr
  intro s _
  by_cases specifier : s.kind = .exportSpecifier
  · rw [if_pos specifier]
    simp only [bind_pure_comp, succeeds_map_iff, succeeds_readName, succeeds_keyName, specifier, forall_const]
  · simp [specifier]

theorem succeeds_clauses {n : Node} :
    Succeeds (gather (ofClause source) (n.namedChildren.filter (·.kind = .exportClause))) ↔
      ∀ m, ClauseExports n m → Readable source m := by
  rw [succeeds_gather_iff]
  constructor
  · rintro h m ⟨⟨clause, listed, kind, s, hs, specifier, spelled⟩, key⟩
    have clauses : clause ∈ n.namedChildren.filter (·.kind = .exportClause) :=
      List.mem_filter.mpr ⟨listed, decide_eq_true kind⟩
    exact succeeds_ofClause.mp (h clause clauses) s hs specifier m spelled key
  · intro h clause clauses
    rcases List.mem_filter.mp clauses with ⟨listed, kind⟩
    apply succeeds_ofClause.mpr
    intro s hs specifier m spelled key
    exact h m ⟨⟨clause, listed, of_decide_eq_true kind, s, hs, specifier, spelled⟩, key⟩

theorem succeeds_ofExportedDeclaration {isDefault : Bool} {declaration : Node} :
    Succeeds (ofExportedDeclaration source isDefault declaration) ↔
      ∀ m, DeclaredBy declaration m → Readable source m := by
  unfold ofExportedDeclaration
  rw [succeeds_bind_iff, succeeds_declaredNames]
  constructor
  · exact And.left
  · intro h
    refine ⟨h, ?_⟩
    intro names _
    by_cases isDefault' : isDefault = true
    · simp [isDefault']
    · simp [isDefault']

theorem succeeds_ofExport {n : Node} :
    Succeeds (ofExport source n) ↔
      (∀ declaration, n.child? .declaration = some declaration →
        ∀ m, DeclaredBy declaration m → Readable source m) ∧
      ∀ m, ClauseExports n m → Readable source m := by
  unfold ofExport
  cases declared : n.child? .declaration with
  | some declaration =>
    simp only [bind_pure_comp, succeeds_bind_map_iff, succeeds_clauses, succeeds_ofExportedDeclaration,
      Option.some.injEq, forall_eq']
  | none =>
    cases n.child? .value with
    | none => simp [succeeds_clauses]
    | some value =>
      by_cases isDefault : n.children.any (·.kind = .defaultKeyword) = true
      · simp [isDefault, succeeds_clauses]
      · simp [isDefault, succeeds_clauses]

/-! ## Assignments -/

/-- The statement assigns to `left`. -/
def Assigns (statement left : Node) (right : Option Node) : Prop :=
  ∃ expression, statement.parts.head? = some expression ∧ expression.kind = .assignment ∧
    expression.child? .left = some left ∧ right = expression.child? .right

variable (source) in
/-- The nodes that are read to see what an assignment to `left` exports: all of it, then the object of it
unless all of it is `module.exports`, then the property if the object is `module.exports` or `exports`. -/
inductive TargetReads (left : Node) : Node → Prop
  | whole : TargetReads left left
  | object {object : Node} {text : String} (read : denseText source left = .ok text)
    (other : text ≠ "module.exports") (child : left.child? .object = some object) : TargetReads left object
  | property {object property : Node} {text textOfObject : String} (read : denseText source left = .ok text)
    (other : text ≠ "module.exports") (child : left.child? .object = some object)
    (readObject : denseText source object = .ok textOfObject)
    (exports : textOfObject = "module.exports" ∨ textOfObject = "exports")
    (access : left.kind = .memberAccess) (child' : left.child? .property = some property)
    (identifier : property.kind = .propertyIdentifier) : TargetReads left property

theorem succeeds_exportTarget {left : Node} :
    Succeeds (exportTarget source left) ↔ ∀ m, TargetReads source left m → Readable source m := by
  unfold exportTarget
  rw [succeeds_bind_iff, succeeds_denseText]
  constructor
  -- what comes later is read only if what comes before is a text, so each case goes through its prefix
  · rintro ⟨whole, later⟩ m reads
    cases reads with
    | whole => exact whole
    | object read other child =>
      have next := later _ read
      rw [if_neg other, child] at next
      exact succeeds_denseText.mp (succeeds_bind_iff.mp next).1
    | property read other child readObject exports access child' identifier =>
      have next := later _ read
      rw [if_neg other, child] at next
      have last := (succeeds_bind_iff.mp next).2 _ readObject
      rw [if_pos exports] at last
      exact succeeds_memberName.mp last m access child' identifier
  · intro h
    refine ⟨h left .whole, ?_⟩
    intro text read
    by_cases whole : text = "module.exports"
    · simp [whole]
    · rw [if_neg whole]
      cases child : left.child? .object with
      | none => simp
      | some object =>
        apply succeeds_bind_iff.mpr
        refine ⟨succeeds_denseText.mpr (h object (.object read whole child)), ?_⟩
        intro textOfObject readObject
        by_cases exports : textOfObject = "module.exports" ∨ textOfObject = "exports"
        · rw [if_pos exports]
          apply succeeds_memberName.mpr
          intro m access child' identifier
          exact h m (.property read whole child readObject exports access child' identifier)
        · simp [exports]

/-- The node that spells the key of a property. -/
inductive PropertyKey (property : Node) : Node → Prop
  | shorthand (kind : property.kind = .shorthandProperty) : PropertyKey property property
  | pair {key : Node} (kind : property.kind = .pair) (child : property.child? .key = some key)
    (spells : SpellsKey key) : PropertyKey property key

theorem succeeds_ofProperty {n : Node} :
    Succeeds (ofProperty source n) ↔ ∀ m, PropertyKey n m → Readable source m := by
  unfold ofProperty
  split
  · rename_i kind
    simp only [bind_pure_comp, succeeds_map_iff, succeeds_name]
    constructor
    · intro h m key
      cases key with
      | shorthand => exact h
      | pair other => simp [kind] at other
    · intro h
      exact h n (.shorthand kind)
  · rename_i kind
    rw [succeeds_bind_iff, succeeds_readName]
    constructor
    · rintro ⟨h, -⟩ m key
      cases key with
      | shorthand other => simp [kind] at other
      | pair _ child spells => exact succeeds_keyName.mp (h m child) spells
    · intro h
      constructor
      · intro key child
        exact succeeds_keyName.mpr fun spells => h key (.pair kind child spells)
      · -- once the key is known, nothing more is read
        intro key _
        cases key with
        | none => simp
        | some key =>
          by_cases empty : key = ""
          · simp [empty]
          · simp [empty]
  · rename_i shorthand pair
    simp only [succeeds_pure, true_iff]
    intro m key
    cases key with
    | shorthand kind => exact absurd kind shorthand
    | pair kind => exact absurd kind pair

variable (source) in
/-- The nodes that are read off an assignment: what is assigned to, and the keys of an object that becomes
the default export. -/
inductive AssignmentReads (left : Node) (right : Option Node) : Node → Prop
  | target {n : Node} (reads : TargetReads source left n) : AssignmentReads left right n
  | property {object p n : Node} (exportsDefault : exportTarget source left = .ok (some defaultName))
    (assigned : right.bind (·.unwrap) = some object) (kind : object.kind = .object)
    (listed : p ∈ object.namedChildren) (key : PropertyKey p n) : AssignmentReads left right n

theorem succeeds_ofAssignment {left : Node} {right : Option Node} :
    Succeeds (ofAssignment source left right) ↔
      ∀ m, AssignmentReads source left right m → Readable source m := by
  unfold ofAssignment
  rw [succeeds_bind_iff, succeeds_exportTarget]
  constructor
  · rintro ⟨target, later⟩ m reads
    cases reads with
    | target reads => exact target m reads
    | property exportsDefault assigned kind listed key =>
      have next := later _ exportsDefault
      rw [assigned] at next
      simp only [kind, and_self, if_true, bind_pure_comp, succeeds_map_iff, succeeds_gather_iff] at next
      exact succeeds_ofProperty.mp (next _ listed) m key
  · intro h
    refine ⟨fun m reads => h m (.target reads), ?_⟩
    intro target exports
    cases target with
    | none => simp
    | some target =>
      cases assigned : right.bind (·.unwrap) with
      | none => simp
      | some object =>
        by_cases whole : target = defaultName ∧ object.kind = .object
        · simp only [whole, and_self, if_true, bind_pure_comp, succeeds_map_iff, succeeds_gather_iff]
          intro p listed
          apply succeeds_ofProperty.mpr
          intro m key
          exact h m (.property (whole.1 ▸ exports) assigned whole.2 listed key)
        · simp [whole]

theorem succeeds_ofExpression {n : Node} :
    Succeeds (ofExpression source n) ↔
      ∀ left right, Assigns n left right → ∀ m, AssignmentReads source left right m → Readable source m := by
  unfold ofExpression Assigns
  cases n.parts.head? with
  | none => simp
  | some expression =>
    cases child : expression.child? .left with
    | none => simp [child]
    | some left =>
      by_cases assignment : expression.kind = .assignment
      · simp [child, assignment, succeeds_ofAssignment]
      · simp [child, assignment]

/-! ## Files -/

variable (source) in
/-- The nodes that are read off a top-level statement. -/
inductive StatementReads (statement : Node) : Node → Prop
  | declaration {n : Node} (other : statement.kind ∉ [.exportStatement, .expressionStatement])
    (declared : DeclaredBy statement n) : StatementReads statement n
  | exported {declaration n : Node} (kind : statement.kind = .exportStatement)
    (child : statement.child? .declaration = some declaration) (declared : DeclaredBy declaration n) :
    StatementReads statement n
  | clause {n : Node} (kind : statement.kind = .exportStatement) (exports : ClauseExports statement n) :
    StatementReads statement n
  | assignment {left n : Node} {right : Option Node} (kind : statement.kind = .expressionStatement)
    (assigns : Assigns statement left right) (reads : AssignmentReads source left right n) :
    StatementReads statement n

theorem succeeds_ofStatement {n : Node} :
    Succeeds (ofStatement source n) ↔ ∀ m, StatementReads source n m → Readable source m := by
  unfold ofStatement
  split
  · rename_i kind
    rw [succeeds_ofExport]
    constructor
    · rintro ⟨declared, clauses⟩ m reads
      cases reads with
      | declaration other => simp [kind] at other
      | exported _ child declared' => exact declared _ child m declared'
      | clause _ exports => exact clauses m exports
      | assignment other => simp [kind] at other
    · intro h
      refine ⟨?_, fun m exports => h m (.clause kind exports)⟩
      intro declaration child m declared
      exact h m (.exported kind child declared)
  · rename_i kind
    rw [succeeds_ofExpression]
    constructor
    · intro h m reads
      cases reads with
      | declaration other => simp [kind] at other
      | exported other => simp [kind] at other
      | clause other => simp [kind] at other
      | assignment _ assigns reads => exact h _ _ assigns m reads
    · intro h left right assigns m reads
      exact h m (.assignment kind assigns reads)
  · rename_i exports expression
    simp only [bind_pure_comp, succeeds_map_iff, succeeds_declaredNames]
    constructor
    · intro h m reads
      cases reads with
      | declaration _ declared => exact h m declared
      | exported kind => exact absurd kind exports
      | clause kind => exact absurd kind exports
      | assignment kind => exact absurd kind expression
    · intro h m declared
      refine h m (.declaration ?_ declared)
      simp only [List.mem_cons, List.not_mem_nil, or_false]
      tauto

/-- The name that is looked for: the default export if none is given. -/
def wanted (exportName : Option String) : String :=
  (exportName.filter (· ≠ "")).getD defaultName

variable (source) in
/-- The nodes that are read to find a declaration: those of the statements, and the name that the export
stands for, which may be declared elsewhere in the file. -/
inductive Reads (root : Node) (exportName : Option String) : Node → Prop
  | statement {s n : Node} (listed : s ∈ root.namedChildren) (reads : StatementReads source s n) :
    Reads root exportName n
  | stands {items : List Item} {n : Node} (all : gather (ofStatement source) root.namedChildren = .ok items)
    (last : lastExported? items (wanted exportName) = some n) (identifier : n.isIdentifier = true) :
    Reads root exportName n

/-- The search for a declaration succeeds just if all that it reads are texts. -/
theorem succeeds_find_iff {root : Node} {exportName : Option String} :
    Succeeds (find source root exportName) ↔ ∀ n, Reads source root exportName n → Readable source n := by
  unfold find
  rw [succeeds_bind_iff, succeeds_gather_iff]
  constructor
  · rintro ⟨statements, later⟩ n reads
    cases reads with
    | statement listed reads => exact succeeds_ofStatement.mp (statements _ listed) n reads
    | stands all last identifier =>
      have next := later _ all
      simp only [wanted] at last
      simp only [last, bind_pure_comp, succeeds_map_iff, leadOn, identifier, if_true, succeeds_name] at next
      exact next
  · intro h
    refine ⟨?_, ?_⟩
    · intro s listed
      exact succeeds_ofStatement.mpr fun n reads => h n (.statement listed reads)
    · intro items all
      cases last : lastExported? items (wanted exportName) with
      | none =>
        simp only [wanted] at last
        simp only [last, succeeds_pure]
      | some n =>
        have stands := h n
        simp only [wanted] at last
        simp only [last, bind_pure_comp, succeeds_map_iff, leadOn]
        by_cases identifier : n.isIdentifier = true
        · simp only [identifier, if_true, succeeds_map_iff, succeeds_name]
          exact stands (.stands all last identifier)
        · simp [identifier]

/-! ## Files without the declaration -/

/-- The item is what the search looks for: an export under the wanted name, or a declaration of the name
that is given. -/
def Item.Answers (exportName : Option String) : Item → Prop
  | .exported name node => name = wanted exportName ∧ node ≠ none
  | .declared name _ => exportName.filter (· ≠ "") = some name

theorem exists_of_lastExported? {items : List Item} {name : String} {n : Node}
    (h : lastExported? items name = some n) : .exported name (some n) ∈ items := by
  unfold lastExported? at h
  rcases List.exists_of_findSome?_eq_some (Option.join_eq_some_iff.mp h) with ⟨item, listed, found⟩
  cases item with
  | declared => cases found
  | exported name' node =>
    by_cases same : name' = name
    · simp only [same, if_true, Option.some.injEq] at found
      rw [← same, ← found]
      exact List.mem_reverse.mp listed
    · simp [same] at found

theorem exists_of_lastDeclared? {items : List Item} {name : String} {n : Node}
    (h : lastDeclared? items name = some n) : .declared name n ∈ items := by
  unfold lastDeclared? at h
  rcases List.exists_of_findSome?_eq_some h with ⟨item, listed, found⟩
  cases item with
  | exported => cases found
  | declared name' node =>
    by_cases same : name' = name
    · simp only [same, if_true, Option.some.injEq] at found
      rw [← same, ← found]
      exact List.mem_reverse.mp listed
    · simp [same] at found

variable (source) in
/-- No statement of the file contributes what the search looks for. -/
def Lacks (root : Node) (exportName : Option String) : Prop :=
  ∀ s ∈ root.namedChildren, ∀ items, ofStatement source s = .ok items →
    ∀ item ∈ items, ¬ item.Answers exportName

/-- In such a file nothing is found. -/
theorem find_of_lacks {root : Node} {exportName : Option String} (lacks : Lacks source root exportName)
    (readable : ∀ n, Reads source root exportName n → Readable source n) :
    find source root exportName = .ok none := by
  rcases succeeds_find_iff.mpr readable with ⟨result, found⟩
  cases result with
  | none => exact found
  | some node =>
    -- a node that is found comes from an item of some statement, and that item is what is looked for
    unfold find at found
    rcases except_bind_eq_ok.mp found with ⟨items, all, found⟩
    have foreign {item : Item} (listed : item ∈ items) : ¬ item.Answers exportName := by
      rcases mem_of_gather_eq_ok all listed with ⟨s, hs, here, contributes, mem⟩
      exact lacks s hs here contributes item mem
    cases last : lastExported? items ((exportName.filter (· ≠ "")).getD defaultName) with
    | some n => exact absurd ⟨rfl, by simp⟩ (foreign (exists_of_lastExported? last))
    | none =>
      simp only [last, pure, Except.pure, Except.ok.injEq] at found
      rcases Option.bind_eq_some_iff.mp found with ⟨name, given, declared⟩
      exact absurd given (foreign (exists_of_lastDeclared? declared))

end Declaration

end ContainerKeys
