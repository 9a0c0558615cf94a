import ContainerKeys.Proofs.Exports
import ContainerKeys.Proofs.LegibleTrees

/-!
# The forms that bind names to modules

An import statement and a declaration with a `require` call bind names in ten forms: a default import, a
namespace, a name in braces with or without an alias, `name = require('...')`, a plain `require` call, a
member of one, and the parts of a pattern, each with or without another name and a default value. The parts of
a node are listed in their order; each of them binds one name or none, and the node contributes what they bind.

* `Collects` — what the elements of a list are related to, in order.
* `Binding.partsOf` — the parts of a node that may bind a name.
* `Binding.Introduces` — the forms.
* `Binding.collects_visit` — what a node contributes is what its parts bind.
* `ImportTable.keys_ofBindings`, `ImportTable.get?_ofBindings` — the table of bindings in order.
-/

namespace ContainerKeys

open Code

theorem IsLast.unique {P : α → Prop} {l : List α} {a b : α} (h : IsLast P l a) (h' : IsLast P l b) : a = b := by
  induction l using List.reverseRecOn with
  | nil =>
    rcases h with ⟨before, after, split, -, -⟩
    simp at split
  | append_singleton l c ih =>
    rcases isLast_concat.mp h with ⟨holds, rfl⟩ | ⟨fails, h⟩
    · rcases isLast_concat.mp h' with ⟨-, rfl⟩ | ⟨fails, -⟩
      · rfl
      · exact absurd holds fails
    · rcases isLast_concat.mp h' with ⟨holds, -⟩ | ⟨-, h'⟩
      · exact absurd holds fails
      · exact ih h h'

/-! ## Collecting -/

/-- The second list holds what the elements of the first one are related to, in order; an element that is
related to nothing leaves nothing. -/
inductive Collects (R : α → β → Prop) : List α → List β → Prop
  | nil : Collects R [] []
  | take {a : α} {b : β} {l : List α} {bs : List β} (related : R a b) (rest : Collects R l bs) :
      Collects R (a :: l) (b :: bs)
  | skip {a : α} {l : List α} {bs : List β} (unrelated : ∀ b, ¬ R a b) (rest : Collects R l bs) :
      Collects R (a :: l) bs

namespace Collects

variable {R : α → β → Prop}

theorem append {l l' : List α} {bs bs' : List β} (h : Collects R l bs) (h' : Collects R l' bs') :
    Collects R (l ++ l') (bs ++ bs') := by
  induction h with
  | nil => exact h'
  | take related _ ih => exact .take related ih
  | skip unrelated _ ih => exact .skip unrelated ih

theorem single {a : α} {b : β} (related : R a b) : Collects R [a] [b] :=
  .take related .nil

/-- Nothing is collected from elements that are related to nothing. -/
theorem nothing {l : List α} (unrelated : ∀ a ∈ l, ∀ b, ¬ R a b) : Collects R l [] := by
  induction l with
  | nil => exact .nil
  | cons a rest ih =>
    rw [List.forall_mem_cons] at unrelated
    exact .skip unrelated.1 (ih unrelated.2)

/-- If each element is related to one thing at most, there is one way to collect. -/
theorem unique (single : ∀ a b b', R a b → R a b' → b = b') {l : List α} {bs bs' : List β}
    (h : Collects R l bs) (h' : Collects R l bs') : bs = bs' := by
  induction h generalizing bs' with
  | nil =>
    cases h'
    rfl
  | take related _ ih =>
    cases h' with
    | take related' rest' => rw [single _ _ _ related related', ih rest']
    | skip unrelated => exact absurd related (unrelated _)
  | skip unrelated _ ih =>
    cases h' with
    | take related' => exact absurd related' (unrelated _)
    | skip _ rest' => exact ih rest'

theorem exists_of_mem {l : List α} {bs : List β} (h : Collects R l bs) {b : β} (member : b ∈ bs) :
    ∃ a ∈ l, R a b := by
  induction h with
  | nil => cases member
  | take related _ ih =>
    rcases List.mem_cons.mp member with rfl | later
    · exact ⟨_, List.mem_cons_self, related⟩
    · rcases ih later with ⟨a, listed, related⟩
      exact ⟨a, List.mem_cons_of_mem _ listed, related⟩
  | skip _ _ ih =>
    rcases ih member with ⟨a, listed, related⟩
    exact ⟨a, List.mem_cons_of_mem _ listed, related⟩

/-- What is gathered is collected from the parts of the elements, if this is so for each of them. -/
theorem of_gather {γ : Type} {f : γ → Except ε (List β)} {parts : γ → List α} {l : List γ} {r : List β}
    (each : ∀ c ∈ l, ∀ r, f c = .ok r → Collects R (parts c) r) (h : gather f l = .ok r) :
    Collects R (l.flatMap parts) r := by
  induction l generalizing r with
  | nil =>
    cases h
    exact .nil
  | cons c rest ih =>
    rw [List.forall_mem_cons] at each
    rw [gather] at h
    rcases except_bind_eq_ok.mp h with ⟨here, first, h⟩
    rcases except_bind_eq_ok.mp h with ⟨more, later, h⟩
    cases h
    rw [List.flatMap_cons]
    exact (each.1 here first).append (ih each.2 later)

end Collects

namespace Binding

/-! ## Parts -/

/-- A part of a node that may bind a name. -/
inductive Part where
  /-- `import ident from '...'` -/
  | default (statement ident : Node)
  /-- `import * as ident from '...'` -/
  | all (statement ident : Node)
  /-- `import { named } from '...'` -/
  | named (statement named : Node)
  /-- `import clause`, with a clause `ident = require('...')` -/
  | equals (clause : Node)
  /-- `target = value` -/
  | whole (target value : Node)
  /-- `{ property } = value` -/
  | property (property value : Node)

/-- The parts of a clause of an import statement. -/
def clauseParts (statement part : Node) : List Part :=
  if part.kind = .identifier then [.default statement part]
  else if part.kind = .importNamespace then
    (part.namedChildren.filter (·.kind = .identifier)).map (.all statement)
  else if part.kind = .importNames then part.namedChildren.map (.named statement)
  else []

/-- The parts of a child of an import statement. -/
def importParts (statement child : Node) : List Part :=
  if child.kind = .importClause then child.namedChildren.flatMap (clauseParts statement)
  else if child.kind = .importRequire then [.equals child]
  else []

/-- The parts of a declarator with an initial value. -/
def declaratorParts (target value : Node) : List Part :=
  if target.kind = .identifier then [.whole target value]
  else if target.kind = .objectPattern then target.namedChildren.map (.property · value)
  else []

/-- The parts of a node that may bind a name, in order. -/
def partsOf (n : Node) : List Part :=
  if n.kind = .importStatement then n.namedChildren.flatMap (importParts n)
  else if n.kind = .declarator then
    (n.child? .name).elim [] fun target => (n.child? .value).elim [] (declaratorParts target)
  else []

/-! ## Forms -/

section

variable (source : Bytes)

/-- The import statement names the module. -/
def ImportsFrom (statement : Node) (specifier : String) : Prop :=
  ∃ m, statement.child? .source = some m ∧ m.stringValue source = .ok (some specifier)

/-- The clause `name = require('...')` names the module: by the string under its field, or by the last one in
it if there is none. -/
def ClauseRequires (clause : Node) (specifier : String) : Prop :=
  ∃ m, m.stringValue source = .ok (some specifier) ∧
    (clause.child? .source = some m ∨
      (∀ other, clause.child? .source = some other → other.kind ≠ .string) ∧
        IsLast (·.kind = .string) clause.namedChildren m)

/-- The node is a call `require('...')` of the module. -/
def CallsRequire (n : Node) (specifier : String) : Prop :=
  n.kind = .call ∧ ∃ callee argument, n.child? .function = some callee ∧ callee.kind = .identifier ∧
    callee.name source = .ok "require" ∧ n.arguments.head? = some argument ∧
    argument.stringValue source = .ok (some specifier)

/-- The value is the module or a member of it, by a `require` call. -/
inductive Requires (value : Node) (specifier : String) : Option String → Prop
  | module (call : CallsRequire source value specifier) : Requires value specifier none
  | member {object : Node} {member : Option String} (kind : value.kind = .memberAccess)
      (child : value.child? .object = some object) (call : CallsRequire source object specifier)
      (named : value.memberName source = .ok member) : Requires value specifier member

/-- The part binds the name of the identifier to an export of the module, or to the namespace of it. -/
inductive Introduces : Part → Node → String → Option String → Bool → Prop
  | default {statement ident : Node} {specifier : String} (origin : ImportsFrom source statement specifier) :
      Introduces (.default statement ident) ident specifier none false
  | all {statement ident : Node} {specifier : String} (origin : ImportsFrom source statement specifier) :
      Introduces (.all statement ident) ident specifier none true
  | named {statement n name ident : Node} {specifier exported : String}
      (origin : ImportsFrom source statement specifier) (kind : n.kind = .importSpecifier)
      (child : n.child? .name = some name) (spelled : name.keyName source = .ok (some exported))
      (filled : exported ≠ "") (bound : (n.child? .alias).or (n.child? .name) = some ident)
      (plain : ident.kind = .identifier) :
      Introduces (.named statement n) ident specifier (some exported) false
  | equals {clause ident : Node} {specifier : String} (module : ClauseRequires source clause specifier)
      (first : clause.namedChildren.find? (·.kind = .identifier) = some ident) :
      Introduces (.equals clause) ident specifier none false
  | whole {target value : Node} {specifier : String} {exported : Option String}
      (required : Requires source value specifier exported) :
      Introduces (.whole target value) target specifier exported false
  | shorthand {property value : Node} {specifier name : String} (required : Requires source value specifier none)
      (kind : property.kind = .shorthandPattern) (spelled : property.name source = .ok name) :
      Introduces (.property property value) property specifier (some name) false
  | defaulted {property value ident : Node} {specifier name : String}
      (required : Requires source value specifier none) (kind : property.kind = .objectDefault)
      (left : property.child? .left = some ident) (shorthand : ident.kind = .shorthandPattern)
      (spelled : ident.name source = .ok name) :
      Introduces (.property property value) ident specifier (some name) false
  | renamed {property value key ident : Node} {specifier exported : String}
      (required : Requires source value specifier none) (kind : property.kind = .pairPattern)
      (child : property.child? .key = some key) (spelled : key.keyName source = .ok (some exported))
      (filled : exported ≠ "") (target : property.child? .value = some ident)
      (plain : ident.kind = .identifier) :
      Introduces (.property property value) ident specifier (some exported) false
  | renamedDefaulted {property value key assigned ident : Node} {specifier exported : String}
      (required : Requires source value specifier none) (kind : property.kind = .pairPattern)
      (child : property.child? .key = some key) (spelled : key.keyName source = .ok (some exported))
      (filled : exported ≠ "") (target : property.child? .value = some assigned)
      (assignment : assigned.kind = .assignmentPattern) (left : assigned.child? .left = some ident)
      (plain : ident.kind = .identifier) :
      Introduces (.property property value) ident specifier (some exported) false

/-- The part binds the name in this way. -/
def Part.Binds (rangeOf : Node → Range) (part : Part) (entry : String × Binding) : Prop :=
  ∃ ident specifier exported isNamespace, Introduces source part ident specifier exported isNamespace ∧
    ident.name source = .ok entry.1 ∧ entry.2 = ⟨specifier, exported, isNamespace, rangeOf ident⟩

end

variable {source : Bytes} {rangeOf : Node → Range} {n : Node} {specifier : String} {exported : Option String}
  {part : Part} {r : BindingList}

/-! ## One name -/

theorem collects_bind {ident : Node} {isNamespace : Bool}
    (introduces : Introduces source part ident specifier exported isNamespace)
    (h : Binding.bind source rangeOf ident specifier exported isNamespace = .ok r) :
    Collects (Part.Binds source rangeOf) [part] r := by
  rcases except_bind_eq_ok.mp h with ⟨name, spelled, h⟩
  cases h
  exact .single ⟨ident, specifier, exported, isNamespace, introduces, spelled, rfl⟩

/-- A part that introduces nothing binds nothing. -/
theorem collects_nothing
    (none : ∀ ident specifier exported isNamespace, ¬ Introduces source part ident specifier exported isNamespace) :
    Collects (Part.Binds source rangeOf) [part] [] := by
  apply Collects.nothing
  intro part' member entry
  rw [List.mem_singleton.mp member]
  rintro ⟨ident, specifier, exported, isNamespace, introduces, -, -⟩
  exact none ident specifier exported isNamespace introduces

/-- An export is bound to a plain name, if it has a name itself. -/
theorem bindExport_eq_ok {local? : Option Node} (h : bindExport source rangeOf local? specifier exported = .ok r) :
    (∃ ident name, local? = some ident ∧ exported = some name ∧ ident.kind = .identifier ∧ name ≠ "" ∧
      Binding.bind source rangeOf ident specifier (some name) false = .ok r) ∨
    r = [] ∧ ∀ ident name, local? = some ident → exported = some name → ident.kind = .identifier → name = "" := by
  unfold bindExport at h
  split at h
  · rename_i ident name
    split at h
    · rename_i plain
      exact .inl ⟨ident, name, rfl, rfl, plain.1, plain.2, h⟩
    · rename_i other
      cases h
      refine .inr ⟨rfl, ?_⟩
      intro ident' name' same same' plain
      cases same
      cases same'
      by_contra filled
      exact other ⟨plain, filled⟩
  · rename_i absent
    cases h
    refine .inr ⟨rfl, ?_⟩
    intro ident name found found'
    exact absurd found' (absent ident name found)

/-! ## Import statements -/

theorem readName_eq_some_iff {read : Node → NameResult} {child : Option Node} {name : String} :
    Node.readName read child = .ok (some name) ↔ ∃ m, child = some m ∧ read m = .ok (some name) := by
  cases child with
  | none => simp [Node.readName, pure, Except.pure]
  | some m => simp [Node.readName]

theorem importsFrom_iff {statement : Node} :
    Node.readName (·.stringValue source) (statement.child? .source) = .ok (some specifier) ↔
      ImportsFrom source statement specifier :=
  readName_eq_some_iff

theorem collects_ofSpecifier {statement : Node} (origin : ImportsFrom source statement specifier)
    (h : ofSpecifier source rangeOf specifier n = .ok r) :
    Collects (Part.Binds source rangeOf) [.named statement n] r := by
  unfold ofSpecifier at h
  split at h
  · rename_i kind
    rcases except_bind_eq_ok.mp h with ⟨exported, spelled, h⟩
    rcases bindExport_eq_ok h with ⟨ident, name, bound, rfl, plain, filled, h⟩ | ⟨rfl, none⟩
    · rcases readName_eq_some_iff.mp spelled with ⟨m, child, spelled⟩
      exact collects_bind (.named origin kind child spelled filled bound plain) h
    · apply collects_nothing
      intro ident specifier' exported' isNamespace introduces
      cases introduces with
      | named _ _ child spelled' filled bound plain =>
        rw [readName_eq_some_iff.mpr ⟨_, child, spelled'⟩] at spelled
        cases spelled
        exact filled (none ident _ bound rfl plain)
  · rename_i other
    cases h
    apply collects_nothing
    intro ident specifier' exported' isNamespace introduces
    cases introduces with
    | named _ kind => exact other kind

theorem collects_ofClausePart {statement : Node} (origin : ImportsFrom source statement specifier)
    (h : ofClausePart source rangeOf specifier n = .ok r) :
    Collects (Part.Binds source rangeOf) (clauseParts statement n) r := by
  unfold ofClausePart at h
  unfold clauseParts
  split at h
  · rename_i kind
    rw [if_pos kind]
    exact collects_bind (.default origin) h
  · rename_i kind
    rw [if_neg (by simp [kind]), if_pos kind, List.map_eq_flatMap]
    apply Collects.of_gather _ h
    intro ident _ r h
    exact collects_bind (.all origin) h
  · rename_i kind
    rw [if_neg (by simp [kind]), if_neg (by simp [kind]), if_pos kind, List.map_eq_flatMap]
    apply Collects.of_gather _ h
    intro m _ r h
    exact collects_ofSpecifier origin h
  · rename_i plain space names
    cases h
    rw [if_neg plain, if_neg space, if_neg names]
    exact .nil

theorem lastString_eq_ok {ns : List Node} {known last : Option String}
    (h : lastString source known ns = .ok last) :
    (∃ m, IsLast (·.kind = .string) ns m ∧ m.stringValue source = .ok last) ∨
      last = known ∧ ∀ m ∈ ns, m.kind ≠ .string := by
  induction ns generalizing known with
  | nil =>
    cases h
    exact .inr ⟨rfl, by simp⟩
  | cons m rest ih =>
    unfold lastString at h
    split at h
    · rename_i string
      rcases except_bind_eq_ok.mp h with ⟨value, spelled, h⟩
      -- a later string takes its place
      rcases ih h with ⟨m', last, spelled'⟩ | ⟨rfl, none⟩
      · rcases last with ⟨before, after, rfl, string', later⟩
        exact .inl ⟨m', ⟨m :: before, after, rfl, string', later⟩, spelled'⟩
      · exact .inl ⟨m, ⟨[], rest, rfl, string, none⟩, spelled⟩
    · rename_i other
      rcases ih h with ⟨m', last, spelled'⟩ | ⟨rfl, none⟩
      · rcases last with ⟨before, after, rfl, string', later⟩
        exact .inl ⟨m', ⟨m :: before, after, rfl, string', later⟩, spelled'⟩
      · exact .inr ⟨rfl, List.forall_mem_cons.mpr ⟨other, none⟩⟩

theorem stringValue_eq_none_iff {m : Node} : m.stringValue source = .ok none ↔ m.kind ≠ .string := by
  constructor
  · intro h string
    rw [Node.stringValue, if_pos string] at h
    rcases except_bind_eq_ok.mp h with ⟨text, -, h⟩
    cases h
  · intro other
    rw [Node.stringValue, if_neg other]
    rfl

/-- The module that is read off a clause is the one that it names. -/
theorem clauseSpecifier_eq_some_iff {module : Option String} (h : clauseSpecifier source n = .ok module) :
    module = some specifier ↔ ClauseRequires source n specifier := by
  rcases except_bind_eq_ok.mp h with ⟨named, read, h⟩
  cases named with
  -- a string under the field counts whatever else the clause holds
  | some own =>
    cases h
    rcases readName_eq_some_iff.mp read with ⟨m, child, spelled⟩
    constructor
    · intro same
      cases same
      exact ⟨m, spelled, .inl child⟩
    · rintro ⟨m', spelled', child' | ⟨none, -⟩⟩
      · cases child.symm.trans child'
        cases spelled.symm.trans spelled'
        rfl
      · exact absurd (Declaration.kind_of_stringValue spelled) (none m child)
  | none =>
    have none : ∀ other, n.child? .source = some other → other.kind ≠ .string := by
      intro other child
      rw [child] at read
      exact stringValue_eq_none_iff.mp read
    rcases lastString_eq_ok h with ⟨m, last, spelled⟩ | ⟨rfl, nowhere⟩
    · constructor
      · rintro rfl
        exact ⟨m, spelled, .inr ⟨none, last⟩⟩
      · rintro ⟨m', spelled', child | ⟨-, last'⟩⟩
        · exact absurd (Declaration.kind_of_stringValue spelled') (none m' child)
        · cases last.unique last'
          exact Except.ok.inj (spelled.symm.trans spelled')
    · constructor
      · intro same
        cases same
      · rintro ⟨m', spelled', child | ⟨-, before, after, split, string, -⟩⟩
        · exact absurd (Declaration.kind_of_stringValue spelled') (none m' child)
        · exact absurd string (nowhere m' (split ▸ by simp))

theorem collects_ofRequireClause (h : ofRequireClause source rangeOf n = .ok r) :
    Collects (Part.Binds source rangeOf) [.equals n] r := by
  rw [ofRequireClause_eq] at h
  rcases except_bind_eq_ok.mp h with ⟨module, read, h⟩
  cases module with
  | none =>
    cases h
    apply collects_nothing
    intro ident specifier exported isNamespace introduces
    cases introduces with
    | equals module => cases (clauseSpecifier_eq_some_iff read).mpr module
  | some specifier =>
    cases first : n.namedChildren.find? (·.kind = .identifier) with
    | none =>
      rw [first] at h
      cases h
      apply collects_nothing
      intro ident specifier exported isNamespace introduces
      cases introduces with
      | equals _ first' => cases first.symm.trans first'
    | some ident =>
      rw [first] at h
      exact collects_bind (.equals ((clauseSpecifier_eq_some_iff read).mp rfl) first) h

/-- The parts of a clause belong to its statement. -/
theorem mem_clauseParts {statement : Node} (member : part ∈ clauseParts statement n) :
    (∃ m, part = .default statement m) ∨ (∃ m, part = .all statement m) ∨ ∃ m, part = .named statement m := by
  unfold clauseParts at member
  split at member
  · exact .inl ⟨n, List.mem_singleton.mp member⟩
  · split at member
    · rcases List.mem_map.mp member with ⟨m, -, rfl⟩
      exact .inr (.inl ⟨m, rfl⟩)
    · split at member
      · rcases List.mem_map.mp member with ⟨m, -, rfl⟩
        exact .inr (.inr ⟨m, rfl⟩)
      · cases member

/-- A clause of a statement that names no module binds nothing. -/
theorem collects_clause_nil {statement : Node} (none : ∀ specifier, ¬ ImportsFrom source statement specifier) :
    Collects (Part.Binds source rangeOf) (n.namedChildren.flatMap (clauseParts statement)) [] := by
  apply Collects.nothing
  rintro part member entry ⟨ident, specifier, exported, isNamespace, introduces, -, -⟩
  rcases List.mem_flatMap.mp member with ⟨c, -, member⟩
  rcases mem_clauseParts member with ⟨m, rfl⟩ | ⟨m, rfl⟩ | ⟨m, rfl⟩
  · cases introduces with
    | default origin => exact none _ origin
  · cases introduces with
    | all origin => exact none _ origin
  · cases introduces with
    | named origin => exact none _ origin

theorem collects_ofImport (h : ofImport source rangeOf n = .ok r) :
    Collects (Part.Binds source rangeOf) (n.namedChildren.flatMap (importParts n)) r := by
  rcases except_bind_eq_ok.mp h with ⟨module, read, walked⟩
  apply Collects.of_gather _ walked
  intro child _ r h
  unfold importParts
  by_cases clause : child.kind = .importClause
  · rw [if_pos clause]
    rw [clause] at h
    cases module with
    -- without a module the clause is not looked at
    | none =>
      cases h
      apply collects_clause_nil
      intro specifier origin
      cases read.symm.trans (importsFrom_iff.mpr origin)
    | some specifier =>
      apply Collects.of_gather _ h
      intro part _ r h
      exact collects_ofClausePart (importsFrom_iff.mp read) h
  · rw [if_neg clause]
    by_cases require : child.kind = .importRequire
    · rw [if_pos require]
      rw [require] at h
      exact collects_ofRequireClause h
    · rw [if_neg require]
      split at h
      · exact absurd ‹_› clause
      · exact absurd ‹_› require
      · cases h
        exact .nil

/-! ## Declarators -/

theorem requireSpecifier_eq_some_iff :
    requireSpecifier source n = .ok (some specifier) ↔ CallsRequire source n specifier := by
  unfold requireSpecifier CallsRequire
  by_cases call : n.kind = .call
  · rw [if_pos call]
    cases function : n.child? .function with
    | none => simp [pure, Except.pure]
    | some callee =>
      by_cases plain : callee.kind = .identifier
      · cases spelled : callee.name source with
        | error fault => simp [plain, spelled, Bind.bind, Except.bind]
        | ok name =>
          by_cases require : name = "require"
          · simp [plain, spelled, require, call, Bind.bind, Except.bind, readName_eq_some_iff]
          · simp [plain, spelled, require, Bind.bind, Except.bind, pure, Except.pure]
      · simp [plain, pure, Except.pure]
  · simp [call, pure, Except.pure]

/-- What a value is required to be, as it is read. -/
theorem requires_iff {value : Node} :
    Requires source value specifier exported ↔
      value.memberName source = .ok exported ∧
        Node.readName (requireSpecifier source)
          (if value.kind = .memberAccess then value.child? .object else some value) = .ok (some specifier) := by
  constructor
  · intro h
    cases h with
    | module call =>
      have other : value.kind ≠ .memberAccess := by simp [call.1]
      rw [if_neg other, Node.memberName, if_neg other]
      exact ⟨rfl, requireSpecifier_eq_some_iff.mpr call⟩
    | member kind child call named =>
      rw [if_pos kind, child]
      exact ⟨named, requireSpecifier_eq_some_iff.mpr call⟩
  · rintro ⟨named, required⟩
    rcases readName_eq_some_iff.mp required with ⟨called, found, required⟩
    have call := requireSpecifier_eq_some_iff.mp required
    by_cases kind : value.kind = .memberAccess
    · rw [if_pos kind] at found
      exact .member kind found call named
    · rw [if_neg kind] at found
      cases found
      rw [Node.memberName, if_neg kind] at named
      cases named
      exact .module call

/-- The name that a part of a pattern gives to an export: its value, without a default. -/
def renamedTo (property : Node) : Option Node :=
  (property.child? .value).bind fun value =>
    if value.kind = .assignmentPattern then value.child? .left else some value

theorem ofPatternPart_pair (kind : n.kind = .pairPattern) :
    ofPatternPart source rangeOf specifier n =
      Node.readName (·.keyName source) (n.child? .key) >>= fun exported =>
        bindExport source rangeOf (renamedTo n) specifier exported := by
  unfold ofPatternPart renamedTo
  rw [kind]
  cases n.child? .value <;> rfl

theorem collects_ofPatternPart {value : Node} (required : Requires source value specifier none)
    (h : ofPatternPart source rangeOf specifier n = .ok r) :
    Collects (Part.Binds source rangeOf) [.property n value] r := by
  by_cases pair : n.kind = .pairPattern
  -- a pair gives the export another name, with or without a default value
  · rw [ofPatternPart_pair pair] at h
    rcases except_bind_eq_ok.mp h with ⟨exported, spelled, h⟩
    rcases bindExport_eq_ok h with ⟨ident, name, bound, rfl, plain, filled, h⟩ | ⟨rfl, none⟩
    · rcases readName_eq_some_iff.mp spelled with ⟨key, child, spelled⟩
      rcases Option.bind_eq_some_iff.mp bound with ⟨target, found, bound⟩
      split at bound
      · rename_i assignment
        exact collects_bind
          (.renamedDefaulted required pair child spelled filled found assignment bound plain) h
      · cases bound
        exact collects_bind (.renamed required pair child spelled filled found plain) h
    · apply collects_nothing
      intro ident specifier' exported' isNamespace introduces
      cases introduces with
      | shorthand _ kind => cases kind.symm.trans pair
      | defaulted _ kind => cases kind.symm.trans pair
      | renamed _ _ child spelled' filled target plain =>
        rw [readName_eq_some_iff.mpr ⟨_, child, spelled'⟩] at spelled
        cases spelled
        have bound : renamedTo n = some ident := by
          rw [renamedTo, target, Option.bind_some, if_neg (by simp [plain])]
        exact filled (none ident _ bound rfl plain)
      | renamedDefaulted _ _ child spelled' filled target assignment left plain =>
        rw [readName_eq_some_iff.mpr ⟨_, child, spelled'⟩] at spelled
        cases spelled
        have bound : renamedTo n = some ident := by
          rw [renamedTo, target, Option.bind_some, if_pos assignment, left]
        exact filled (none ident _ bound rfl plain)
  · unfold ofPatternPart at h
    split at h
    · rename_i kind
      rcases except_bind_eq_ok.mp h with ⟨name, spelled, h⟩
      exact collects_bind (.shorthand required kind spelled) h
    · rename_i kind
      split at h
      · rename_i left child
        split at h
        · rename_i shorthand
          rcases except_bind_eq_ok.mp h with ⟨name, spelled, h⟩
          exact collects_bind (.defaulted required kind child shorthand spelled) h
        · rename_i other
          cases h
          apply collects_nothing
          intro ident specifier' exported' isNamespace introduces
          cases introduces with
          | shorthand _ kind' => cases kind.symm.trans kind'
          | defaulted _ _ child' shorthand =>
            cases child.symm.trans child'
            exact other shorthand
          | renamed _ kind' => exact pair kind'
          | renamedDefaulted _ kind' => exact pair kind'
      · rename_i absent
        cases h
        apply collects_nothing
        intro ident specifier' exported' isNamespace introduces
        cases introduces with
        | shorthand _ kind' => cases kind.symm.trans kind'
        | defaulted _ _ child => cases absent.symm.trans child
        | renamed _ kind' => exact pair kind'
        | renamedDefaulted _ kind' => exact pair kind'
    · exact absurd ‹_› pair
    · rename_i shorthand default _
      cases h
      apply collects_nothing
      intro ident specifier' exported' isNamespace introduces
      cases introduces with
      | shorthand _ kind => exact shorthand kind
      | defaulted _ kind => exact default kind
      | renamed _ kind => exact pair kind
      | renamedDefaulted _ kind => exact pair kind

theorem mem_declaratorParts {target value : Node} (member : part ∈ declaratorParts target value) :
    part = .whole target value ∨ target.kind = .objectPattern ∧ ∃ property, part = .property property value := by
  unfold declaratorParts at member
  split at member
  · exact .inl (List.mem_singleton.mp member)
  · split at member
    · rcases List.mem_map.mp member with ⟨property, -, rfl⟩
      exact .inr ⟨‹_›, property, rfl⟩
    · cases member

/-- What a part of a declarator introduces comes from its value; a part of a pattern needs a whole module. -/
theorem Introduces.requires {target value ident : Node} {isNamespace : Bool}
    (member : part ∈ declaratorParts target value)
    (h : Introduces source part ident specifier exported isNamespace) :
    ∃ named, Requires source value specifier named ∧ (target.kind = .objectPattern → named = none) := by
  rcases mem_declaratorParts member with rfl | ⟨pattern, property, rfl⟩
  · cases h with
    | whole required =>
      refine ⟨_, required, ?_⟩
      intro pattern
      simp [declaratorParts, pattern] at member
  · cases h with
    | shorthand required => exact ⟨none, required, fun _ => rfl⟩
    | defaulted required => exact ⟨none, required, fun _ => rfl⟩
    | renamed required => exact ⟨none, required, fun _ => rfl⟩
    | renamedDefaulted required => exact ⟨none, required, fun _ => rfl⟩

theorem collects_declarator {target value : Node} (named : n.child? .name = some target)
    (initial : n.child? .value = some value) (h : ofDeclarator source rangeOf n = .ok r) :
    Collects (Part.Binds source rangeOf) (declaratorParts target value) r := by
  unfold ofDeclarator at h
  rw [named, initial] at h
  rcases except_bind_eq_ok.mp h with ⟨member, spelled, later⟩
  rcases except_bind_eq_ok.mp later with ⟨module, read, made⟩
  cases module with
  | none =>
    cases made
    apply Collects.nothing
    rintro part listed entry ⟨ident, specifier, exported, isNamespace, introduces, -, -⟩
    rcases introduces.requires listed with ⟨named, required, -⟩
    cases read.symm.trans (requires_iff.mp required).2
  | some specifier =>
    have required : Requires source value specifier member := requires_iff.mpr ⟨spelled, read⟩
    change (if target.kind = .identifier then _ else _) = _ at made
    unfold declaratorParts
    split at made
    · rename_i plain
      rw [if_pos plain]
      exact collects_bind (.whole required) made
    · rename_i other
      rw [if_neg other]
      split at made
      · rename_i pattern
        rcases pattern with ⟨pattern, rfl⟩
        rw [if_pos pattern, List.map_eq_flatMap]
        apply Collects.of_gather _ made
        intro property _ r h
        exact collects_ofPatternPart required h
      · rename_i no
        cases made
        by_cases pattern : target.kind = .objectPattern
        -- a member of a module is not taken apart
        · rw [if_pos pattern]
          apply Collects.nothing
          rintro part listed entry ⟨ident, specifier, exported, isNamespace, introduces, -, -⟩
          have listed : part ∈ declaratorParts target value := by
            rw [declaratorParts, if_neg other, if_pos pattern]
            exact listed
          rcases introduces.requires listed with ⟨named, required', whole⟩
          have same : named = member :=
            Except.ok.inj ((requires_iff.mp required').1.symm.trans spelled)
          exact no ⟨pattern, same ▸ whole pattern⟩
        · rw [if_neg pattern]
          exact .nil

theorem collects_ofDeclarator (h : ofDeclarator source rangeOf n = .ok r) :
    Collects (Part.Binds source rangeOf)
      ((n.child? .name).elim [] fun target => (n.child? .value).elim [] (declaratorParts target)) r := by
  cases named : n.child? .name with
  | none =>
    simp only [ofDeclarator, named] at h
    cases h
    exact .nil
  | some target =>
    cases initial : n.child? .value with
    | none =>
      simp only [ofDeclarator, named, initial] at h
      cases h
      exact .nil
    | some value => exact collects_declarator named initial h

/-! ## Visits -/

theorem hook_eq_importStatement_iff {kind : Kind} :
    Hook.ofKind? kind = some .importStatement ↔ kind = .importStatement := by
  cases kind <;> simp [Hook.ofKind?, Kind.isFunction]

theorem hook_eq_declarator_iff {kind : Kind} : Hook.ofKind? kind = some .declarator ↔ kind = .declarator := by
  cases kind <;> simp [Hook.ofKind?, Kind.isFunction]

/-- What a node contributes is what its parts bind, in order. -/
theorem collects_visit {v : Node.Visit} (h : Visitor.visit (Binding.visitor source rangeOf) v = .ok r) :
    Collects (Part.Binds source rangeOf) (partsOf v.node) r := by
  unfold Visitor.visit at h
  unfold partsOf
  by_cases statement : v.node.kind = .importStatement
  · rw [hook_eq_importStatement_iff.mpr statement] at h
    rw [if_pos statement]
    exact collects_ofImport h
  · rw [if_neg statement]
    by_cases declarator : v.node.kind = .declarator
    · rw [hook_eq_declarator_iff.mpr declarator] at h
      rw [if_pos declarator]
      exact collects_ofDeclarator h
    · rw [if_neg declarator]
      split at h
      · rename_i hook found
        unfold Binding.visitor at h
        split at h
        · exact absurd (hook_eq_importStatement_iff.mp found) statement
        · exact absurd (hook_eq_declarator_iff.mp found) declarator
        · cases h
          exact .nil
      · cases h
        exact .nil

/-- A tree contributes what the parts of its named nodes bind, in the order of the walk. -/
theorem collects_accept {root : Node} (h : root.accept [Binding.visitor source rangeOf] = .ok r) :
    Collects (Part.Binds source rangeOf) (root.walk.flatMap fun v => partsOf v.node) r := by
  apply Collects.of_gather _ h
  intro v _ r h
  rcases except_bind_eq_ok.mp h with ⟨here, visited, h⟩
  cases h
  rw [List.append_nil]
  exact collects_visit visited

/-! ## One binding for a part -/

theorem ImportsFrom.unique {statement : Node} {other : String} (h : ImportsFrom source statement specifier)
    (h' : ImportsFrom source statement other) : specifier = other := by
  have same := (importsFrom_iff.mpr h).symm.trans (importsFrom_iff.mpr h')
  cases same
  rfl

theorem ClauseRequires.unique {other : String} (h : ClauseRequires source n specifier)
    (h' : ClauseRequires source n other) : specifier = other := by
  rcases h with ⟨m, spelled, place⟩
  rcases h' with ⟨m', spelled', place'⟩
  have same : m = m' := by
    rcases place with child | ⟨none, last⟩
    · rcases place' with child' | ⟨none', -⟩
      · exact Option.some.inj (child.symm.trans child')
      · exact absurd (Declaration.kind_of_stringValue spelled) (none' m child)
    · rcases place' with child' | ⟨-, last'⟩
      · exact absurd (Declaration.kind_of_stringValue spelled') (none m' child')
      · exact last.unique last'
  subst same
  cases spelled.symm.trans spelled'
  rfl

theorem Requires.unique {value : Node} {other : String} {exported' : Option String}
    (h : Requires source value specifier exported) (h' : Requires source value other exported') :
    specifier = other ∧ exported = exported' := by
  rcases requires_iff.mp h with ⟨named, read⟩
  rcases requires_iff.mp h' with ⟨named', read'⟩
  cases named.symm.trans named'
  cases read.symm.trans read'
  exact ⟨rfl, rfl⟩

/-- A part introduces one name at most. -/
theorem Introduces.unique {ident ident' : Node} {other : String} {exported' : Option String}
    {isNamespace isNamespace' : Bool} (h : Introduces source part ident specifier exported isNamespace)
    (h' : Introduces source part ident' other exported' isNamespace') :
    ident = ident' ∧ specifier = other ∧ exported = exported' ∧ isNamespace = isNamespace' := by
  cases h with
  | default origin =>
    cases h' with
    | default origin' => exact ⟨rfl, origin.unique origin', rfl, rfl⟩
  | all origin =>
    cases h' with
    | all origin' => exact ⟨rfl, origin.unique origin', rfl, rfl⟩
  | named origin _ child spelled _ bound =>
    cases h' with
    | named origin' _ child' spelled' _ bound' =>
      cases child.symm.trans child'
      cases spelled.symm.trans spelled'
      exact ⟨Option.some.inj (bound.symm.trans bound'), origin.unique origin', rfl, rfl⟩
  | equals module first =>
    cases h' with
    | equals module' first' => exact ⟨Option.some.inj (first.symm.trans first'), module.unique module', rfl, rfl⟩
  | whole required =>
    cases h' with
    | whole required' =>
      rcases required.unique required' with ⟨rfl, rfl⟩
      exact ⟨rfl, rfl, rfl, rfl⟩
  | shorthand required kind spelled =>
    cases h' with
    | shorthand required' _ spelled' =>
      cases spelled.symm.trans spelled'
      exact ⟨rfl, (required.unique required').1, rfl, rfl⟩
    | defaulted _ kind' => cases kind.symm.trans kind'
    | renamed _ kind' => cases kind.symm.trans kind'
    | renamedDefaulted _ kind' => cases kind.symm.trans kind'
  | defaulted required kind left _ spelled =>
    cases h' with
    | shorthand _ kind' => cases kind.symm.trans kind'
    | defaulted required' _ left' _ spelled' =>
      cases left.symm.trans left'
      cases spelled.symm.trans spelled'
      exact ⟨rfl, (required.unique required').1, rfl, rfl⟩
    | renamed _ kind' => cases kind.symm.trans kind'
    | renamedDefaulted _ kind' => cases kind.symm.trans kind'
  | renamed required kind child spelled _ target plain =>
    cases h' with
    | shorthand _ kind' => cases kind.symm.trans kind'
    | defaulted _ kind' => cases kind.symm.trans kind'
    | renamed required' _ child' spelled' _ target' =>
      cases child.symm.trans child'
      cases spelled.symm.trans spelled'
      exact ⟨Option.some.inj (target.symm.trans target'), (required.unique required').1, rfl, rfl⟩
    | renamedDefaulted _ _ _ _ _ target' assignment =>
      cases target.symm.trans target'
      cases plain.symm.trans assignment
  | renamedDefaulted required kind child spelled _ target assignment left =>
    cases h' with
    | shorthand _ kind' => cases kind.symm.trans kind'
    | defaulted _ kind' => cases kind.symm.trans kind'
    | renamed _ _ _ _ _ target' plain =>
      cases target.symm.trans target'
      cases plain.symm.trans assignment
    | renamedDefaulted required' _ child' spelled' _ target' _ left' =>
      cases child.symm.trans child'
      cases spelled.symm.trans spelled'
      cases target.symm.trans target'
      exact ⟨Option.some.inj (left.symm.trans left'), (required.unique required').1, rfl, rfl⟩

theorem Part.Binds.unique {entry entry' : String × Binding} (h : part.Binds source rangeOf entry)
    (h' : part.Binds source rangeOf entry') : entry = entry' := by
  rcases h with ⟨ident, specifier, exported, isNamespace, introduces, spelled, made⟩
  rcases h' with ⟨ident', specifier', exported', isNamespace', introduces', spelled', made'⟩
  rcases introduces.unique introduces' with ⟨rfl, rfl, rfl, rfl⟩
  exact Prod.ext (Except.ok.inj (spelled.symm.trans spelled')) (made.trans made'.symm)

end Binding

/-! ## Tables -/

theorem distinct_concat [DecidableEq α] (l : List α) (a : α) :
    distinct (l ++ [a]) = if a ∈ l then distinct l else distinct l ++ [a] := by
  induction l with
  | nil => rfl
  | cons b rest ih =>
    rw [List.cons_append, distinct, ih]
    by_cases same : a = b
    · subst same
      by_cases member : a ∈ rest
      · simp [member, distinct]
      · simp [member, distinct]
    · by_cases member : a ∈ rest
      · simp [member, distinct]
      · simp [member, same, distinct]

namespace ImportTable

/-- The names of the table, in the order of their first bindings. -/
theorem keys_ofBindings (bindings : BindingList) :
    (ofBindings bindings).keys = distinct (bindings.map Prod.fst) := by
  induction bindings using List.reverseRecOn with
  | nil => rfl
  | append_singleton bindings e ih =>
    unfold ofBindings Table.putAll at ih ⊢
    rw [List.foldl_append, List.foldl_cons, List.foldl_nil, Table.keys_put, ih, List.map_append, List.map_singleton,
      distinct_concat]
    simp only [mem_distinct]

/-- Each name has its last binding. -/
theorem get?_ofBindings (bindings : BindingList) (name : String) :
    (ofBindings bindings).get? name = lastNamed? bindings name := by
  induction bindings using List.reverseRecOn with
  | nil => rfl
  | append_singleton bindings e ih =>
    unfold ofBindings Table.putAll at ih ⊢
    rw [List.foldl_append, List.foldl_cons, List.foldl_nil, Table.get?_put, ih, lastNamed?, lastNamed?,
      List.reverse_concat, List.findSome?_cons]
    by_cases same : name = e.1
    · simp [same]
    · simp [same, Ne.symm same]

end ImportTable

end ContainerKeys
