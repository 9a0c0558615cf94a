import ContainerKeys.Proofs.Chains
import ContainerKeys.Proofs.Findings

/-!
# Walks over legible trees

A walk reads names off the nodes that it meets and off nodes near them, and it fails only where one of these
is no text. So it succeeds on a tree whose nodes are all texts.

* `Binding.succeeds_visit` — the visitor of bindings succeeds on a legible node.
* `Indexer.succeeds_visit_keyVisitor` — so does the visitor of keys.
* `Indexer.succeeds_findings` — so does the walk with both of them.
-/

namespace ContainerKeys

open Code

/-! ## Success -/

theorem succeeds_bind {x : Except ε α} {f : α → Except ε β} (first : Succeeds x)
    (later : ∀ a, Succeeds (f a)) : Succeeds (x >>= f) :=
  succeeds_bind_iff.mpr ⟨first, fun a _ => later a⟩

theorem Attempt.succeeds_bind {ε α β : Type} {x : Attempt ε α} {f : α → Attempt ε β}
    (first : Succeeds x.outcome) (later : ∀ a, Succeeds (f a).outcome) : Succeeds (x >>= f).outcome := by
  rw [outcome_bind]
  exact ContainerKeys.succeeds_bind first later

/-- What comes of gathering depends on what comes of each element only. -/
theorem Attempt.outcome_gather {ε α β : Type} (f : α → Attempt ε (List β)) (l : List α) :
    (gather f l).outcome = gather (fun a => (f a).outcome) l := by
  induction l with
  | nil => rfl
  | cons a rest ih =>
    rw [gather, gather, outcome_bind]
    congr 1
    funext here
    rw [outcome_bind, ih]
    rfl

theorem Attempt.succeeds_gather {ε α β : Type} {f : α → Attempt ε (List β)} {l : List α}
    (each : ∀ a ∈ l, Succeeds (f a).outcome) : Succeeds (gather f l).outcome := by
  rw [outcome_gather]
  exact succeeds_gather_iff.mpr each

/-! ## Names -/

namespace Code.Node.Legible

variable {source : Bytes} {n m : Node}

theorem within (h : n.Legible source) (inside : m.Within n) : m.Legible source := by
  induction inside with
  | refl => exact h
  | tail _ member ih => exact ih (h.named member)

theorem succeeds_name (h : n.Legible source) : Succeeds (n.name source) :=
  Declaration.succeeds_name.mpr h.text

theorem succeeds_stringValue (h : n.Legible source) : Succeeds (n.stringValue source) :=
  Declaration.succeeds_stringValue.mpr fun _ => h.text

theorem succeeds_keyName (h : n.Legible source) : Succeeds (n.keyName source) :=
  Declaration.succeeds_keyName.mpr fun _ => h.text

theorem succeeds_memberName (h : n.Legible source) : Succeeds (n.memberName source) := by
  rw [Declaration.succeeds_memberName]
  intro property _ child _
  exact (h.child child).text

theorem succeeds_isCradleAccess (h : n.Legible source) : Succeeds (n.isCradleAccess source) := by
  unfold isCradleAccess
  apply succeeds_bind h.succeeds_memberName
  intro name
  cases name with
  | none => exact succeeds_pure _
  | some name =>
    cases child : n.child? .object with
    | none => exact succeeds_pure _
    | some object =>
      apply succeeds_bind (h.child child).succeeds_memberName
      intro _
      exact succeeds_pure _

/-- A receiver is looked for inside calls and parentheses, and they are legible, too. -/
theorem succeeds_receiverName (h : n.Legible source) : Succeeds (n.receiverName source) := by
  fun_induction receiverName source n with
  | case1 | case2 =>
    apply succeeds_bind h.succeeds_name
    intro name
    exact succeeds_pure _
  | case3 => exact h.succeeds_memberName
  | case5 _ _ _ function _ _ object ih => exact ih ((h.child function).child object)
  | case8 _ _ _ first ih => exact ih (h.part (List.mem_of_head? first))
  | case4 | case6 | case7 | case9 | case10 => exact succeeds_pure _

/-- What is read off a node that may be absent. -/
theorem succeeds_readName {read : Node → NameResult} {n : Option Node}
    (legible : ∀ m, n = some m → m.Legible source)
    (each : ∀ m, m.Legible source → Succeeds (read m)) : Succeeds (readName read n) := by
  rw [Declaration.succeeds_readName]
  intro m found
  exact each m (legible m found)

end Code.Node.Legible

/-! ## Bindings -/

namespace Binding

variable {source : Bytes} {rangeOf : Node → Range} {n : Node} {specifier : String} {exported : Option String}

theorem succeeds_bind (legible : n.Legible source) (isNamespace : Bool) :
    Succeeds (Binding.bind source rangeOf n specifier exported isNamespace) := by
  unfold Binding.bind
  apply ContainerKeys.succeeds_bind legible.succeeds_name
  intro name
  exact succeeds_pure _

theorem succeeds_bindExport {local? : Option Node} (legible : ∀ m, local? = some m → m.Legible source) :
    Succeeds (bindExport source rangeOf local? specifier exported) := by
  unfold bindExport
  split
  · split
    · exact succeeds_bind (legible _ rfl) false
    · exact succeeds_pure _
  · exact succeeds_pure _

theorem succeeds_ofSpecifier (legible : n.Legible source) :
    Succeeds (ofSpecifier source rangeOf specifier n) := by
  unfold ofSpecifier
  split
  · apply ContainerKeys.succeeds_bind
    · apply Node.Legible.succeeds_readName
      · intro name child
        exact legible.child child
      · intro m readable
        exact readable.succeeds_keyName
    · intro exported
      apply succeeds_bindExport
      intro m found
      rcases Option.or_eq_some_iff.mp found with child | ⟨-, child⟩
      · exact legible.child child
      · exact legible.child child
  · exact succeeds_pure _

theorem succeeds_ofClausePart (legible : n.Legible source) :
    Succeeds (ofClausePart source rangeOf specifier n) := by
  unfold ofClausePart
  split
  · exact succeeds_bind legible false
  · apply succeeds_gather_iff.mpr
    intro ident member
    exact succeeds_bind (legible.named (List.mem_filter.mp member).1) true
  · apply succeeds_gather_iff.mpr
    intro part member
    exact succeeds_ofSpecifier (legible.named member)
  · exact succeeds_pure _

theorem succeeds_lastString {ns : List Node} (legible : ∀ m ∈ ns, m.Legible source) (known : Option String) :
    Succeeds (lastString source known ns) := by
  induction ns generalizing known with
  | nil => exact succeeds_pure _
  | cons m rest ih =>
    rw [List.forall_mem_cons] at legible
    unfold lastString
    split
    · apply ContainerKeys.succeeds_bind legible.1.succeeds_stringValue
      intro value
      exact ih legible.2 value
    · exact ih legible.2 known

/-- The module of a clause `name = require('...')`: its own, or the last string literal in it. -/
def clauseSpecifier (source : Bytes) (n : Node) : NameResult := do
  let named ← Node.readName (·.stringValue source) (n.child? .source)
  named.elim (lastString source none n.namedChildren) fun specifier => pure (some specifier)

/-- The clause binds its first identifier, if it has a module. -/
theorem ofRequireClause_eq (source : Bytes) (rangeOf : Node → Range) (n : Node) :
    ofRequireClause source rangeOf n = clauseSpecifier source n >>= fun specifier =>
      specifier.elim (pure []) fun specifier =>
        (n.namedChildren.find? (·.kind = .identifier)).elim (pure []) fun ident =>
          Binding.bind source rangeOf ident specifier none false := by
  unfold ofRequireClause clauseSpecifier
  rw [bind_assoc]
  congr 1
  funext named
  cases named with
  -- without a string under the field the last one counts
  | none =>
    show (lastString source none n.namedChildren >>= _) = (lastString source none n.namedChildren >>= _)
    congr 1
    funext specifier
    cases specifier with
    | none => rfl
    | some specifier => cases n.namedChildren.find? (·.kind = .identifier) <;> rfl
  | some specifier => cases n.namedChildren.find? (·.kind = .identifier) <;> rfl

theorem succeeds_clauseSpecifier (legible : n.Legible source) : Succeeds (clauseSpecifier source n) := by
  unfold clauseSpecifier
  apply ContainerKeys.succeeds_bind
  · apply Node.Legible.succeeds_readName
    · intro m child
      exact legible.child child
    · intro m readable
      exact readable.succeeds_stringValue
  · intro named
    cases named with
    | none => exact succeeds_lastString (fun m member => legible.named member) none
    | some specifier => exact succeeds_pure _

theorem succeeds_ofRequireClause (legible : n.Legible source) :
    Succeeds (ofRequireClause source rangeOf n) := by
  rw [ofRequireClause_eq]
  apply ContainerKeys.succeeds_bind (succeeds_clauseSpecifier legible)
  intro specifier
  cases specifier with
  | none => exact succeeds_pure _
  | some specifier =>
    cases first : n.namedChildren.find? (·.kind = .identifier) with
    | none => exact succeeds_pure _
    | some ident => exact succeeds_bind (legible.named (List.mem_of_find?_eq_some first)) false

theorem succeeds_ofImport (legible : n.Legible source) : Succeeds (ofImport source rangeOf n) := by
  unfold ofImport
  apply ContainerKeys.succeeds_bind
  · apply Node.Legible.succeeds_readName
    · intro m child
      exact legible.child child
    · intro m readable
      exact readable.succeeds_stringValue
  · intro specifier
    apply succeeds_gather_iff.mpr
    intro child member
    split
    · apply succeeds_gather_iff.mpr
      intro part member'
      exact succeeds_ofClausePart ((legible.named member).named member')
    · exact succeeds_ofRequireClause (legible.named member)
    · exact succeeds_pure _

theorem succeeds_requireSpecifier (legible : n.Legible source) : Succeeds (requireSpecifier source n) := by
  unfold requireSpecifier
  split
  · cases child : n.child? .function with
    | none => exact succeeds_pure _
    | some callee =>
      show Succeeds (if callee.kind = .identifier then _ else _)
      split
      · apply ContainerKeys.succeeds_bind (legible.child child).succeeds_name
        intro name
        split
        · apply Node.Legible.succeeds_readName
          · intro m first
            exact legible.argument (List.mem_of_head? first)
          · intro m readable
            exact readable.succeeds_stringValue
        · exact succeeds_pure _
      · exact succeeds_pure _
  · exact succeeds_pure _

theorem succeeds_ofPatternPart (legible : n.Legible source) :
    Succeeds (ofPatternPart source rangeOf specifier n) := by
  unfold ofPatternPart
  split
  · apply ContainerKeys.succeeds_bind legible.succeeds_name
    intro name
    exact succeeds_bind legible false
  · split
    · rename_i left child
      split
      · apply ContainerKeys.succeeds_bind (legible.child child).succeeds_name
        intro name
        exact succeeds_bind (legible.child child) false
      · exact succeeds_pure _
    · exact succeeds_pure _
  · apply ContainerKeys.succeeds_bind
    · apply Node.Legible.succeeds_readName
      · intro m child
        exact legible.child child
      · intro m readable
        exact readable.succeeds_keyName
    · intro exported
      apply succeeds_bindExport
      intro m target
      split at target
      · rename_i value child
        split at target
        · exact (legible.child child).child target
        · cases target
          exact legible.child child
      · cases target
  · exact succeeds_pure _

theorem succeeds_ofDeclarator (legible : n.Legible source) : Succeeds (ofDeclarator source rangeOf n) := by
  unfold ofDeclarator
  split
  · rename_i target value named initialised
    apply ContainerKeys.succeeds_bind (legible.child initialised).succeeds_memberName
    intro member
    apply ContainerKeys.succeeds_bind
    · apply Node.Legible.succeeds_readName
      · intro m called
        split at called
        · exact (legible.child initialised).child called
        · cases called
          exact legible.child initialised
      · intro m readable
        exact succeeds_requireSpecifier readable
    · intro specifier
      split
      · exact succeeds_pure _
      · split
        · exact succeeds_bind (legible.child named) false
        · split
          · apply succeeds_gather_iff.mpr
            intro part listed
            exact succeeds_ofPatternPart ((legible.child named).named listed)
          · exact succeeds_pure _
  · exact succeeds_pure _

/-- The visitor of bindings succeeds on a legible node. -/
theorem succeeds_visit {v : Node.Visit} (legible : v.node.Legible source) :
    Succeeds (Visitor.visit (Binding.visitor source rangeOf) v) := by
  unfold Visitor.visit
  split
  · unfold Binding.visitor
    split
    · exact succeeds_ofImport legible
    · exact succeeds_ofDeclarator legible
    · exact succeeds_pure _
  · exact succeeds_pure _

end Binding

/-! ## Keys -/

namespace Indexer

variable {x : Indexer} {n root : Node}

theorem succeeds_isContainer {receiver : Option Node} (legible : ∀ m, receiver = some m → m.Legible x.source) :
    Succeeds (x.isContainer receiver) := by
  unfold isContainer
  split
  · exact succeeds_pure _
  · apply ContainerKeys.succeeds_bind
    · apply Node.Legible.succeeds_readName legible
      intro m readable
      exact readable.succeeds_receiverName
    · intro name
      exact succeeds_pure _

theorem succeeds_ofProperty (legible : n.Legible x.source) : Succeeds (x.ofProperty n).outcome := by
  unfold ofProperty
  split
  · exact succeeds_pure _
  · rename_i keyNode value nodes
    -- the key is a child of the node or, in shorthand, the node itself
    have keyLegible : ∀ m, keyNode = some m → m.Legible x.source := by
      intro m key
      unfold propertyNodes at nodes
      split at nodes
      · cases nodes
        exact legible.child key
      · cases nodes
        cases key
        exact legible
      · cases nodes
    apply Attempt.succeeds_bind
    · apply Node.Legible.succeeds_readName keyLegible
      intro m readable
      exact readable.succeeds_keyName
    · intro key
      split
      · exact succeeds_pure _
      -- a key that is no literal is noted and left out
      · apply Attempt.succeeds_bind
        · exact succeeds_ok ()
        · intro noted
          exact succeeds_pure _

theorem succeeds_ofRegister {args : List Node} (legible : ∀ m ∈ args, m.Legible x.source) :
    Succeeds (x.ofRegister args).outcome := by
  unfold ofRegister
  split
  · exact succeeds_pure _
  · rename_i first rest
    rw [List.forall_mem_cons] at legible
    split
    · apply Attempt.succeeds_gather
      intro part member
      exact succeeds_ofProperty (legible.1.named member)
    · split
      · exact succeeds_pure _
      · apply Attempt.succeeds_bind
        · exact legible.1.succeeds_stringValue
        · intro key
          split
          · exact succeeds_pure _
          · exact succeeds_pure _

theorem succeeds_ofResolve {args : List Node} (legible : ∀ m ∈ args, m.Legible x.source) :
    Succeeds (x.ofResolve args) := by
  unfold ofResolve
  split
  · exact succeeds_pure _
  · rw [List.forall_mem_cons] at legible
    apply ContainerKeys.succeeds_bind legible.1.succeeds_stringValue
    intro key
    split
    · exact succeeds_pure _
    · exact succeeds_pure _

theorem succeeds_ofCall (legible : n.Legible x.source) : Succeeds (x.ofCall n).outcome := by
  unfold ofCall
  split
  · exact succeeds_pure _
  · rename_i callee function
    apply Attempt.succeeds_bind
    · exact (legible.child function).succeeds_memberName
    · intro method
      split
      · apply Attempt.succeeds_bind
        · apply succeeds_isContainer
          intro m object
          exact (legible.child function).child object
        · intro container
          split
          · split
            · exact succeeds_ofRegister fun m member => legible.argument member
            · exact succeeds_ofResolve fun m member => legible.argument member
          · exact succeeds_pure _
      · exact succeeds_pure _

theorem succeeds_ofMember (legible : n.Legible x.source) : Succeeds (x.ofMember n) := by
  unfold ofMember
  apply ContainerKeys.succeeds_bind legible.succeeds_isCradleAccess
  intro access
  split
  · split
    · rename_i cradle property object named
      apply ContainerKeys.succeeds_bind
      · apply succeeds_isContainer
        intro m child
        exact (legible.child object).child child
      · intro container
        split
        · apply ContainerKeys.succeeds_bind (legible.child named).succeeds_name
          intro name
          exact succeeds_pure _
        · exact succeeds_pure _
    · exact succeeds_pure _
  · exact succeeds_pure _

theorem succeeds_ofInjected (legible : n.Legible x.source) : Succeeds (x.ofInjected n) := by
  unfold ofInjected
  split
  · exact succeeds_pure _
  · rename_i keyNode spelled
    -- a shorthand spells its key itself, the other parts have a child for it
    have keyLegible : keyNode.Legible x.source := by
      unfold injectedKey at spelled
      split at spelled
      · cases spelled
        exact legible
      · exact legible.child spelled
      · exact legible.child spelled
      · cases spelled
    apply ContainerKeys.succeeds_bind keyLegible.succeeds_keyName
    intro key
    split
    · exact succeeds_pure _
    · exact succeeds_pure _

theorem legible_parameterPattern {pattern : Node} (legible : n.Legible x.source)
    (h : parameterPattern n = some pattern) : pattern.Legible x.source := by
  have bareLegible : ∀ m, (if n.kind = .requiredParameter ∨ n.kind = .optionalParameter then n.child? .pattern
      else some n) = some m → m.Legible x.source := by
    intro m bare
    split at bare
    · exact legible.child bare
    · cases bare
      exact legible
  unfold parameterPattern at h
  dsimp only at h
  split at h
  · rename_i m bare
    split at h
    · exact (bareLegible m bare).child h
    · cases h
      exact bareLegible _ bare
  · cases h

theorem succeeds_ofParameters {parameters : Option Node}
    (legible : ∀ m, parameters = some m → m.Legible x.source) : Succeeds (x.ofParameters parameters) := by
  unfold ofParameters
  split
  · rename_i pattern found
    rcases Option.bind_eq_some_iff.mp found with ⟨first, listed, destructured⟩
    rcases Option.bind_eq_some_iff.mp listed with ⟨list, given, listed⟩
    have firstLegible : first.Legible x.source := (legible list given).part (List.mem_of_head? listed)
    split
    · apply succeeds_gather_iff.mpr
      intro part member
      exact succeeds_ofInjected ((legible_parameterPattern firstLegible destructured).named member)
    · exact succeeds_pure _
  · exact succeeds_pure _

theorem succeeds_ofMethod (legible : n.Legible x.source) (parent : Option Kind) :
    Succeeds (x.ofMethod parent n) := by
  unfold ofMethod
  split
  · split
    · rename_i name named
      apply ContainerKeys.succeeds_bind (legible.child named).succeeds_name
      intro spelled
      split
      · exact succeeds_ofParameters fun m child => legible.child child
      · exact succeeds_pure _
    · exact succeeds_pure _
  · exact succeeds_pure _

/-- The visitor of keys succeeds on a legible node. -/
theorem succeeds_visit_keyVisitor {v : Node.Visit} (legible : v.node.Legible x.source) :
    Succeeds (Visitor.visit x.keyVisitor v).outcome := by
  unfold Visitor.visit
  split
  · rename_i hook _
    cases hook with
    | call => exact succeeds_ofCall legible
    | memberAccess => exact succeeds_ofMember legible
    | method => exact succeeds_ofMethod legible v.parent
    | function => exact succeeds_ofParameters fun m child => legible.child child
    | importStatement => exact succeeds_pure _
    | declarator => exact succeeds_pure _
  · exact succeeds_pure _

theorem succeeds_visit_bindingVisitor {v : Node.Visit} (legible : v.node.Legible x.source) :
    Succeeds (Visitor.visit x.bindingVisitor v).outcome := by
  rw [outcome_visit_bindingVisitor, succeeds_map_iff]
  exact Binding.succeeds_visit legible

/-- The walk over a legible tree succeeds. -/
theorem succeeds_findings (legible : root.Legible x.source) : Succeeds (x.findings root).outcome := by
  unfold findings Node.accept
  rw [Node.walk_eq_preorder]
  apply Attempt.succeeds_gather
  intro v met
  have readable : v.node.Legible x.source := legible.within ((Node.mem_preorder_iff none).mp ⟨v, met, rfl⟩)
  apply Attempt.succeeds_gather
  intro visitor listed
  rcases List.mem_pair.mp listed with rfl | rfl
  · exact succeeds_visit_bindingVisitor readable
  · exact succeeds_visit_keyVisitor readable

end Indexer

end ContainerKeys
