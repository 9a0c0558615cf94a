import ContainerKeys.Proofs.Contributions
import ContainerKeys.Proofs.Findings
import ContainerKeys.Proofs.Likeness

/-!
# Indexing alike trees

Alike trees are indexed alike: their visitors find the same names and keys in the same order, and what is made of
a draft differs in places only.

* `Finding.Alike`, `Definition.Alike` — the same up to places.
* `Indexer.matches_visitAll` — what is found on alike visits.
* `Registration.matches_ofValue`, `Origin.matches_ofBound` — what alike values bind.
* `Indexer.matches_define` — definitions of alike drafts, with tables that bind the same names alike.
-/

namespace ContainerKeys

open Code

/-! ## Visits -/

theorem forall₂_flatMap {R : α → β → Prop} {S : γ → δ → Prop} {l : List α} {l' : List β} {f : α → List γ}
    {g : β → List δ} (h : List.Forall₂ R l l')
    (each : ∀ a ∈ l, ∀ b, R a b → List.Forall₂ S (f a) (g b)) :
    List.Forall₂ S (l.flatMap f) (l'.flatMap g) := by
  induction h with
  | nil => exact .nil
  | cons related _ ih =>
    rw [List.forall_mem_cons] at each
    exact List.rel_append (each.1 _ related) (ih each.2)

/-- The visits are at alike nodes below parents of the same kind. -/
structure Code.Node.Visit.Alike (source source' : Bytes) (v v' : Node.Visit) : Prop where
  node : Node.Alike source source' v.node v'.node
  parent : v.parent = v'.parent

theorem Code.Node.Alike.preorder {source source' : Bytes} {n n' : Node} (h : Node.Alike source source' n n')
    (parent : Option Kind) :
    List.Forall₂ (Visit.Alike source source') (n.preorder parent) (n'.preorder parent) := by
  induction n using induction_on generalizing n' parent with
  | step n ih =>
    rw [preorder_eq, preorder_eq, ← h.kind]
    -- the named children are alike and have a parent of the same kind
    refine .cons ⟨h, rfl⟩ (forall₂_flatMap h.namedChildren ?_)
    intro c member c' alike
    exact ih c (mem_children_of_mem_namedChildren member) alike (some n.kind)

/-! ## Findings -/

/-- The drafts have the same key, and their nodes are alike. -/
structure Draft.Alike (source source' : Bytes) (d d' : Draft) : Prop where
  key : d.key = d'.key
  keyNode : Node.Alike source source' d.keyNode d'.keyNode
  value : Node.Alike source source' d.value d'.value

/-- The findings are the same up to places. -/
inductive Finding.Alike (source source' : Bytes) : Finding → Finding → Prop
  | binding {name : String} {b b' : Binding} (alike : b.Alike b') :
      Alike source source' (.binding name b) (.binding name b')
  | draft {d d' : Draft} (alike : d.Alike source source' d') : Alike source source' (.draft d) (.draft d')
  | usage {u u' : Usage} (file : u.file = u'.file) (key : u.key = u'.key) (kind : u.kind = u'.kind) :
      Alike source source' (.usage u) (.usage u')

namespace Indexer

/-- The indexers look for the same containers in the same file, which may have been changed. -/
structure Alike (x x' : Indexer) : Prop where
  file : x.file = x'.file
  containers : x.containers = x'.containers

variable {x x' : Indexer} {n n' : Node}

theorem usageAt_alike (h : x.Alike x') (key : String) (kind : UsageKind) :
    Finding.Alike x.source x'.source (x.usageAt n key kind) (x'.usageAt n' key kind) :=
  .usage h.file rfl rfl

theorem isContainer_eq (h : x.Alike x') {receiver receiver' : Option Node}
    (alike : Option.Rel (Node.Alike x.source x'.source) receiver receiver') :
    x.isContainer receiver = x'.isContainer receiver' := by
  unfold isContainer
  rw [h.containers, Node.Alike.readName alike fun m m' alike => alike.receiverName]

theorem rel_propertyNodes (alike : Node.Alike x.source x'.source n n') :
    Option.Rel
      (fun p p' => Option.Rel (Node.Alike x.source x'.source) p.1 p'.1 ∧
        Option.Rel (Node.Alike x.source x'.source) p.2 p'.2)
      (propertyNodes n) (propertyNodes n') := by
  unfold propertyNodes
  rw [alike.kind]
  split
  · exact .some ⟨alike.child? .key, alike.child? .value⟩
  · exact .some ⟨.some alike, .some alike⟩
  · exact .none

theorem matches_ofProperty (alike : Node.Alike x.source x'.source n n') :
    Matches (List.Forall₂ (Finding.Alike x.source x'.source)) (x.ofProperty n).outcome
      (x'.ofProperty n').outcome := by
  unfold ofProperty
  rcases rel_cases (rel_propertyNodes alike) with ⟨none, none'⟩ | ⟨p, p', nodes, nodes', keys, values⟩
  · rw [none, none']
    exact .ok .nil
  · rcases p with ⟨keyNode, value⟩
    rcases p' with ⟨keyNode', value'⟩
    rw [nodes, nodes']
    show Matches _ (_ >>= _ : Attempt _ _).outcome (_ >>= _ : Attempt _ _).outcome
    rw [Attempt.outcome_bind, Attempt.outcome_bind]
    apply Matches.bind_eq
    · exact Node.Alike.readName keys fun m m' alike => alike.keyName
    · intro key
      cases key.filter (· ≠ "") with
      | none => exact .ok .nil
      | some key =>
        cases keys with
        | none => exact .ok .nil
        | some keyAlike =>
          cases values with
          | none => exact .ok .nil
          | some valueAlike => exact .ok (.cons (.draft ⟨rfl, keyAlike, valueAlike⟩) .nil)

theorem matches_ofRegister {args args' : List Node}
    (alike : List.Forall₂ (Node.Alike x.source x'.source) args args') :
    Matches (List.Forall₂ (Finding.Alike x.source x'.source)) (x.ofRegister args).outcome
      (x'.ofRegister args').outcome := by
  unfold ofRegister
  cases alike with
  | nil => exact .ok .nil
  | cons first rest =>
    simp only [first.kind]
    split
    · rw [Attempt.outcome_gather, Attempt.outcome_gather]
      apply Matches.gather first.namedChildren
      intro part part' alike
      exact matches_ofProperty alike
    · cases rest with
      | nil => exact .ok .nil
      | cons value _ =>
        show Matches _ (_ >>= _ : Attempt _ _).outcome (_ >>= _ : Attempt _ _).outcome
        rw [Attempt.outcome_bind, Attempt.outcome_bind]
        apply Matches.bind_eq
        · exact first.stringValue
        · intro key
          cases key.filter (· ≠ "") with
          | none => exact .ok .nil
          | some key => exact .ok (.cons (.draft ⟨rfl, first, value⟩) .nil)

theorem matches_ofResolve (h : x.Alike x') {args args' : List Node}
    (alike : List.Forall₂ (Node.Alike x.source x'.source) args args') :
    Matches (List.Forall₂ (Finding.Alike x.source x'.source)) (x.ofResolve args) (x'.ofResolve args') := by
  unfold ofResolve
  cases alike with
  | nil => exact .ok .nil
  | cons first _ =>
    apply Matches.bind_eq first.stringValue
    intro key
    cases key with
    | none => exact .ok .nil
    | some key => exact .ok (.cons (usageAt_alike h key .resolveCall) .nil)

theorem matches_ofCall (h : x.Alike x') (alike : Node.Alike x.source x'.source n n') :
    Matches (List.Forall₂ (Finding.Alike x.source x'.source)) (x.ofCall n).outcome (x'.ofCall n').outcome := by
  unfold ofCall
  rcases rel_cases (alike.child? .function) with ⟨none, none'⟩ | ⟨callee, callee', child, child', called⟩
  · rw [none, none']
    exact .ok .nil
  · rw [child, child']
    show Matches _ (_ >>= _ : Attempt _ _).outcome (_ >>= _ : Attempt _ _).outcome
    rw [Attempt.outcome_bind, Attempt.outcome_bind]
    apply Matches.bind_eq
    · exact called.memberName
    · intro method
      split
      · rw [Attempt.outcome_bind, Attempt.outcome_bind]
        apply Matches.bind_eq
        · exact isContainer_eq h (called.child? .object)
        · intro container
          split
          · split
            · exact matches_ofRegister alike.arguments
            · exact matches_ofResolve h alike.arguments
          · exact .ok .nil
      · exact .ok .nil

theorem matches_ofMember (h : x.Alike x') (alike : Node.Alike x.source x'.source n n') :
    Matches (List.Forall₂ (Finding.Alike x.source x'.source)) (x.ofMember n) (x'.ofMember n') := by
  unfold ofMember
  apply Matches.bind_eq alike.isCradleAccess
  intro access
  split
  · rcases rel_cases (alike.child? .object) with ⟨none, none'⟩ | ⟨cradle, cradle', child, child', likeCradle⟩
    · rw [none, none']
      exact .ok .nil
    · rcases rel_cases (alike.child? .property) with ⟨none, none'⟩ | ⟨p, p', named, named', likeProperty⟩
      · rw [child, child', none, none']
        exact .ok .nil
      · rw [child, child', named, named']
        apply Matches.bind_eq
        · exact isContainer_eq h (likeCradle.child? .object)
        · intro container
          split
          · apply Matches.bind_eq likeProperty.name
            intro key
            exact .ok (.cons (usageAt_alike h key .cradleAccess) .nil)
          · exact .ok .nil
  · exact .ok .nil

theorem rel_injectedKey (alike : Node.Alike x.source x'.source n n') :
    Option.Rel (Node.Alike x.source x'.source) (injectedKey n) (injectedKey n') := by
  unfold injectedKey
  rw [alike.kind]
  split
  · exact .some alike
  · exact alike.child? .left
  · exact alike.child? .key
  · exact .none

theorem matches_ofInjected (h : x.Alike x') (alike : Node.Alike x.source x'.source n n') :
    Matches (List.Forall₂ (Finding.Alike x.source x'.source)) (x.ofInjected n) (x'.ofInjected n') := by
  unfold ofInjected
  rcases rel_cases (rel_injectedKey alike) with ⟨none, none'⟩ | ⟨keyNode, keyNode', spelled, spelled', likeKey⟩
  · rw [none, none']
    exact .ok .nil
  · rw [spelled, spelled']
    apply Matches.bind_eq likeKey.keyName
    intro key
    cases key.filter (· ≠ "") with
    | none => exact .ok .nil
    | some key => exact .ok (.cons (usageAt_alike h key .injection) .nil)

theorem rel_parameterPattern (alike : Node.Alike x.source x'.source n n') :
    Option.Rel (Node.Alike x.source x'.source) (parameterPattern n) (parameterPattern n') := by
  have bare : Option.Rel (Node.Alike x.source x'.source)
      (if n.kind = .requiredParameter ∨ n.kind = .optionalParameter then n.child? .pattern else some n)
      (if n'.kind = .requiredParameter ∨ n'.kind = .optionalParameter then n'.child? .pattern else some n') := by
    rw [alike.kind]
    split
    · exact alike.child? .pattern
    · exact .some alike
  unfold parameterPattern
  dsimp only
  rcases rel_cases bare with ⟨none, none'⟩ | ⟨m, m', found, found', likeBare⟩
  · rw [none, none']
    exact .none
  · rw [found, found']
    simp only [likeBare.kind]
    split
    · exact likeBare.child? .left
    · exact .some likeBare

theorem matches_ofParameters (h : x.Alike x') {parameters parameters' : Option Node}
    (alike : Option.Rel (Node.Alike x.source x'.source) parameters parameters') :
    Matches (List.Forall₂ (Finding.Alike x.source x'.source)) (x.ofParameters parameters)
      (x'.ofParameters parameters') := by
  have patterns : Option.Rel (Node.Alike x.source x'.source)
      ((parameters.bind (·.parts.head?)).bind parameterPattern)
      ((parameters'.bind (·.parts.head?)).bind parameterPattern) := by
    apply rel_bind (rel_bind alike fun m m' alike => rel_head? alike.parts)
    intro first first' alike
    exact rel_parameterPattern alike
  unfold ofParameters
  rcases rel_cases patterns with ⟨none, none'⟩ | ⟨pattern, pattern', found, found', likePattern⟩
  · rw [none, none']
    exact .ok .nil
  · rw [found, found']
    simp only [likePattern.kind]
    split
    · apply Matches.gather likePattern.namedChildren
      intro part part' alike
      exact matches_ofInjected h alike
    · exact .ok .nil

theorem matches_ofMethod (h : x.Alike x') (alike : Node.Alike x.source x'.source n n') (parent : Option Kind) :
    Matches (List.Forall₂ (Finding.Alike x.source x'.source)) (x.ofMethod parent n) (x'.ofMethod parent n') := by
  unfold ofMethod
  split
  · rcases rel_cases (alike.child? .name) with ⟨none, none'⟩ | ⟨name, name', named, named', likeName⟩
    · rw [none, none']
      exact .ok .nil
    · rw [named, named']
      apply Matches.bind_eq likeName.name
      intro spelled
      split
      · exact matches_ofParameters h (alike.child? .parameters)
      · exact .ok .nil
  · exact .ok .nil

/-- The visitor of keys finds the same on alike visits. -/
theorem matches_visit_keyVisitor (h : x.Alike x') {v v' : Node.Visit} (alike : v.Alike x.source x'.source v') :
    Matches (List.Forall₂ (Finding.Alike x.source x'.source)) (Visitor.visit x.keyVisitor v).outcome
      (Visitor.visit x'.keyVisitor v').outcome := by
  unfold Visitor.visit
  rw [← alike.node.kind]
  cases Hook.ofKind? v.node.kind with
  | none => exact .ok .nil
  | some hook =>
    cases hook with
    | call => exact matches_ofCall h alike.node
    | memberAccess => exact matches_ofMember h alike.node
    | method =>
      show Matches _ (x.ofMethod v.parent v.node) (x'.ofMethod v'.parent v'.node)
      rw [← alike.parent]
      exact matches_ofMethod h alike.node v.parent
    | function => exact matches_ofParameters h (alike.node.child? .parameters)
    | importStatement => exact .ok .nil
    | declarator => exact .ok .nil

theorem matches_visit_bindingVisitor {v v' : Node.Visit} (alike : v.Alike x.source x'.source v') :
    Matches (List.Forall₂ (Finding.Alike x.source x'.source)) (Visitor.visit x.bindingVisitor v).outcome
      (Visitor.visit x'.bindingVisitor v').outcome := by
  have visited : Matches (List.Forall₂ Binding.SameEntry)
      (Visitor.visit (Binding.visitor x.source (·.range x.source)) v)
      (Visitor.visit (Binding.visitor x'.source (·.range x'.source)) v') := by
    unfold Visitor.visit
    rw [← alike.node.kind]
    cases Hook.ofKind? v.node.kind with
    | none => exact .ok .nil
    | some hook =>
      cases hook with
      | importStatement => exact Binding.matches_ofImport alike.node
      | declarator => exact Binding.matches_ofDeclarator alike.node
      | call => exact .ok .nil
      | memberAccess => exact .ok .nil
      | method => exact .ok .nil
      | function => exact .ok .nil
  rw [outcome_visit_bindingVisitor, outcome_visit_bindingVisitor]
  apply visited.bind
  intro bindings bindings' entries
  refine .ok (List.forall₂_map_left_iff.mpr (List.forall₂_map_right_iff.mpr (entries.imp ?_)))
  rintro ⟨name, b⟩ ⟨name', b'⟩ ⟨same, alike⟩
  cases same
  exact .binding alike

/-- What both visitors find on alike visits. -/
theorem matches_visitAll (h : x.Alike x') {v v' : Node.Visit} (alike : v.Alike x.source x'.source v') :
    Matches (List.Forall₂ (Finding.Alike x.source x'.source))
      (Visitor.visitAll [x.bindingVisitor, x.keyVisitor] v).outcome
      (Visitor.visitAll [x'.bindingVisitor, x'.keyVisitor] v').outcome := by
  have visitors : List.Forall₂
      (fun visitor visitor' => Matches (List.Forall₂ (Finding.Alike x.source x'.source))
        (Visitor.visit visitor v).outcome (Visitor.visit visitor' v').outcome)
      [x.bindingVisitor, x.keyVisitor] [x'.bindingVisitor, x'.keyVisitor] :=
    .cons (matches_visit_bindingVisitor alike) (.cons (matches_visit_keyVisitor h alike) .nil)
  rw [Visitor.visitAll, Visitor.visitAll, Attempt.outcome_gather, Attempt.outcome_gather]
  exact Matches.gather visitors fun _ _ matched => matched

end Indexer

/-! ## Registrations -/

namespace Registration

/-- The registrations are of the same kind with the same lifetime, and they bind alike expressions. -/
structure Alike (source source' : Bytes) (r r' : Registration) : Prop where
  kind : r.kind = r'.kind
  lifetime : r.lifetime = r'.lifetime
  bound : Option.Rel (Node.Alike source source') r.bound r'.bound

variable {source source' : Bytes} {n n' : Node}

theorem selectorName_eq {callee callee' : Option Node} (h : Option.Rel (Node.Alike source source') callee callee') :
    selectorName source callee = selectorName source' callee' := by
  cases h with
  | none => rfl
  | some alike => simp only [selectorName, alike.kind, alike.name, alike.memberName]

theorem lifetimeLiteral_eq (h : Node.Alike source source' n n') :
    lifetimeLiteral source n = lifetimeLiteral source' n' := by
  unfold lifetimeLiteral
  rw [h.memberName, h.stringValue]

theorem optionLifetime_eq {parts parts' : List Node}
    (h : List.Forall₂ (Node.Alike source source') parts parts') :
    optionLifetime source parts = optionLifetime source' parts' := by
  induction h with
  | nil => rfl
  | @cons part part' _ _ alike _ ih =>
    have read : Node.readName (·.keyName source) (part.child? .key) =
        Node.readName (·.keyName source') (part'.child? .key) :=
      Node.Alike.readName (alike.child? .key) fun m m' alike => alike.keyName
    rw [optionLifetime, optionLifetime, alike.kind, read, ih]
    rcases rel_cases (alike.child? .value) with ⟨none, none'⟩ | ⟨value, value', child, child', likeValue⟩
    · rw [none, none']
    · simp only [child, child', lifetimeLiteral_eq likeValue]

theorem optionsLifetime_eq {options options' : Option Node}
    (h : Option.Rel (Node.Alike source source') options options') :
    optionsLifetime source options = optionsLifetime source' options' := by
  cases h with
  | none => rfl
  | some alike => simp only [optionsLifetime, alike.kind, optionLifetime_eq alike.namedChildren]

theorem modify_eq (h : Node.Alike source source' n n') (lifetime : Option Lifetime) (name : Option String) :
    modify source lifetime name n = modify source' lifetime name n' := by
  unfold modify
  rcases rel_cases (rel_head? h.arguments) with ⟨none, none'⟩ | ⟨argument, argument', first, first', alike⟩
  · rw [none, none']
  · simp only [first, first', lifetimeLiteral_eq alike]

/-- One step along a chain of calls. -/
theorem follow_eq (source : Bytes) (value : Node) (lifetime : Option Lifetime) (n : Node) :
    follow source value lifetime n =
      if n.kind = .call then
        selectorName source (n.child? .function) >>= fun name =>
          (name.bind BindingKind.ofSelector?).elim
            (modify source lifetime name n >>= fun lifetime =>
              (n.calledOn.bind Node.unwrap).elim (.ok ⟨.asValue, lifetime, some value⟩)
                (follow source value lifetime))
            fun kind =>
              lifetime.elim (optionsLifetime source (n.arguments.drop 1).head?) (fun l => .ok (some l)) >>=
                fun lifetime => .ok ⟨kind, lifetime, n.arguments.head?⟩
      else .ok ⟨.asValue, lifetime, some value⟩ := by
  rw [follow]
  split
  · show (selectorName source (n.child? .function) >>= _) = (selectorName source (n.child? .function) >>= _)
    congr 1
    funext name
    cases name.bind BindingKind.ofSelector? with
    | some kind => cases lifetime <;> rfl
    | none =>
      show (modify source lifetime name n >>= _) = (modify source lifetime name n >>= _)
      congr 1
      funext lifetime
      unfold Node.calledOn
      split
      · rename_i function
        rw [function]
        rfl
      · rename_i callee function
        rw [function, Option.bind_some]
        split
        · split
          · rename_i object
            rw [object]
            rfl
          · rename_i object child
            rw [child, Option.bind_some]
            split
            · rename_i next unwrapped
              rw [unwrapped]
              rfl
            · rename_i unwrapped
              rw [unwrapped]
              rfl
        · rfl
  · rfl

theorem size_inner_lt {next : Node} (h : n.calledOn.bind Node.unwrap = some next) : next.size < n.size := by
  rcases Option.bind_eq_some_iff.mp h with ⟨object, called, unwrapped⟩
  exact Nat.lt_of_le_of_lt (Node.size_unwrap_le object unwrapped) (Node.size_calledOn_lt called)

theorem matches_follow {value value' : Node} (values : Node.Alike source source' value value')
    (h : Node.Alike source source' n n') (lifetime : Option Lifetime) :
    Matches (Alike source source') (follow source value lifetime n) (follow source' value' lifetime n') := by
  induction size : n.size using Nat.strongRecOn generalizing n n' lifetime with
  | ind size ih =>
    subst size
    rw [follow_eq, follow_eq source', ← h.kind]
    split
    · apply Matches.bind_eq (selectorName_eq (h.child? .function))
      intro name
      cases name.bind BindingKind.ofSelector? with
      -- a selector ends the chain; its options are read if no lifetime was set further out
      | some kind =>
        have options : Option.Rel (Node.Alike source source') (n.arguments.drop 1).head?
            (n'.arguments.drop 1).head? := rel_head? (List.forall₂_drop 1 h.arguments)
        show Matches _ (_ >>= _) (_ >>= _)
        rw [optionsLifetime_eq options]
        apply Matches.bind_eq rfl
        intro lifetime
        exact .ok ⟨rfl, rfl, rel_head? h.arguments⟩
      | none =>
        apply Matches.bind_eq (modify_eq h lifetime name)
        intro lifetime
        have inner : Option.Rel (Node.Alike source source') (n.calledOn.bind Node.unwrap)
            (n'.calledOn.bind Node.unwrap) := rel_bind h.calledOn fun m m' alike => alike.unwrap
        rcases rel_cases inner with ⟨none, none'⟩ | ⟨next, next', found, found', alike⟩
        · rw [none, none']
          exact .ok ⟨rfl, rfl, .some values⟩
        -- the chain goes on below the node, but not at a child of it, so the induction is on the size
        · rw [found, found']
          exact ih next.size (size_inner_lt found) alike lifetime rfl
    · exact .ok ⟨rfl, rfl, .some values⟩

/-- Alike values are read alike. -/
theorem matches_ofValue {value value' : Node} (h : Node.Alike source source' value value') :
    Matches (Alike source source') (ofValue source value) (ofValue source' value') := by
  unfold ofValue
  rcases rel_cases h.unwrap with ⟨none, none'⟩ | ⟨m, m', found, found', alike⟩
  · rw [none, none']
    exact .ok ⟨rfl, rfl, .some h⟩
  · rw [found, found']
    exact matches_follow h alike none

end Registration

/-! ## Origins -/

/-- The tables bind the same names alike. -/
def ImportTable.Alike (imports imports' : ImportTable) : Prop :=
  ∀ name, Option.Rel Binding.Alike (imports.get? name) (imports'.get? name)

namespace Origin

/-- The origins are the same export of the same file. -/
structure Alike (o o' : Origin) : Prop where
  file : o.file = o'.file
  exportName : o.exportName = o'.exportName

theorem matches_ofBinding {b b' : Binding} (alike : b.Alike b') (files : FileTree) (file : Path)
    (exported : Option String) (localName : String) :
    Matches Alike (ofBinding files file b exported localName).outcome
      (ofBinding files file b' exported localName).outcome := by
  unfold ofBinding
  rw [Attempt.outcome_bind, Attempt.outcome_bind, alike.specifier]
  apply Matches.bind_eq rfl
  intro module
  cases module with
  | some module => exact .ok ⟨rfl, rfl⟩
  | none => exact .ok ⟨rfl, rfl⟩

variable {source source' : Bytes} {imports imports' : ImportTable}

theorem matches_memberBinding (tables : imports.Alike imports') {n n' : Node}
    (h : Node.Alike source source' n n') :
    Matches (Option.Rel fun p p' : Binding × String => p.1.Alike p'.1 ∧ p.2 = p'.2)
      (memberBinding source imports n) (memberBinding source' imports' n') := by
  unfold memberBinding
  apply Matches.bind_eq h.memberName
  intro member
  cases member with
  | none => exact .ok .none
  | some property =>
    rcases rel_cases (h.child? .object) with ⟨none, none'⟩ | ⟨object, object', child, child', alike⟩
    · rw [none, none']
      exact .ok .none
    · rw [child, child']
      simp only [alike.isIdentifier]
      split
      · apply Matches.bind_eq alike.name
        intro name
        rcases rel_cases (tables name) with ⟨none, none'⟩ | ⟨b, b', bound, bound', likeBinding⟩
        · rw [none, none']
          exact .ok .none
        · rw [bound, bound']
          simp only [likeBinding.isNamespace, likeBinding.exported]
          split
          · exact .ok (.some ⟨likeBinding, rfl⟩)
          · exact .ok .none
      · exact .ok .none

/-- Alike expressions have the same origin, if the same names are bound alike. -/
theorem matches_ofBound (tables : imports.Alike imports') (files : FileTree) (file : Path)
    {bound bound' : Option Node} (h : Option.Rel (Node.Alike source source') bound bound') :
    Matches Alike (ofBound files source imports file bound).outcome
      (ofBound files source' imports' file bound').outcome := by
  cases h with
  | none => exact .ok ⟨rfl, rfl⟩
  | @some n n' alike =>
    unfold ofBound
    simp only [alike.isIdentifier]
    split
    -- a name by itself, or else a member of a module
    · rw [Attempt.outcome_bind, Attempt.outcome_bind]
      apply Matches.bind_eq
      · exact congrArg (Except.mapError _) alike.name
      · intro name
        rcases rel_cases (tables name) with ⟨none, none'⟩ | ⟨b, b', found, found', likeBinding⟩
        · rw [none, none']
          exact .ok ⟨rfl, rfl⟩
        · rw [found, found']
          show Matches _ (Except.mapError _ _) (Except.mapError _ _)
          rw [likeBinding.exported]
          exact (matches_ofBinding likeBinding files file b'.exported name).mapError _
    · rw [Attempt.outcome_bind, Attempt.outcome_bind]
      apply ((matches_memberBinding tables alike).mapError Fault.undecodable).bind
      intro member member' related
      cases related with
      | none => exact .ok ⟨rfl, rfl⟩
      | @some p p' related =>
        rcases p with ⟨b, property⟩
        rcases p' with ⟨b', property'⟩
        rcases related with ⟨likeBinding, same⟩
        cases same
        exact (matches_ofBinding likeBinding files file (some property) property).mapError _

end Origin

/-! ## Definitions -/

/-- The definitions are the same up to places. -/
structure Definition.Alike (d d' : Definition) : Prop where
  key : d.key = d'.key
  kind : d.kind = d'.kind
  lifetime : d.lifetime = d'.lifetime
  originFile : d.originFile = d'.originFile
  exportName : d.exportName = d'.exportName

/-- Alike drafts are defined alike, if the same names are bound alike. -/
theorem Indexer.matches_define {x x' : Indexer} (h : x.Alike x') (files : FileTree)
    {imports imports' : ImportTable} (tables : imports.Alike imports') {draft draft' : Draft}
    (alike : draft.Alike x.source x'.source draft') :
    Matches Definition.Alike (x.define files imports draft).outcome
      (x'.define files imports' draft').outcome := by
  unfold define
  rw [Attempt.outcome_bind, Attempt.outcome_bind]
  apply ((Registration.matches_ofValue alike.value).mapError Origin.Fault.undecodable).bind
  intro registration registration' registered
  rw [Attempt.outcome_bind, Attempt.outcome_bind, ← h.file]
  apply (Origin.matches_ofBound tables files x.file registered.bound).bind
  intro origin origin' same
  exact .ok ⟨alike.key, registered.kind, registered.lifetime, same.file, same.exportName⟩

end ContainerKeys
