import ContainerKeys.Proofs.DeclarationReads
import ContainerKeys.Proofs.Drafts

/-!
# Nodes of usages

Every usage of a file belongs to a node of its tree: the node spells out the key, and the usage has its
range.

* `Node.PartOf` — a node of a tree, named or not.
* `Indexer.spelled_findings` — what a walk finds to be used is spelled out in the tree.
* `FileIndex.exists_node_of_usage` — the node of a usage.
-/

namespace ContainerKeys

open Code

/-! ## Nodes of a tree -/

namespace Code.Node

/-- The node `m` is a node of the tree `n`, named or not. -/
def PartOf (m n : Node) : Prop :=
  Relation.ReflTransGen (fun c p : Node => c ∈ p.children) m n

variable {m n root c : Node}

theorem partOf_self (n : Node) : n.PartOf n :=
  Relation.ReflTransGen.refl

theorem partOf_mk_iff {label : Label} {children : List Node} :
    m.PartOf (.mk label children) ↔ m = .mk label children ∨ ∃ c ∈ children, m.PartOf c := by
  constructor
  · intro h
    rcases Relation.ReflTransGen.cases_tail h with same | ⟨c, inside, member⟩
    · exact .inl same.symm
    · exact .inr ⟨c, member, inside⟩
  · rintro (rfl | ⟨c, member, inside⟩)
    · exact partOf_self _
    · exact Relation.ReflTransGen.tail inside member

namespace PartOf

theorem of_mem (h : n.PartOf root) (member : c ∈ n.children) : c.PartOf root :=
  Relation.ReflTransGen.head member h

theorem child (h : n.PartOf root) {field : Field} (found : n.child? field = some c) : c.PartOf root :=
  h.of_mem (List.mem_of_find?_eq_some found)

theorem namedChild (h : n.PartOf root) (member : c ∈ n.namedChildren) : c.PartOf root :=
  h.of_mem (mem_children_of_mem_namedChildren member)

theorem part (h : n.PartOf root) (member : c ∈ n.parts) : c.PartOf root :=
  h.namedChild (List.mem_filter.mp member).1

theorem argument (h : n.PartOf root) (member : c ∈ n.arguments) : c.PartOf root := by
  unfold arguments at member
  split at member
  · rename_i args found
    exact (h.child found).part member
  · cases member

/-- What is met on a walk is part of the tree. -/
theorem of_within (h : m.Within root) : m.PartOf root :=
  Relation.ReflTransGen.mono (fun _ _ => mem_children_of_mem_namedChildren) _ _ h

/-- A part of a tree is laid out like the whole and ends within it. -/
theorem placed (h : m.PartOf root) (whole : root.Placed) : m.Placed ∧ m.stop ≤ root.stop := by
  -- from the node up, so that the parent is the one that is laid out
  induction h with
  | refl => exact ⟨whole, Nat.le_refl _⟩
  | tail _ member ih =>
    rcases whole.child member with ⟨placed, _, inside⟩
    rcases ih placed with ⟨here, stop⟩
    exact ⟨here, Nat.le_trans stop inside⟩

end PartOf

/-- A member access that names a property spells it out in a node of its own. -/
theorem property_of_memberName {source : Bytes} {key : String}
    (h : n.memberName source = .ok (some key)) :
    ∃ property, n.child? .property = some property ∧ property.kind = .propertyIdentifier := by
  unfold memberName at h
  split at h
  · split at h
    · rename_i property found
      split at h
      · rename_i kind
        exact ⟨property, found, kind⟩
      · cases h
    · cases h
  · cases h

theorem property_of_isCradleAccess {source : Bytes} (h : n.isCradleAccess source = .ok true) :
    ∃ property, n.child? .property = some property ∧ property.kind = .propertyIdentifier := by
  unfold isCradleAccess at h
  rcases except_bind_eq_ok.mp h with ⟨key, named, h⟩
  cases key with
  | none => cases h
  | some key => exact property_of_memberName named

end Code.Node

/-! ## Usages among findings -/

/-- The node spells out the key of the usage and has its range. -/
def Usage.SpelledBy (u : Usage) (source : Bytes) (n : Node) : Prop :=
  n.keyName source = .ok (some u.key) ∧ u.range = n.range source

/-- If the finding is a usage, it is one in the file, and a node of the tree spells it out. -/
def Finding.Spelled (x : Indexer) (root : Node) : Finding → Prop
  | .usage u => u.file = x.file ∧ ∃ n : Node, n.PartOf root ∧ u.SpelledBy x.source n
  | _ => True

namespace Indexer

variable {x : Indexer} {root n : Node} {fs : List Finding}

theorem spelled_usageAt {key : String} {kind : UsageKind} (part : n.PartOf root)
    (spelled : n.keyName x.source = .ok (some key)) :
    ∀ f ∈ [x.usageAt n key kind], f.Spelled x root := by
  intro f member
  rw [List.mem_singleton.mp member]
  exact ⟨rfl, n, part, spelled, rfl⟩

theorem spelled_ofResolve {args : List Node} (h : x.ofResolve args = .ok fs)
    (parts : ∀ a ∈ args, a.PartOf root) : ∀ f ∈ fs, f.Spelled x root := by
  unfold ofResolve at h
  split at h
  · cases h; simp
  · rename_i first rest
    rcases except_bind_eq_ok.mp h with ⟨key, read, h⟩
    split at h
    · cases h
      exact spelled_usageAt (parts first List.mem_cons_self) (Declaration.keyName_of_stringValue read)
    · cases h; simp

theorem spelled_ofMember (h : x.ofMember n = .ok fs) (part : n.PartOf root) :
    ∀ f ∈ fs, f.Spelled x root := by
  unfold ofMember at h
  rcases except_bind_eq_ok.mp h with ⟨access, cradle, h⟩
  split at h
  · rename_i isAccess
    rw [isAccess] at cradle
    split at h
    · rename_i object property _ found
      rcases except_bind_eq_ok.mp h with ⟨container, -, h⟩
      split at h
      · rcases except_bind_eq_ok.mp h with ⟨name, read, h⟩
        cases h
        -- the key is not read by its kind here, but the access is one by a plain name
        rcases Node.property_of_isCradleAccess cradle with ⟨_, found', kind⟩
        cases found.symm.trans found'
        refine spelled_usageAt (part.child found) ?_
        unfold Node.keyName
        rw [kind]
        exact except_bind_eq_ok.mpr ⟨name, read, rfl⟩
      · cases h; simp
    · cases h; simp
  · cases h; simp

theorem partOf_injectedKey {key : Node} (h : injectedKey n = some key) (part : n.PartOf root) :
    key.PartOf root := by
  unfold injectedKey at h
  split at h
  · cases h
    exact part
  · exact part.child h
  · exact part.child h
  · cases h

theorem spelled_ofInjected (h : x.ofInjected n = .ok fs) (part : n.PartOf root) :
    ∀ f ∈ fs, f.Spelled x root := by
  unfold ofInjected at h
  split at h
  · cases h; simp
  · rename_i keyNode found
    rcases except_bind_eq_ok.mp h with ⟨name, read, h⟩
    split at h
    · rename_i key kept
      cases h
      rw [(Option.filter_eq_some_iff.mp kept).1] at read
      exact spelled_usageAt (partOf_injectedKey found part) read
    · cases h; simp

theorem partOf_parameterPattern {pattern : Node} (h : parameterPattern n = some pattern)
    (part : n.PartOf root) : pattern.PartOf root := by
  -- both the wrapping and a default value are taken off by going to a child
  have bare : ∀ m, (if n.kind = .requiredParameter ∨ n.kind = .optionalParameter then
      n.child? .pattern else some n) = some m → m.PartOf root := by
    intro m found
    split at found
    · exact part.child found
    · cases found
      exact part
  unfold parameterPattern at h
  dsimp only at h
  generalize (if n.kind = .requiredParameter ∨ n.kind = .optionalParameter then
    n.child? .pattern else some n) = taken at bare h
  cases taken with
  | none => cases h
  | some m =>
    dsimp only at h
    split at h
    · exact (bare m rfl).child h
    · cases h
      exact bare pattern rfl

theorem spelled_ofParameters {parameters : Option Node} (h : x.ofParameters parameters = .ok fs)
    (part : ∀ p ∈ parameters, p.PartOf root) : ∀ f ∈ fs, f.Spelled x root := by
  unfold ofParameters at h
  split at h
  · rename_i pattern bound
    rcases Option.bind_eq_some_iff.mp bound with ⟨first, bound, pattern⟩
    rcases Option.bind_eq_some_iff.mp bound with ⟨list, given, first⟩
    have inside := partOf_parameterPattern pattern ((part list given).part (List.mem_of_head? first))
    split at h
    · intro f hf
      rcases mem_of_gather_eq_ok h hf with ⟨n, member, here, found, hf⟩
      exact spelled_ofInjected found (inside.namedChild member) f hf
    · cases h; simp
  · cases h; simp

theorem spelled_ofMethod {parent : Option Kind} (h : x.ofMethod parent n = .ok fs)
    (part : n.PartOf root) : ∀ f ∈ fs, f.Spelled x root := by
  unfold ofMethod at h
  split at h
  · split at h
    · rcases except_bind_eq_ok.mp h with ⟨name, -, h⟩
      split at h
      · exact spelled_ofParameters h fun p found => part.child found
      · cases h; simp
    · cases h; simp
  · cases h; simp

/-! ## Usages of a tree -/

theorem spelled_ofProperty (h : (x.ofProperty n).outcome = .ok fs) : ∀ f ∈ fs, f.Spelled x root := by
  unfold ofProperty at h
  split at h
  · cases h; simp
  · rcases Attempt.outcome_bind_eq_ok.mp h with ⟨key, -, h⟩
    split at h
    · cases h
      simp [Finding.Spelled]
    · cases h; simp

theorem spelled_ofRegister {args : List Node} (h : (x.ofRegister args).outcome = .ok fs) :
    ∀ f ∈ fs, f.Spelled x root := by
  unfold ofRegister at h
  split at h
  · cases h; simp
  · split at h
    · intro f hf
      rcases Attempt.mem_of_outcome_gather_eq_ok h hf with ⟨part, -, here, made, hf⟩
      exact spelled_ofProperty made f hf
    · split at h
      · cases h; simp
      · rcases Attempt.outcome_bind_eq_ok.mp h with ⟨key, -, h⟩
        split at h
        · cases h
          simp [Finding.Spelled]
        · cases h; simp

theorem spelled_ofCall (h : (x.ofCall n).outcome = .ok fs) (part : n.PartOf root) :
    ∀ f ∈ fs, f.Spelled x root := by
  unfold ofCall at h
  split at h
  · cases h; simp
  · rcases Attempt.outcome_bind_eq_ok.mp h with ⟨method, -, h⟩
    split at h
    · rcases Attempt.outcome_bind_eq_ok.mp h with ⟨container, -, h⟩
      split at h
      · split at h
        · exact spelled_ofRegister h
        · exact spelled_ofResolve h fun a member => part.argument member
      · cases h; simp
    · cases h; simp

theorem spelled_visit_bindingVisitor {v : Node.Visit}
    (h : (Visitor.visit x.bindingVisitor v).outcome = .ok fs) : ∀ f ∈ fs, f.Spelled x root := by
  unfold Visitor.visit at h
  split at h
  · rcases Attempt.outcome_bind_eq_ok.mp h with ⟨bindings, -, h⟩
    cases h
    intro f hf
    rcases List.mem_map.mp hf with ⟨bound, -, rfl⟩
    trivial
  · cases h; simp

theorem spelled_visit_keyVisitor {v : Node.Visit}
    (h : (Visitor.visit x.keyVisitor v).outcome = .ok fs) (part : v.node.PartOf root) :
    ∀ f ∈ fs, f.Spelled x root := by
  unfold Visitor.visit at h
  split at h
  · rename_i hook _
    cases hook with
    | call => exact spelled_ofCall h part
    | memberAccess => exact spelled_ofMember h part
    | method => exact spelled_ofMethod h part
    | function => exact spelled_ofParameters h fun p found => part.child found
    | importStatement => cases h; simp
    | declarator => cases h; simp
  · cases h; simp

/-- What a walk finds to be used is spelled out in the tree. -/
theorem spelled_findings (h : (x.findings root).outcome = .ok fs) : ∀ f ∈ fs, f.Spelled x root := by
  intro f hf
  rcases Attempt.mem_of_outcome_gather_eq_ok h hf with ⟨v, met, here, visited, hf⟩
  rcases Attempt.mem_of_outcome_gather_eq_ok visited hf with ⟨visitor, member, found, made, hf⟩
  rw [Node.walk_eq_preorder] at met
  have part : v.node.PartOf root := .of_within ((Node.mem_preorder_iff none).mp ⟨v, met, rfl⟩)
  -- of the two visitors only the second one finds usages
  rcases List.mem_pair.mp member with rfl | rfl
  · exact spelled_visit_bindingVisitor made f hf
  · exact spelled_visit_keyVisitor made part f hf

end Indexer

namespace FileIndex

theorem mem_usagesOf {u : Usage} {fs : List Finding} : u ∈ usagesOf fs ↔ Finding.usage u ∈ fs := by
  unfold usagesOf
  rw [List.mem_filterMap]
  constructor
  · rintro ⟨f, hf, found⟩
    cases f with
    | usage v => cases found; exact hf
    | binding => cases found
    | draft => cases found
  · intro h
    exact ⟨_, h, rfl⟩

/-- A node of the tree spells out the key of a usage and has its range. -/
theorem exists_node_of_usage {files : FileTree} {x : Indexer} {root : Node} {index : FileIndex}
    (h : (ofTree files x root).outcome = .ok index) {u : Usage} (used : u ∈ index.usages) :
    u.file = x.file ∧ ∃ n : Node, n.PartOf root ∧ u.SpelledBy x.source n := by
  unfold ofTree at h
  rcases Attempt.outcome_bind_eq_ok.mp h with ⟨findings, found, h⟩
  rcases Attempt.outcome_bind_eq_ok.mp h with ⟨registrations, -, h⟩
  cases h
  exact Indexer.spelled_findings (Attempt.outcome_adapt_eq_ok.mp found) _ (mem_usagesOf.mp used)

end FileIndex

end ContainerKeys
