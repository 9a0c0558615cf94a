import ContainerKeys.FileIndex
import ContainerKeys.Proofs.Attempts
import ContainerKeys.Proofs.Walk

/-!
# Drafts of registrations

Where the registrations of a file come from. Each `register` call makes its drafts, a walk collects them
call by call, and every draft becomes one definition.

* `Indexer.draftsAt` — the drafts that a node makes.
* `Indexer.draftsOf_findings` — a walk that succeeds finds the drafts of its nodes, in order.
* `FileIndex.ofTree_eq_ok`, `FileIndex.ofSource_eq_ok` — what is known of a file that was indexed.
-/

namespace ContainerKeys

open Code

/-! ## Drafts among findings -/

/-- The finding is a usage in the file. -/
def Finding.Uses (file : Path) : Finding → Prop
  | .usage u => u.file = file
  | _ => False

namespace FileIndex

theorem draftsOf_append (fs gs : List Finding) : draftsOf (fs ++ gs) = draftsOf fs ++ draftsOf gs :=
  List.filterMap_append

theorem draftsOf_flatMap (f : α → List Finding) (l : List α) :
    draftsOf (l.flatMap f) = l.flatMap fun a => draftsOf (f a) :=
  List.filterMap_flatMap

theorem mem_draftsOf {d : Draft} {fs : List Finding} : d ∈ draftsOf fs ↔ Finding.draft d ∈ fs := by
  unfold draftsOf
  rw [List.mem_filterMap]
  constructor
  · rintro ⟨f, hf, found⟩
    cases f with
    | draft e => cases found; exact hf
    | binding => cases found
    | usage => cases found
  · intro h
    exact ⟨_, h, rfl⟩

/-- Usages are no drafts. -/
theorem draftsOf_of_uses {file : Path} {fs : List Finding} (uses : ∀ f ∈ fs, f.Uses file) :
    draftsOf fs = [] := by
  rw [List.eq_nil_iff_forall_not_mem]
  intro d hd
  exact uses _ (mem_draftsOf.mp hd)

end FileIndex

namespace Indexer

open FileIndex (draftsOf draftsOf_of_uses)

variable {x : Indexer}

/-! ## Nodes that only use keys -/

theorem uses_ofMember {n : Node} {fs : List Finding} (h : x.ofMember n = .ok fs) :
    ∀ f ∈ fs, f.Uses x.file := by
  unfold ofMember at h
  obtain ⟨cradle, -, h⟩ := except_bind_eq_ok.mp h
  split at h
  · split at h
    · obtain ⟨container, -, h⟩ := except_bind_eq_ok.mp h
      split at h
      · obtain ⟨name, -, h⟩ := except_bind_eq_ok.mp h
        cases h
        simp [usageAt, Finding.Uses]
      · cases h; simp
    · cases h; simp
  · cases h; simp

theorem uses_ofInjected {n : Node} {fs : List Finding} (h : x.ofInjected n = .ok fs) :
    ∀ f ∈ fs, f.Uses x.file := by
  unfold ofInjected at h
  split at h
  · cases h; simp
  · obtain ⟨key, -, h⟩ := except_bind_eq_ok.mp h
    split at h
    · cases h
      simp [usageAt, Finding.Uses]
    · cases h; simp

theorem uses_ofParameters {parameters : Option Node} {fs : List Finding}
    (h : x.ofParameters parameters = .ok fs) : ∀ f ∈ fs, f.Uses x.file := by
  unfold ofParameters at h
  split at h
  · split at h
    · intro f hf
      obtain ⟨part, -, here, hpart, hf⟩ := mem_of_gather_eq_ok h hf
      exact uses_ofInjected hpart f hf
    · cases h; simp
  · cases h; simp

theorem uses_ofMethod {parent : Option Kind} {n : Node} {fs : List Finding}
    (h : x.ofMethod parent n = .ok fs) : ∀ f ∈ fs, f.Uses x.file := by
  unfold ofMethod at h
  split at h
  · split at h
    · obtain ⟨name, -, h⟩ := except_bind_eq_ok.mp h
      split at h
      · exact uses_ofParameters h
      · cases h; simp
    · cases h; simp
  · cases h; simp

theorem uses_ofResolve {args : List Node} {fs : List Finding} (h : x.ofResolve args = .ok fs) :
    ∀ f ∈ fs, f.Uses x.file := by
  unfold ofResolve at h
  split at h
  · cases h; simp
  · obtain ⟨key, -, h⟩ := except_bind_eq_ok.mp h
    split at h
    · cases h
      simp [usageAt, Finding.Uses]
    · cases h; simp

/-! ## The drafts of a node -/

/-- The drafts that a node makes: those of a `register` call on a container. -/
def draftsAt (x : Indexer) (n : Node) : List Draft :=
  if n.kind = .call then draftsOf (x.ofCall n).items else []

theorem draftsOf_bindingVisitor {hook : Hook} {v : Node.Visit} {fs : List Finding}
    (h : (x.bindingVisitor hook v).outcome = .ok fs) : draftsOf fs = [] := by
  unfold bindingVisitor at h
  obtain ⟨bindings, -, h⟩ := Attempt.outcome_bind_eq_ok.mp h
  cases h
  simp [draftsOf, List.filterMap_map]

theorem draftsOf_visit_bindingVisitor {v : Node.Visit} {fs : List Finding}
    (h : (Visitor.visit x.bindingVisitor v).outcome = .ok fs) : draftsOf fs = [] := by
  unfold Visitor.visit at h
  split at h
  · exact draftsOf_bindingVisitor h
  · cases h; rfl

theorem hook_eq_call_iff {kind : Kind} : Hook.ofKind? kind = some .call ↔ kind = .call := by
  cases kind <;> simp [Hook.ofKind?, Kind.isFunction]

theorem draftsOf_visit_keyVisitor {v : Node.Visit} {fs : List Finding}
    (h : (Visitor.visit x.keyVisitor v).outcome = .ok fs) : draftsOf fs = x.draftsAt v.node := by
  unfold Visitor.visit at h
  by_cases call : v.node.kind = .call
  · rw [hook_eq_call_iff.mpr call] at h
    change (x.ofCall v.node).outcome = .ok fs at h
    rw [draftsAt, if_pos call, Attempt.items_of_ok h]
  -- no other hook makes drafts
  · rw [draftsAt, if_neg call]
    split at h
    · rename_i hook found
      cases hook with
      | call => exact absurd (hook_eq_call_iff.mp found) call
      | memberAccess => exact draftsOf_of_uses (uses_ofMember h)
      | method => exact draftsOf_of_uses (uses_ofMethod h)
      | function => exact draftsOf_of_uses (uses_ofParameters h)
      | importStatement => cases h; rfl
      | declarator => cases h; rfl
    · cases h; rfl

theorem draftsOf_visitAll {v : Node.Visit} {fs : List Finding}
    (h : (Visitor.visitAll [x.bindingVisitor, x.keyVisitor] v).outcome = .ok fs) :
    draftsOf fs = x.draftsAt v.node := by
  obtain ⟨rfl, each⟩ := Attempt.outcome_gather_eq_ok h
  -- of the two visitors only the second one makes drafts
  obtain ⟨bindings, hb⟩ := each x.bindingVisitor (by simp)
  obtain ⟨keys, hk⟩ := each x.keyVisitor (by simp)
  have none : draftsOf bindings = [] := draftsOf_visit_bindingVisitor hb
  have made : draftsOf keys = x.draftsAt v.node := draftsOf_visit_keyVisitor hk
  simp only [List.flatMap_cons, List.flatMap_nil, List.append_nil, Attempt.items_of_ok hb,
    Attempt.items_of_ok hk, FileIndex.draftsOf_append, none, made, List.nil_append]

/-- A walk that succeeds finds the drafts of the nodes that it meets, in order. -/
theorem draftsOf_findings {root : Node} {fs : List Finding}
    (h : (x.findings root).outcome = .ok fs) :
    draftsOf fs = (root.preorder none).flatMap fun v => x.draftsAt v.node := by
  unfold findings Node.accept at h
  obtain ⟨rfl, each⟩ := Attempt.outcome_gather_eq_ok h
  rw [FileIndex.draftsOf_flatMap, Node.walk_eq_preorder]
  rw [Node.walk_eq_preorder] at each
  apply List.flatMap_congr
  intro v hv
  obtain ⟨here, hhere⟩ := each v hv
  rw [Attempt.items_of_ok hhere, draftsOf_visitAll hhere]

/-! ## Definitions -/

/-- A definition keeps the key of its draft and the place where it is spelled. -/
theorem define_eq_ok {files : FileTree} {imports : ImportTable} {draft : Draft} {d : Definition}
    (h : (x.define files imports draft).outcome = .ok d) :
    d.key = draft.key ∧ d.registrationRange = some (draft.keyNode.range x.source) := by
  unfold define at h
  obtain ⟨registration, -, h⟩ := Attempt.outcome_bind_eq_ok.mp h
  obtain ⟨origin, -, h⟩ := Attempt.outcome_bind_eq_ok.mp h
  obtain ⟨noted, -, h⟩ := Attempt.outcome_bind_eq_ok.mp h
  cases h
  exact ⟨rfl, rfl⟩

end Indexer

namespace FileIndex

/-- The registrations of a tree are its drafts, one by one. -/
theorem ofTree_eq_ok {files : FileTree} {x : Indexer} {root : Node} {index : FileIndex}
    (h : (ofTree files x root).outcome = .ok index) :
    List.Forall₂
      (fun (draft : Draft) (d : Definition) =>
        d.key = draft.key ∧ d.registrationRange = some (draft.keyNode.range x.source))
      ((root.preorder none).flatMap fun v => x.draftsAt v.node) index.registrations := by
  unfold ofTree at h
  obtain ⟨findings, hf, h⟩ := Attempt.outcome_bind_eq_ok.mp h
  obtain ⟨registrations, hr, h⟩ := Attempt.outcome_bind_eq_ok.mp h
  cases h
  rw [← Indexer.draftsOf_findings (Attempt.outcome_adapt_eq_ok.mp hf)]
  apply (Attempt.outcome_mapM_eq_ok hr).imp
  intro draft d defined
  exact Indexer.define_eq_ok defined

/-- A file without a fault was parsed, and its tree was indexed. -/
theorem ofSource_eq_ok {w : Workspace} {containers : List String} {file : Path} {source : Bytes}
    {index : FileIndex} (h : (ofSource w containers file source).outcome = .ok index)
    (sound : index.fault = none) :
    ∃ root, parse w.parser file source = .ok root ∧
      (ofTree w.files ⟨file, source, containers⟩ root).outcome = .ok index := by
  unfold ofSource at h
  obtain ⟨noted, -, h⟩ := Attempt.outcome_bind_eq_ok.mp h
  split at h
  · cases h
    cases sound
  · rename_i root parsed
    refine ⟨root, parsed, ?_⟩
    obtain ⟨result, hr, h⟩ := Attempt.outcome_bind_eq_ok.mp h
    have run : (ofTree w.files ⟨file, source, containers⟩ root).outcome = result := by
      cases hr; rfl
    rw [run]
    split at h
    · cases h; rfl
    · cases h
      cases sound
    · cases h

end FileIndex

end ContainerKeys
