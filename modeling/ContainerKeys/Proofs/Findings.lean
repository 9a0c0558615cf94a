import ContainerKeys.Proofs.Usages

/-!
# What a walk finds

One walk over a file serves two visitors, one for bindings and one for keys. A visit finds what the first
one reports, then what the second one reports, and a walk finds what its visits find, one after another.
The first reports bindings only, the second none.

* `Indexer.findings_eq_ok` — a walk that succeeds, visit by visit.
* `Indexer.bindingsOf_findings`, `Indexer.usagesOf_findings` — its bindings and usages come from one visitor each.
* `FileIndex.ofTree_eq_ok_iff` — a tree is indexed by a walk and the definitions of its drafts.
* `FileIndex.records_of_visit` — the index of a tree holds what each visit reports.
-/

namespace ContainerKeys

open Code

/-! ## Findings by their kind -/

namespace FileIndex

theorem bindingsOf_append (fs gs : List Finding) :
    bindingsOf (fs ++ gs) = bindingsOf fs ++ bindingsOf gs :=
  List.filterMap_append

theorem bindingsOf_flatMap (f : α → List Finding) (l : List α) :
    bindingsOf (l.flatMap f) = l.flatMap fun a => bindingsOf (f a) :=
  List.filterMap_flatMap

theorem usagesOf_append (fs gs : List Finding) : usagesOf (fs ++ gs) = usagesOf fs ++ usagesOf gs :=
  List.filterMap_append

theorem usagesOf_flatMap (f : α → List Finding) (l : List α) :
    usagesOf (l.flatMap f) = l.flatMap fun a => usagesOf (f a) :=
  List.filterMap_flatMap

theorem mem_bindingsOf {e : String × Binding} {fs : List Finding} :
    e ∈ bindingsOf fs ↔ Finding.binding e.1 e.2 ∈ fs := by
  unfold bindingsOf
  rw [List.mem_filterMap]
  constructor
  · rintro ⟨f, member, found⟩
    cases f with
    | binding name binding => cases found; exact member
    | draft => cases found
    | usage => cases found
  · intro member
    exact ⟨_, member, rfl⟩

/-- Bindings put among findings are the bindings of these. -/
theorem bindingsOf_map (bindings : BindingList) :
    bindingsOf (bindings.map fun e => Finding.binding e.1 e.2) = bindings := by
  unfold bindingsOf
  rw [List.filterMap_map]
  exact List.filterMap_some

theorem usagesOf_map_binding (bindings : BindingList) :
    usagesOf (bindings.map fun e => Finding.binding e.1 e.2) = [] := by
  simp [usagesOf, List.filterMap_map]

end FileIndex

open FileIndex (bindingsOf draftsOf usagesOf)

namespace Indexer

variable {x : Indexer} {root n : Node} {v : Node.Visit} {fs : List Finding}

/-! ## Reports of the two visitors -/

/-- What the visitor of bindings reports on a visit. -/
def bindingReport (x : Indexer) (v : Node.Visit) : List Finding :=
  (Visitor.visit x.bindingVisitor v).items

/-- What the visitor of keys reports on a visit. -/
def keyReport (x : Indexer) (v : Node.Visit) : List Finding :=
  (Visitor.visit x.keyVisitor v).items

/-- The visitor of bindings reports what that of the import table contributes. -/
theorem outcome_visit_bindingVisitor (x : Indexer) (v : Node.Visit) :
    (Visitor.visit x.bindingVisitor v).outcome =
      (List.map fun e => Finding.binding e.1 e.2) <$>
        Visitor.visit (Binding.visitor x.source (·.range x.source)) v := by
  unfold Visitor.visit
  cases Hook.ofKind? v.node.kind with
  | none => rfl
  | some hook =>
    show (x.bindingVisitor hook v).outcome = _
    unfold bindingVisitor
    rw [Attempt.outcome_bind, Attempt.outcome_ofExcept]
    rfl

theorem bindingsOf_visit_bindingVisitor (h : (Visitor.visit x.bindingVisitor v).outcome = .ok fs) :
    Visitor.visit (Binding.visitor x.source (·.range x.source)) v = .ok (bindingsOf fs) := by
  rw [outcome_visit_bindingVisitor] at h
  cases given : Visitor.visit (Binding.visitor x.source (·.range x.source)) v with
  | error fault =>
    rw [given] at h
    cases h
  | ok bindings =>
    rw [given] at h
    cases h
    rw [FileIndex.bindingsOf_map]

theorem usagesOf_visit_bindingVisitor (h : (Visitor.visit x.bindingVisitor v).outcome = .ok fs) :
    usagesOf fs = [] := by
  rw [outcome_visit_bindingVisitor] at h
  cases given : Visitor.visit (Binding.visitor x.source (·.range x.source)) v with
  | error fault =>
    rw [given] at h
    cases h
  | ok bindings =>
    rw [given] at h
    cases h
    exact FileIndex.usagesOf_map_binding bindings

/-! ## The visitor of keys reports no bindings -/

theorem bindingsOf_of_uses {file : Path} (uses : ∀ f ∈ fs, f.Uses file) : bindingsOf fs = [] := by
  rw [List.eq_nil_iff_forall_not_mem]
  intro e member
  exact uses _ (FileIndex.mem_bindingsOf.mp member)

theorem drafts_ofProperty (h : (x.ofProperty n).outcome = .ok fs) : ∀ f ∈ fs, ∃ d, f = .draft d := by
  unfold ofProperty at h
  split at h
  · cases h; simp
  · rcases Attempt.outcome_bind_eq_ok.mp h with ⟨key, -, h⟩
    split at h
    · cases h; simp
    · cases h; simp

/-- A `register` call reports drafts only. -/
theorem drafts_ofRegister {args : List Node} (h : (x.ofRegister args).outcome = .ok fs) :
    ∀ f ∈ fs, ∃ d, f = .draft d := by
  unfold ofRegister at h
  split at h
  · cases h; simp
  · split at h
    · intro f member
      rcases Attempt.mem_of_outcome_gather_eq_ok h member with ⟨part, -, here, made, found⟩
      exact drafts_ofProperty made f found
    · split at h
      · cases h; simp
      · rcases Attempt.outcome_bind_eq_ok.mp h with ⟨key, -, h⟩
        split at h
        · cases h; simp
        · cases h; simp

theorem bindingsOf_of_drafts (drafts : ∀ f ∈ fs, ∃ d, f = .draft d) : bindingsOf fs = [] := by
  rw [List.eq_nil_iff_forall_not_mem]
  intro e member
  rcases drafts _ (FileIndex.mem_bindingsOf.mp member) with ⟨d, draft⟩
  cases draft

theorem bindingsOf_ofCall (h : (x.ofCall n).outcome = .ok fs) : bindingsOf fs = [] := by
  unfold ofCall at h
  split at h
  · cases h; rfl
  · rcases Attempt.outcome_bind_eq_ok.mp h with ⟨method, -, h⟩
    split at h
    · rcases Attempt.outcome_bind_eq_ok.mp h with ⟨container, -, h⟩
      split at h
      · split at h
        · exact bindingsOf_of_drafts (drafts_ofRegister h)
        · exact bindingsOf_of_uses (uses_ofResolve h)
      · cases h; rfl
    · cases h; rfl

theorem bindingsOf_visit_keyVisitor (h : (Visitor.visit x.keyVisitor v).outcome = .ok fs) :
    bindingsOf fs = [] := by
  unfold Visitor.visit at h
  split at h
  · rename_i hook _
    cases hook with
    | call => exact bindingsOf_ofCall h
    | memberAccess => exact bindingsOf_of_uses (uses_ofMember h)
    | method => exact bindingsOf_of_uses (uses_ofMethod h)
    | function => exact bindingsOf_of_uses (uses_ofParameters h)
    | importStatement => cases h; rfl
    | declarator => cases h; rfl
  · cases h; rfl

/-! ## Walks -/

theorem outcome_visitAll_eq_ok
    (h : (Visitor.visitAll [x.bindingVisitor, x.keyVisitor] v).outcome = .ok fs) :
    fs = x.bindingReport v ++ x.keyReport v ∧
      (Visitor.visit x.bindingVisitor v).outcome = .ok (x.bindingReport v) ∧
      (Visitor.visit x.keyVisitor v).outcome = .ok (x.keyReport v) := by
  rcases Attempt.outcome_gather_eq_ok h with ⟨rfl, each⟩
  rcases each x.bindingVisitor (by simp) with ⟨bindings, first⟩
  rcases each x.keyVisitor (by simp) with ⟨keys, second⟩
  refine ⟨?_, ?_, ?_⟩
  · simp only [List.flatMap_cons, List.flatMap_nil, List.append_nil, bindingReport, keyReport]
  · rw [bindingReport, Attempt.items_of_ok first, first]
  · rw [keyReport, Attempt.items_of_ok second, second]

/-- A walk that succeeds finds what the two visitors report, visit by visit. -/
theorem findings_eq_ok (h : (x.findings root).outcome = .ok fs) :
    (fs = (root.preorder none).flatMap fun v => x.bindingReport v ++ x.keyReport v) ∧
      ∀ v ∈ root.preorder none, (Visitor.visit x.bindingVisitor v).outcome = .ok (x.bindingReport v) ∧
        (Visitor.visit x.keyVisitor v).outcome = .ok (x.keyReport v) := by
  unfold findings Node.accept at h
  rw [Node.walk_eq_preorder] at h
  rcases Attempt.outcome_gather_eq_ok h with ⟨rfl, each⟩
  constructor
  · apply List.flatMap_congr
    intro v met
    rcases each v met with ⟨here, visited⟩
    rw [Attempt.items_of_ok visited]
    exact (outcome_visitAll_eq_ok visited).1
  · intro v met
    rcases each v met with ⟨here, visited⟩
    exact (outcome_visitAll_eq_ok visited).2

/-- Its bindings are reported by the first visitor. -/
theorem bindingsOf_findings (h : (x.findings root).outcome = .ok fs) :
    bindingsOf fs = (root.preorder none).flatMap fun v => bindingsOf (x.bindingReport v) := by
  rcases findings_eq_ok h with ⟨rfl, each⟩
  rw [FileIndex.bindingsOf_flatMap]
  -- at each visit the visitor of keys adds nothing to them
  apply List.flatMap_congr
  intro v met
  rw [FileIndex.bindingsOf_append, bindingsOf_visit_keyVisitor (each v met).2, List.append_nil]

/-- Its usages are reported by the second one. -/
theorem usagesOf_findings (h : (x.findings root).outcome = .ok fs) :
    usagesOf fs = (root.preorder none).flatMap fun v => usagesOf (x.keyReport v) := by
  rcases findings_eq_ok h with ⟨rfl, each⟩
  rw [FileIndex.usagesOf_flatMap]
  apply List.flatMap_congr
  intro v met
  rw [FileIndex.usagesOf_append, usagesOf_visit_bindingVisitor (each v met).1, List.nil_append]

end Indexer

/-! ## Indexed trees -/

/-- What is gathered without a failure is what the elements give, one after another. -/
theorem gather_eq_ok {f : α → Except ε (List β)} {g : α → List β} {l : List α}
    (each : ∀ a ∈ l, f a = .ok (g a)) : gather f l = .ok (l.flatMap g) := by
  induction l with
  | nil => rfl
  | cons a rest ih =>
    rw [List.forall_mem_cons] at each
    rw [gather, each.1, ih each.2]
    rfl

theorem Attempt.mem_mapM_iff {ε α β : Type} {f : α → Attempt ε β} {l : List α} {r : List β}
    (h : (l.mapM f).outcome = .ok r) {b : β} : b ∈ r ↔ ∃ a ∈ l, (f a).outcome = .ok b := by
  have related := outcome_mapM_eq_ok h
  clear h
  induction related with
  | nil => simp
  | cons given _ ih =>
    rw [List.mem_cons, List.exists_mem_cons_iff, given]
    exact or_congr (by simp [eq_comm]) ih

theorem Attempt.exists_mem_mapM {ε α β : Type} {f : α → Attempt ε β} {l : List α} {r : List β}
    (h : (l.mapM f).outcome = .ok r) {a : α} (listed : a ∈ l) : ∃ b ∈ r, (f a).outcome = .ok b := by
  have related := outcome_mapM_eq_ok h
  clear h
  induction related with
  | nil => cases listed
  | cons given _ ih =>
    rcases List.mem_cons.mp listed with rfl | listed
    · exact ⟨_, List.mem_cons_self, given⟩
    · rcases ih listed with ⟨b, member, made⟩
      exact ⟨b, List.mem_cons_of_mem _ member, made⟩

namespace FileIndex

/-- A tree is indexed by a walk; the drafts that it finds are defined with all bindings that it finds. -/
theorem ofTree_eq_ok_iff {files : FileTree} {x : Indexer} {root : Node} {index : FileIndex} :
    (ofTree files x root).outcome = .ok index ↔
      ∃ fs registrations, (x.findings root).outcome = .ok fs ∧
        ((draftsOf fs).mapM (x.define files (.ofBindings (bindingsOf fs)))).outcome = .ok registrations ∧
        index = { file := x.file, registrations, usages := usagesOf fs } := by
  unfold ofTree
  constructor
  · intro h
    rcases Attempt.outcome_bind_eq_ok.mp h with ⟨fs, found, h⟩
    rcases Attempt.outcome_bind_eq_ok.mp h with ⟨registrations, defined, h⟩
    cases h
    exact ⟨fs, registrations, Attempt.outcome_adapt_eq_ok.mp found, defined, rfl⟩
  · rintro ⟨fs, registrations, found, defined, rfl⟩
    apply Attempt.outcome_bind_eq_ok.mpr
    refine ⟨fs, Attempt.outcome_adapt_eq_ok.mpr found, ?_⟩
    exact Attempt.outcome_bind_eq_ok.mpr ⟨registrations, defined, rfl⟩

/-- The index holds a registration for each draft among the findings, and each usage among them. -/
structure Records (index : FileIndex) (source : Bytes) (fs : List Finding) : Prop where
  registrations : ∀ draft, Finding.draft draft ∈ fs → ∃ d ∈ index.registrations,
    d.key = draft.key ∧ d.registrationRange = some (draft.keyNode.range source)
  usages : ∀ u, Finding.usage u ∈ fs → u ∈ index.usages

/-- The index of a tree holds what the visits of the tree contribute. -/
theorem records_of_visit {files : FileTree} {x : Indexer} {root : Node} {index : FileIndex} {v : Node.Visit}
    (indexed : (ofTree files x root).outcome = .ok index) (met : v ∈ root.preorder none) :
    ∃ fs, (Visitor.visit x.keyVisitor v).outcome = .ok fs ∧ index.Records x.source fs := by
  obtain ⟨all, definitions, found, defined, rfl⟩ := ofTree_eq_ok_iff.mp indexed
  obtain ⟨listed, each⟩ := Indexer.findings_eq_ok found
  have among : ∀ f ∈ x.keyReport v, f ∈ all := by
    intro f reported
    rw [listed]
    exact List.mem_flatMap.mpr ⟨v, met, List.mem_append_right _ reported⟩
  refine ⟨x.keyReport v, (each v met).2, ?_, ?_⟩
  · intro draft reported
    have drafted : draft ∈ draftsOf all := mem_draftsOf.mpr (among _ reported)
    obtain ⟨d, member, made⟩ := Attempt.exists_mem_mapM defined drafted
    exact ⟨d, member, Indexer.define_eq_ok made⟩
  · intro u reported
    exact mem_usagesOf.mpr (among _ reported)

end FileIndex

end ContainerKeys
