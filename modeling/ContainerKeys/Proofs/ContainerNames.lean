import ContainerKeys.Proofs.Contributions
import ContainerKeys.Proofs.Findings
import Mathlib.Data.List.Flatten
import Mathlib.Data.List.Forall2

/-!
# Container names as a filter

The names that a container goes by decide which `register` calls, `resolve` calls and accesses to the cradle
are reported; no names at all let every one through. They decide nothing else: what a site reports is the
same whenever it is reported, and injected parameters are reported in any case.

* `Indexer.Site` — the sites where the receiver is looked at, with what they report.
* `Indexer.site_or_same` — at any other node the names do not matter.
* `FileIndex.narrowing_containers_filters` — fewer names give less of the same, two lists of names together
  what each of them gives.
-/

namespace ContainerKeys

open Code
open FileIndex (bindingsOf draftsOf usagesOf)

/-- Every receiver that goes by one of the names `few` is a container by the names `many`, too. No names
stand for any receiver. -/
def NamesWithin (few many : List String) : Prop :=
  many = [] ∨ few ≠ [] ∧ few ⊆ many

/-- The finding is an injected parameter. -/
def Finding.Injected : Finding → Prop
  | .usage u => u.kind = .injection
  | _ => False

namespace Indexer

/-- The indexer with these names for containers. -/
def naming (x : Indexer) (names : List String) : Indexer :=
  { x with containers := names }

variable {x : Indexer} {few many all names : List String} {receiver : Option Node} {v : Node.Visit}

/-! ## Receivers -/

/-- With names, the receiver has to go by one of them. -/
theorem isContainer_naming (given : names ≠ []) :
    (x.naming names).isContainer receiver =
      (fun name => decide (∃ c ∈ names, name = some c)) <$>
        Node.readName (·.receiverName x.source) receiver := by
  unfold isContainer
  rw [if_neg (show (x.naming names).containers ≠ [] from given)]
  show (Node.readName (·.receiverName x.source) receiver >>= _) = _
  cases Node.readName (·.receiverName x.source) receiver with
  | error fault => rfl
  | ok name =>
    cases name with
    | none => simp [bind, Except.bind, pure, Except.pure, Functor.map, Except.map]
    | some name =>
      simp [bind, Except.bind, pure, Except.pure, Functor.map, Except.map, naming]

theorem goes_by_of_isContainer (given : names ≠ []) (h : (x.naming names).isContainer receiver = .ok true) :
    ∃ c ∈ names, Node.readName (·.receiverName x.source) receiver = .ok (some c) := by
  rw [isContainer_naming given] at h
  cases read : Node.readName (·.receiverName x.source) receiver with
  | error fault =>
    rw [read] at h
    cases h
  | ok name =>
    rw [read] at h
    have goes : ∃ c ∈ names, name = some c := of_decide_eq_true (Except.ok.inj h)
    rcases goes with ⟨c, member, rfl⟩
    exact ⟨c, member, rfl⟩

theorem isContainer_of_mem {c : String} (member : c ∈ names)
    (read : Node.readName (·.receiverName x.source) receiver = .ok (some c)) :
    (x.naming names).isContainer receiver = .ok true := by
  rw [isContainer_naming (List.ne_nil_of_mem member), read]
  exact congrArg Except.ok (decide_eq_true ⟨c, member, rfl⟩)

theorem isContainer_of_within (within : NamesWithin few many)
    (h : (x.naming few).isContainer receiver = .ok true) :
    (x.naming many).isContainer receiver = .ok true := by
  rcases within with rfl | ⟨given, included⟩
  · rfl
  · rcases goes_by_of_isContainer given h with ⟨c, member, read⟩
    exact isContainer_of_mem (included member) read

/-- A receiver that goes by a name of two lists goes by a name of one of them. -/
theorem isContainer_of_union (given : few ≠ []) (union : ∀ c, c ∈ all ↔ c ∈ few ∨ c ∈ many)
    (h : (x.naming all).isContainer receiver = .ok true) :
    (x.naming few).isContainer receiver = .ok true ∨ (x.naming many).isContainer receiver = .ok true := by
  have some : all ≠ [] := by
    rcases List.exists_mem_of_ne_nil few given with ⟨c, member⟩
    exact List.ne_nil_of_mem ((union c).mpr (.inl member))
  rcases goes_by_of_isContainer some h with ⟨c, member, read⟩
  rcases (union c).mp member with member | member
  · exact .inl (isContainer_of_mem member read)
  · exact .inr (isContainer_of_mem member read)

/-! ## Sites -/

/-- What is reported where the receiver is a container; nothing where it is none. -/
def guarded (x : Indexer) (receiver : Option Node) (report : Except Utf8.Fault (List Finding)) :
    Except Utf8.Fault (List Finding) := do
  if ← x.isContainer receiver then report else return []

/-- The visit is at a site where the receiver is looked at, and this is reported if it is a container. -/
inductive Site (x : Indexer) (v : Node.Visit) : Option Node → Except Utf8.Fault (List Finding) → Prop
  | register {callee : Node} (call : v.node.kind = .call) (function : v.node.child? .function = some callee)
      (method : callee.memberName x.source = .ok (some "register")) :
      Site x v (callee.child? .object) (x.ofRegister v.node.arguments).outcome
  | resolve {callee : Node} (call : v.node.kind = .call) (function : v.node.child? .function = some callee)
      (method : callee.memberName x.source = .ok (some "resolve")) :
      Site x v (callee.child? .object) (x.ofResolve v.node.arguments)
  | cradle {object property : Node} (kind : v.node.kind = .memberAccess)
      (access : v.node.isCradleAccess x.source = .ok true) (cradle : v.node.child? .object = some object)
      (named : v.node.child? .property = some property) :
      Site x v (object.child? .object)
        (property.name x.source >>= fun key => .ok [x.usageAt property key .cradleAccess])

theorem hook_eq_memberAccess_iff {kind : Kind} :
    Hook.ofKind? kind = some .memberAccess ↔ kind = .memberAccess := by
  cases kind <;> simp [Hook.ofKind?, Kind.isFunction]

theorem visit_call (call : v.node.kind = .call) :
    (Visitor.visit x.keyVisitor v).outcome = (x.ofCall v.node).outcome := by
  unfold Visitor.visit
  rw [call]
  rfl

theorem visit_memberAccess (kind : v.node.kind = .memberAccess) :
    (Visitor.visit x.keyVisitor v).outcome = x.ofMember v.node := by
  unfold Visitor.visit
  rw [kind]
  rfl

/-- A call of `register` or `resolve` on a container is reported by its arguments. -/
theorem outcome_ofCall {n callee : Node} {method : String} (function : n.child? .function = some callee)
    (named : callee.memberName x.source = .ok (some method))
    (handled : method = "register" ∨ method = "resolve") :
    (x.ofCall n).outcome = x.guarded (callee.child? .object)
      (if method = "register" then (x.ofRegister n.arguments).outcome else x.ofResolve n.arguments) := by
  have looked : some method = some "register" ∨ some method = some "resolve" := by
    rcases handled with rfl | rfl
    · exact .inl rfl
    · exact .inr rfl
  rw [ofCall, function]
  show (Attempt.ofExcept (callee.memberName x.source) >>= _).outcome = _
  rw [Attempt.outcome_bind, Attempt.outcome_ofExcept, named]
  show (if some method = some "register" ∨ some method = some "resolve" then _ else _ : Attempt _ _).outcome = _
  rw [if_pos looked, Attempt.outcome_bind, Attempt.outcome_ofExcept, guarded]
  cases x.isContainer (callee.child? .object) with
  | error fault => rfl
  | ok container =>
    cases container with
    | false => rfl
    | true =>
      rcases handled with rfl | rfl
      · rfl
      · rfl

theorem outcome_ofMember {n object property : Node} (access : n.isCradleAccess x.source = .ok true)
    (cradle : n.child? .object = some object) (named : n.child? .property = some property) :
    x.ofMember n = x.guarded (object.child? .object)
      (property.name x.source >>= fun key => .ok [x.usageAt property key .cradleAccess]) := by
  rw [ofMember, access, cradle, named]
  rfl

/-- At a site the names decide about the receiver, and about nothing else. -/
theorem visit_of_site {report : Except Utf8.Fault (List Finding)} (site : x.Site v receiver report)
    (names : List String) :
    (Visitor.visit (x.naming names).keyVisitor v).outcome = (x.naming names).guarded receiver report := by
  cases site with
  | register call function method =>
    have reported := outcome_ofCall (x := x.naming names) function method (.inl rfl)
    rw [if_pos rfl] at reported
    exact (visit_call call).trans reported
  | resolve call function method =>
    have reported := outcome_ofCall (x := x.naming names) function method (.inr rfl)
    rw [if_neg (by decide)] at reported
    exact (visit_call call).trans reported
  | cradle kind access cradle named =>
    rw [visit_memberAccess kind]
    exact outcome_ofMember access cradle named

/-- A call of another method is not looked at further, whatever the names. -/
theorem outcome_ofCall_naming {n callee : Node} (function : n.child? .function = some callee)
    (other : ∀ method, callee.memberName x.source = .ok method →
      ¬ (method = some "register" ∨ method = some "resolve")) (names : List String) :
    ((x.naming names).ofCall n).outcome = (x.ofCall n).outcome := by
  rw [ofCall, ofCall, function]
  apply Attempt.outcome_bind_congr rfl
  intro method named
  rw [if_neg (other method named), if_neg (other method named)]

theorem ofCall_site_or_same (call : v.node.kind = .call) :
    (∃ receiver report, x.Site v receiver report) ∨
      ∀ names, ((x.naming names).ofCall v.node).outcome = (x.ofCall v.node).outcome := by
  cases function : v.node.child? .function with
  | none =>
    right
    intro names
    rw [ofCall, ofCall, function]
  | some callee =>
    by_cases register : callee.memberName x.source = .ok (some "register")
    · exact .inl ⟨_, _, .register call function register⟩
    · by_cases resolve : callee.memberName x.source = .ok (some "resolve")
      · exact .inl ⟨_, _, .resolve call function resolve⟩
      · right
        apply outcome_ofCall_naming function
        rintro method named (rfl | rfl)
        · exact register named
        · exact resolve named

theorem ofMember_site_or_same (kind : v.node.kind = .memberAccess) :
    (∃ receiver report, x.Site v receiver report) ∨
      ∀ names, (x.naming names).ofMember v.node = x.ofMember v.node := by
  by_cases given : v.node.isCradleAccess x.source = .ok true ∧
      ∃ object property, v.node.child? .object = some object ∧ v.node.child? .property = some property
  · rcases given with ⟨access, object, property, cradle, named⟩
    exact .inl ⟨_, _, .cradle kind access cradle named⟩
  · right
    intro names
    unfold ofMember
    show (v.node.isCradleAccess x.source >>= _) = (v.node.isCradleAccess x.source >>= _)
    cases access : v.node.isCradleAccess x.source with
    | error fault => rfl
    | ok isAccess =>
      cases isAccess with
      | false => rfl
      | true =>
        -- an access without both of its children is not looked at either
        cases cradle : v.node.child? .object with
        | none => rfl
        | some object =>
          cases named : v.node.child? .property with
          | none => rfl
          | some property => exact absurd ⟨access, object, property, cradle, named⟩ given

/-- A visit is at a site, or the names do not matter for what it reports. -/
theorem site_or_same (x : Indexer) (v : Node.Visit) :
    (∃ receiver report, x.Site v receiver report) ∨
      ∀ names, (Visitor.visit (x.naming names).keyVisitor v).outcome =
        (Visitor.visit x.keyVisitor v).outcome := by
  by_cases call : v.node.kind = .call
  · rcases ofCall_site_or_same (x := x) call with site | same
    · exact .inl site
    · right
      intro names
      rw [visit_call call, visit_call call, same names]
  · by_cases kind : v.node.kind = .memberAccess
    · rcases ofMember_site_or_same (x := x) kind with site | same
      · exact .inl site
      · right
        intro names
        rw [visit_memberAccess kind, visit_memberAccess kind, same names]
    · right
      intro names
      unfold Visitor.visit
      cases hook : Hook.ofKind? v.node.kind with
      | none => rfl
      | some hook' =>
        cases hook' with
        | call => exact absurd (hook_eq_call_iff.mp hook) call
        | memberAccess => exact absurd (hook_eq_memberAccess_iff.mp hook) kind
        | method => rfl
        | function => rfl
        | importStatement => rfl
        | declarator => rfl

/-! ## One visit -/

theorem guarded_eq_ok {report : Except Utf8.Fault (List Finding)} {fs : List Finding}
    (h : x.guarded receiver report = .ok fs) :
    x.isContainer receiver = .ok true ∧ report = .ok fs ∨ x.isContainer receiver = .ok false ∧ fs = [] := by
  rcases except_bind_eq_ok.mp h with ⟨container, known, h⟩
  cases container with
  | true => exact .inl ⟨known, h⟩
  | false =>
    cases h
    exact .inr ⟨known, rfl⟩

/-- No site reports an injected parameter. -/
theorem not_injected_of_site {report : Except Utf8.Fault (List Finding)} {fs : List Finding}
    (site : x.Site v receiver report) (h : report = .ok fs) : ∀ f ∈ fs, ¬ f.Injected := by
  cases site with
  | register =>
    intro f member
    rcases drafts_ofRegister h f member with ⟨d, rfl⟩
    exact id
  | resolve =>
    unfold ofResolve at h
    split at h
    · cases h; simp
    · rcases except_bind_eq_ok.mp h with ⟨key, -, h⟩
      split at h
      · cases h
        simp [usageAt, Finding.Injected]
      · cases h; simp
  | cradle =>
    rcases except_bind_eq_ok.mp h with ⟨key, -, h⟩
    cases h
    simp [usageAt, Finding.Injected]

/-- With fewer names a visit reports the same or nothing; injected parameters are reported in any case. -/
theorem report_within (within : NamesWithin few many) {fs gs : List Finding}
    (h : (Visitor.visit (x.naming few).keyVisitor v).outcome = .ok fs)
    (h' : (Visitor.visit (x.naming many).keyVisitor v).outcome = .ok gs) :
    fs = gs ∨ fs = [] ∧ ∀ g ∈ gs, ¬ g.Injected := by
  rcases x.site_or_same v with ⟨receiver, report, site⟩ | same
  · rw [visit_of_site site] at h h'
    rcases guarded_eq_ok h with ⟨container, given⟩ | ⟨-, rfl⟩
    · have container' := isContainer_of_within within container
      rcases guarded_eq_ok h' with ⟨-, given'⟩ | ⟨none, -⟩
      · exact .inl (Except.ok.inj (given.symm.trans given'))
      · cases container'.symm.trans none
    · rcases guarded_eq_ok h' with ⟨-, given'⟩ | ⟨-, rfl⟩
      · exact .inr ⟨rfl, not_injected_of_site site given'⟩
      · exact .inl rfl
  · rw [same] at h h'
    exact .inl (Except.ok.inj (h.symm.trans h'))

/-- With the names of two lists a visit reports what it reports with one of them. -/
theorem report_union (given : few ≠ []) (union : ∀ c, c ∈ all ↔ c ∈ few ∨ c ∈ many)
    {fs gs as : List Finding} (h : (Visitor.visit (x.naming few).keyVisitor v).outcome = .ok fs)
    (h' : (Visitor.visit (x.naming many).keyVisitor v).outcome = .ok gs)
    (h'' : (Visitor.visit (x.naming all).keyVisitor v).outcome = .ok as) : as = [] ∨ as = fs ∨ as = gs := by
  rcases x.site_or_same v with ⟨receiver, report, site⟩ | same
  · rw [visit_of_site site] at h h' h''
    rcases guarded_eq_ok h'' with ⟨container, made⟩ | ⟨-, rfl⟩
    · right
      rcases isContainer_of_union given union container with one | other
      · rcases guarded_eq_ok h with ⟨-, made'⟩ | ⟨none, -⟩
        · exact .inl (Except.ok.inj (made.symm.trans made'))
        · cases one.symm.trans none
      · rcases guarded_eq_ok h' with ⟨-, made'⟩ | ⟨none, -⟩
        · exact .inr (Except.ok.inj (made.symm.trans made'))
        · cases other.symm.trans none
    · exact .inl rfl
  · rw [same] at h h''
    exact .inr (.inl (Except.ok.inj (h''.symm.trans h)))

/-- The visit reports the finding. -/
def Reports (x : Indexer) (v : Node.Visit) (f : Finding) : Prop :=
  ∃ fs, (Visitor.visit x.keyVisitor v).outcome = .ok fs ∧ f ∈ fs

theorem reports_iff {fs : List Finding} (h : (Visitor.visit x.keyVisitor v).outcome = .ok fs) (f : Finding) :
    x.Reports v f ↔ f ∈ fs := by
  constructor
  · rintro ⟨gs, h', member⟩
    rw [h] at h'
    cases h'
    exact member
  · intro member
    exact ⟨fs, h, member⟩

theorem reports_union (given : few ≠ []) (given' : many ≠ []) (union : ∀ c, c ∈ all ↔ c ∈ few ∨ c ∈ many)
    {fs gs as : List Finding} (h : (Visitor.visit (x.naming few).keyVisitor v).outcome = .ok fs)
    (h' : (Visitor.visit (x.naming many).keyVisitor v).outcome = .ok gs)
    (h'' : (Visitor.visit (x.naming all).keyVisitor v).outcome = .ok as) (f : Finding) :
    f ∈ as ↔ f ∈ fs ∨ f ∈ gs := by
  have within : NamesWithin few all := .inr ⟨given, fun c member => (union c).mpr (.inl member)⟩
  have within' : NamesWithin many all := .inr ⟨given', fun c member => (union c).mpr (.inr member)⟩
  constructor
  · intro member
    rcases report_union given union h h' h'' with rfl | rfl | rfl
    · cases member
    · exact .inl member
    · exact .inr member
  · rintro (member | member)
    · rcases report_within within h h'' with rfl | ⟨rfl, -⟩
      · exact member
      · cases member
    · rcases report_within within' h' h'' with rfl | ⟨rfl, -⟩
      · exact member
      · cases member

/-! ## The whole walk -/

section

variable {root : Node} {fs gs as : List Finding}

/-- Bindings do not depend on the names. -/
theorem bindingsOf_findings_naming (h : ((x.naming few).findings root).outcome = .ok fs)
    (h' : ((x.naming many).findings root).outcome = .ok gs) : bindingsOf fs = bindingsOf gs := by
  rw [bindingsOf_findings h, bindingsOf_findings h']
  rfl

theorem draftsOf_findings_sublist (within : NamesWithin few many)
    (h : ((x.naming few).findings root).outcome = .ok fs)
    (h' : ((x.naming many).findings root).outcome = .ok gs) : (draftsOf fs).Sublist (draftsOf gs) := by
  rw [draftsOf_findings h, draftsOf_findings h']
  apply List.Sublist.flatMap_right
  intro v met
  have visited := ((findings_eq_ok h).2 v met).2
  have visited' := ((findings_eq_ok h').2 v met).2
  rw [← draftsOf_visit_keyVisitor visited, ← draftsOf_visit_keyVisitor visited']
  rcases report_within within visited visited' with same | ⟨nothing, -⟩
  · rw [same]
  · rw [nothing]
    exact List.nil_sublist _

theorem usagesOf_findings_sublist (within : NamesWithin few many)
    (h : ((x.naming few).findings root).outcome = .ok fs)
    (h' : ((x.naming many).findings root).outcome = .ok gs) : (usagesOf fs).Sublist (usagesOf gs) := by
  rw [usagesOf_findings h, usagesOf_findings h']
  apply List.Sublist.flatMap_right
  intro v met
  rcases report_within within ((findings_eq_ok h).2 v met).2 ((findings_eq_ok h').2 v met).2 with
    same | ⟨nothing, -⟩
  · rw [same]
  · rw [nothing]
    exact List.nil_sublist _

theorem injections_findings_eq (within : NamesWithin few many)
    (h : ((x.naming few).findings root).outcome = .ok fs)
    (h' : ((x.naming many).findings root).outcome = .ok gs) :
    (usagesOf fs).filter (·.kind = .injection) = (usagesOf gs).filter (·.kind = .injection) := by
  rw [usagesOf_findings h, usagesOf_findings h', List.filter_flatMap, List.filter_flatMap]
  apply List.flatMap_congr
  intro v met
  rcases report_within within ((findings_eq_ok h).2 v met).2 ((findings_eq_ok h').2 v met).2 with
    same | ⟨nothing, sites⟩
  · rw [same]
  · have none : (usagesOf ((x.naming many).keyReport v)).filter (·.kind = .injection) = [] := by
      rw [List.filter_eq_nil_iff]
      intro u used
      have other := sites _ (FileIndex.mem_usagesOf.mp used)
      simpa [Finding.Injected] using other
    rw [nothing, none]
    rfl

/-- What a walk finds with the names of two lists is what it finds with one of them. -/
theorem mem_findings_union (given : few ≠ []) (given' : many ≠ [])
    (union : ∀ c, c ∈ all ↔ c ∈ few ∨ c ∈ many) (h : ((x.naming few).findings root).outcome = .ok fs)
    (h' : ((x.naming many).findings root).outcome = .ok gs)
    (h'' : ((x.naming all).findings root).outcome = .ok as) (f : Finding) :
    f ∈ as ↔ f ∈ fs ∨ f ∈ gs := by
  rcases findings_eq_ok h with ⟨rfl, each⟩
  rcases findings_eq_ok h' with ⟨rfl, each'⟩
  rcases findings_eq_ok h'' with ⟨rfl, each''⟩
  simp only [List.mem_flatMap, List.mem_append, ← exists_or, ← and_or_left]
  apply exists_congr
  intro v
  apply and_congr_right
  intro met
  rw [reports_union given given' union (each v met).2 (each' v met).2 (each'' v met).2 f]
  -- the same bindings are reported in all three walks
  have same : f ∈ (x.naming few).bindingReport v ↔ f ∈ (x.naming all).bindingReport v := Iff.rfl
  have same' : f ∈ (x.naming many).bindingReport v ↔ f ∈ (x.naming all).bindingReport v := Iff.rfl
  tauto

end

end Indexer

/-! ## Indexes -/

/-- Results of the elements of a sublist are a sublist of the results. -/
theorem sublist_of_forall₂ {R : α → β → Prop} (unique : ∀ a b b', R a b → R a b' → b = b')
    {l l' : List α} {r r' : List β} (sub : l.Sublist l') (h : List.Forall₂ R l r)
    (h' : List.Forall₂ R l' r') : r.Sublist r' := by
  induction sub generalizing r r' with
  | slnil =>
    cases h
    exact List.nil_sublist _
  | cons a _ ih =>
    cases h' with
    | cons _ later => exact (ih h later).cons _
  | cons_cons a _ ih =>
    cases h with
    | cons here later =>
      cases h' with
      | cons here' later' =>
        rw [unique a _ _ here here']
        exact (ih later later').cons_cons _

namespace FileIndex

/-- Fewer names for containers take registrations and usages away and change nothing about the others;
injected parameters stay. With the names of two lists a site is reported just if it is reported with one of
them, and so is each registration and usage. -/
theorem narrowing_containers_filters (files : FileTree) (x : Indexer) (root : Node)
    (few many : List String) :
    (NamesWithin few many → ∀ narrow wide : FileIndex,
      (ofTree files (x.naming few) root).outcome = .ok narrow →
      (ofTree files (x.naming many) root).outcome = .ok wide →
        narrow.registrations.Sublist wide.registrations ∧ narrow.usages.Sublist wide.usages ∧
        narrow.usages.filter (·.kind = .injection) = wide.usages.filter (·.kind = .injection)) ∧
    (few ≠ [] → many ≠ [] → ∀ all, (∀ c, c ∈ all ↔ c ∈ few ∨ c ∈ many) → ∀ one other both : FileIndex,
      (ofTree files (x.naming few) root).outcome = .ok one →
      (ofTree files (x.naming many) root).outcome = .ok other →
      (ofTree files (x.naming all) root).outcome = .ok both →
        (∀ v ∈ root.walk, ∀ f, (x.naming all).Reports v f ↔
          (x.naming few).Reports v f ∨ (x.naming many).Reports v f) ∧
        (∀ d, d ∈ both.registrations ↔ d ∈ one.registrations ∨ d ∈ other.registrations) ∧
        ∀ u, u ∈ both.usages ↔ u ∈ one.usages ∨ u ∈ other.usages) := by
  constructor
  · intro within narrow wide indexed indexed'
    rcases ofTree_eq_ok_iff.mp indexed with ⟨fs, definitions, found, defined, rfl⟩
    rcases ofTree_eq_ok_iff.mp indexed' with ⟨gs, definitions', found', defined', rfl⟩
    refine ⟨?_, Indexer.usagesOf_findings_sublist within found found',
      Indexer.injections_findings_eq within found found'⟩
    -- the same drafts are defined with the same bindings
    rw [← Indexer.bindingsOf_findings_naming found found'] at defined'
    apply sublist_of_forall₂ _ (Indexer.draftsOf_findings_sublist within found found')
      (Attempt.outcome_mapM_eq_ok defined) (Attempt.outcome_mapM_eq_ok defined')
    intro draft d d' made made'
    exact Except.ok.inj (made.symm.trans made')
  · intro given given' all union one other both indexed indexed' indexed''
    rcases ofTree_eq_ok_iff.mp indexed with ⟨fs, definitions, found, defined, rfl⟩
    rcases ofTree_eq_ok_iff.mp indexed' with ⟨gs, definitions', found', defined', rfl⟩
    rcases ofTree_eq_ok_iff.mp indexed'' with ⟨as, definitions'', found'', defined'', rfl⟩
    have either := Indexer.mem_findings_union given given' union found found' found''
    refine ⟨?_, ?_, ?_⟩
    · intro v met f
      rw [Node.walk_eq_preorder] at met
      have visited := ((Indexer.findings_eq_ok found).2 v met).2
      have visited' := ((Indexer.findings_eq_ok found').2 v met).2
      have visited'' := ((Indexer.findings_eq_ok found'').2 v met).2
      rw [Indexer.reports_iff visited, Indexer.reports_iff visited', Indexer.reports_iff visited'']
      exact Indexer.reports_union given given' union visited visited' visited'' f
    · intro d
      rw [Indexer.bindingsOf_findings_naming found found''] at defined
      rw [Indexer.bindingsOf_findings_naming found' found''] at defined'
      rw [Attempt.mem_mapM_iff defined, Attempt.mem_mapM_iff defined', Attempt.mem_mapM_iff defined'']
      simp only [mem_draftsOf, either, or_and_right, exists_or]
      rfl
    · intro u
      simp only [mem_usagesOf, either]

/-- A file with a registration on one container, a `resolve` call on another, and an injected parameter. -/
def twoContainers : Indexer where
  file := "/w/a.js"
  source := Utf8.encode "app.register('a',1);container.resolve('a');function f({a}){}"
  containers := []

/-- Its tree. -/
def twoContainersTree : Node :=
  .mk { kind := .other "program", start := 0, stop := 60 } [
    .mk { kind := .expressionStatement, start := 0, stop := 20 } [
      .mk { kind := .call, start := 0, stop := 19 } [
        .mk { kind := .memberAccess, start := 0, stop := 12, field := some .function } [
          .mk { kind := .identifier, start := 0, stop := 3, field := some .object } [],
          .mk { kind := .propertyIdentifier, start := 4, stop := 12, field := some .property } []],
        .mk { kind := .other "arguments", start := 12, stop := 19, field := some .arguments } [
          .mk { kind := .string, start := 13, stop := 16 } [],
          .mk { kind := .other "number", start := 17, stop := 18 } []]]],
    .mk { kind := .expressionStatement, start := 20, stop := 43 } [
      .mk { kind := .call, start := 20, stop := 42 } [
        .mk { kind := .memberAccess, start := 20, stop := 37, field := some .function } [
          .mk { kind := .identifier, start := 20, stop := 29, field := some .object } [],
          .mk { kind := .propertyIdentifier, start := 30, stop := 37, field := some .property } []],
        .mk { kind := .other "arguments", start := 37, stop := 42, field := some .arguments } [
          .mk { kind := .string, start := 38, stop := 41 } []]]],
    .mk { kind := .functionDeclaration, start := 43, stop := 60 } [
      .mk { kind := .identifier, start := 52, stop := 53, field := some .name } [],
      .mk { kind := .other "formal_parameters", start := 53, stop := 58, field := some .parameters } [
        .mk { kind := .objectPattern, start := 54, stop := 57 } [
          .mk { kind := .shorthandPattern, start := 55, stop := 56 } []]],
      .mk { kind := .other "statement_block", start := 58, stop := 60, field := some (.other "body") } []]]

/-- The file tree without entries. -/
def noFiles : FileTree := { root := .folder [], cwd := some "/w" }

/-- The registration on the first container. -/
def registeredOnApp : Definition :=
  ⟨"a", .asValue, none, "/w/a.js", none, some ⟨⟨0, 17⟩, ⟨0, 18⟩⟩, "/w/a.js", some ⟨⟨0, 13⟩, ⟨0, 16⟩⟩⟩

/-- The `resolve` call on the second container. -/
def resolvedOnContainer : Usage := ⟨"/w/a.js", ⟨⟨0, 38⟩, ⟨0, 41⟩⟩, "a", .resolveCall⟩

/-- The injected parameter. -/
def injectedByName : Usage := ⟨"/w/a.js", ⟨⟨0, 55⟩, ⟨0, 56⟩⟩, "a", .injection⟩

theorem ofTree_twoContainers :
    (ofTree noFiles (twoContainers.naming ["container"]) twoContainersTree).outcome =
        .ok { file := "/w/a.js", usages := [resolvedOnContainer, injectedByName] } ∧
      (ofTree noFiles (twoContainers.naming ["app"]) twoContainersTree).outcome =
        .ok { file := "/w/a.js", registrations := [registeredOnApp], usages := [injectedByName] } ∧
      (ofTree noFiles (twoContainers.naming ["app", "container"]) twoContainersTree).outcome =
        .ok { file := "/w/a.js", registrations := [registeredOnApp],
              usages := [resolvedOnContainer, injectedByName] } := by
  refine ⟨?_, ?_, ?_⟩
  · decide +kernel
  · decide +kernel
  · decide +kernel

/-- One name leaves out the registration and keeps the two usages; both names give what each of them gives. -/
theorem narrowing_containers_filters_two :
    NamesWithin ["container"] ["app", "container"] ∧
      ∃ narrow other wide : FileIndex,
        (ofTree noFiles (twoContainers.naming ["container"]) twoContainersTree).outcome = .ok narrow ∧
        (ofTree noFiles (twoContainers.naming ["app"]) twoContainersTree).outcome = .ok other ∧
        (ofTree noFiles (twoContainers.naming ["app", "container"]) twoContainersTree).outcome = .ok wide ∧
        narrow.registrations.Sublist wide.registrations ∧ narrow.usages.Sublist wide.usages ∧
        narrow.usages.filter (·.kind = .injection) = wide.usages.filter (·.kind = .injection) ∧
        (∀ d, d ∈ wide.registrations ↔ d ∈ other.registrations ∨ d ∈ narrow.registrations) ∧
        registeredOnApp ∈ wide.registrations ∧ registeredOnApp ∉ narrow.registrations := by
  have within : NamesWithin ["container"] ["app", "container"] := .inr ⟨by decide, by decide⟩
  have union : ∀ c, c ∈ ["app", "container"] ↔ c ∈ ["app"] ∨ c ∈ ["container"] := by simp
  rcases ofTree_twoContainers with ⟨narrow, other, wide⟩
  rcases (narrowing_containers_filters noFiles twoContainers twoContainersTree _ _).1 within _ _ narrow wide with
    ⟨registrations, usages, injections⟩
  rcases (narrowing_containers_filters noFiles twoContainers twoContainersTree _ _).2 (by decide) (by decide) _
    union _ _ _ other narrow wide with ⟨-, either, -⟩
  exact ⟨within, _, _, _, narrow, other, wide, registrations, usages, injections, either,
    List.mem_singleton_self _, List.not_mem_nil⟩

end FileIndex

end ContainerKeys
