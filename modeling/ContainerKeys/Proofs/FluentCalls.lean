import ContainerKeys.Proofs.Comments
import ContainerKeys.Proofs.Likeness
import ContainerKeys.Proofs.LiteralKeys
import Mathlib.Data.List.Basic

/-!
# Fluent chains of calls

Calls can be made on the results of calls, in parentheses or not, and all of them are made on what stands at
the root of the chain. The search for the receiver goes from the outside in, one link at a time, and ends at
the root. Comments do not stop it, but for one kind: where a comment in the signs of markup stands first in
parentheses, the search takes it for what they enclose.

* `Node.Fluent` — a chain of member calls and parentheses, with its links.
* `Node.Veiled` — parentheses in which the search stops.
* `Node.Fluent.receiverName_eq`, `Node.Fluent.receiverName_of_veiled` — the receiver of a chain.
* `Indexer.callsOnContainer_iff_of_fluent` — the calls of a chain that are made on a container.
* `FileIndex.fluent_calls_recognised_iff` — the calls of a chain in the index of a file.
-/

namespace ContainerKeys

open Code

namespace Code

namespace Node

/-! ## Links -/

/-- The node calls a member of `object`. -/
structure CallsMemberOf (n object : Node) : Prop where
  kind : n.kind = .call
  /-- Both the access to the member and the object are nodes of their own. -/
  member : ∃ callee, n.child? .function = some callee ∧ callee.label.named = true ∧
    callee.kind = .memberAccess ∧ callee.child? .object = some object ∧ object.label.named = true

variable {source : Bytes} {r n call object inside : Node} {links outer inner : List Node}

theorem CallsMemberOf.receiverName_eq (calls : n.CallsMemberOf object) :
    n.receiverName source = object.receiverName source := by
  obtain ⟨kind, callee, function, -, member, child, -⟩ := calls
  have made : n.calledOn = some object := by simp [calledOn, function, member, child]
  rw [Node.receiverName_eq, kind, made]
  rfl

theorem Encloses.receiverName_eq (encloses : n.Encloses inside) (unveiled : ¬ n.Veiled) :
    n.receiverName source = inside.receiverName source := by
  rw [Node.receiverName_eq, encloses.kind, encloses.head?_parts unveiled]
  rfl

/-- The search takes the comment for what is enclosed, and a comment has no name. -/
theorem Veiled.receiverName_eq (veiled : n.Veiled) : n.receiverName source = .ok none := by
  obtain ⟨c, first, markup⟩ := veiled.exists_comment
  have nameless : c.receiverName source = .ok none := by
    rw [Node.receiverName_eq, markup]
    rfl
  rw [Node.receiverName_eq, veiled.1, first]
  exact nameless

/-! ## Chains -/

/-- The node is a chain of member calls and parentheses on `r`, with these links from the outside in. -/
inductive Fluent (r : Node) : Node → List Node → Prop
  | root : Fluent r r []
  | call {n object : Node} {links : List Node} (calls : n.CallsMemberOf object)
      (inner : Fluent r object links) : Fluent r n (n :: links)
  | parens {n inside : Node} {links : List Node} (encloses : n.Encloses inside)
      (inner : Fluent r inside links) : Fluent r n (n :: links)

namespace Fluent

/-- The receiver of a chain is that of its root, if the search is not stopped on the way. -/
theorem receiverName_eq (chain : Fluent r n links) (unveiled : ∀ p ∈ links, ¬ p.Veiled) :
    n.receiverName source = r.receiverName source := by
  induction chain with
  | root => rfl
  | call calls _ ih =>
    rw [List.forall_mem_cons] at unveiled
    rw [calls.receiverName_eq, ih unveiled.2]
  | parens encloses _ ih =>
    rw [List.forall_mem_cons] at unveiled
    rw [encloses.receiverName_eq unveiled.1, ih unveiled.2]

/-- A chain with veiled parentheses has no receiver, whatever stands at its root. -/
theorem receiverName_of_veiled (chain : Fluent r n links) (veiled : ∃ p ∈ links, p.Veiled) :
    n.receiverName source = .ok none := by
  induction chain with
  | root =>
    obtain ⟨p, member, -⟩ := veiled
    cases member
  | call calls _ ih =>
    rw [List.exists_mem_cons_iff] at veiled
    rw [calls.receiverName_eq]
    exact ih (veiled.resolve_left (not_veiled_of_call calls.kind))
  | @parens n inside links encloses _ ih =>
    rw [List.exists_mem_cons_iff] at veiled
    by_cases here : n.Veiled
    · exact here.receiverName_eq
    · rw [encloses.receiverName_eq here]
      exact ih (veiled.resolve_left here)

/-- A receiver gets lost just in veiled parentheses. -/
theorem receiverName_eq_iff (chain : Fluent r n links) :
    n.receiverName source = r.receiverName source ↔
      (∀ p ∈ links, ¬ p.Veiled) ∨ r.receiverName source = .ok none := by
  by_cases veiled : ∃ p ∈ links, p.Veiled
  · rw [chain.receiverName_of_veiled veiled, eq_comm]
    refine (or_iff_right ?_).symm
    intro unveiled
    obtain ⟨p, member, here⟩ := veiled
    exact unveiled p member here
  · have unveiled : ∀ p ∈ links, ¬ p.Veiled := fun p member here => veiled ⟨p, member, here⟩
    exact iff_of_true (chain.receiverName_eq unveiled) (.inl unveiled)

/-- The links from one of them on are a chain themselves. -/
theorem suffix (chain : Fluent r n (outer ++ call :: inner)) : Fluent r call (call :: inner) := by
  induction outer generalizing n with
  | nil =>
    cases chain with
    | call calls rest => exact .call calls rest
    | parens encloses rest => exact .parens encloses rest
  | cons p outer ih =>
    cases chain with
    | call _ rest => exact ih rest
    | parens _ rest => exact ih rest

/-- What a call of a chain is made on is the chain of the links inside it. -/
theorem exists_object (chain : Fluent r call (call :: inner)) (kind : call.kind = .call) :
    ∃ object, call.CallsMemberOf object ∧ Fluent r object inner := by
  cases chain with
  | call calls rest => exact ⟨_, calls, rest⟩
  | parens encloses _ => cases kind.symm.trans encloses.kind

end Fluent

/-! ## Chains in a tree -/

theorem mem_namedChildren_of_child? {c : Node} {field : Field} (child : n.child? field = some c)
    (named : c.label.named = true) : c ∈ n.namedChildren :=
  List.mem_filter.mpr ⟨List.mem_of_find?_eq_some child, named⟩

theorem CallsMemberOf.within (calls : n.CallsMemberOf object) : object.Within n := by
  obtain ⟨-, callee, function, named, -, child, named'⟩ := calls
  have inner : object.Within callee := .single (mem_namedChildren_of_child? child named')
  exact inner.tail (mem_namedChildren_of_child? function named)

theorem Encloses.within (encloses : n.Encloses inside) : inside.Within n :=
  .single encloses.mem

/-- A walk that meets a chain meets all of its links. -/
theorem Fluent.within (chain : Fluent r n links) : ∀ p ∈ links, p.Within n := by
  induction chain with
  | root => simp
  | call calls _ ih =>
    rw [List.forall_mem_cons]
    exact ⟨.refl, fun p member => (ih p member).trans calls.within⟩
  | parens encloses _ ih =>
    rw [List.forall_mem_cons]
    exact ⟨.refl, fun p member => (ih p member).trans encloses.within⟩

end Node

end Code

/-! ## Calls on containers -/

namespace Indexer

/-- The node is a call of the method. -/
def CallsMethod (source : Bytes) (n : Node) (method : String) : Prop :=
  n.kind = .call ∧ ∃ callee, n.child? .function = some callee ∧ callee.memberName source = .ok (some method)

/-- What the arguments of a call of `register` or `resolve` spell out. -/
def spelledOut (x : Indexer) (n : Node) (method : String) : Except Utf8.Fault (List Finding) :=
  if method = "register" then (x.ofRegister n.arguments).outcome else x.ofResolve n.arguments

variable {x : Indexer} {r n call object : Node} {links inner : List Node} {name method : String}

theorem isContainer_of_unveiled (given : name ∈ x.containers)
    (rooted : r.receiverName x.source = .ok (some name)) (chain : r.Fluent object links)
    (unveiled : ∀ p ∈ links, ¬ p.Veiled) : x.isContainer (some object) = .ok true :=
  isContainer_of_mem (x := x) given ((chain.receiverName_eq unveiled).trans rooted)

theorem isContainer_of_veiled (given : name ∈ x.containers) (chain : r.Fluent object links)
    (veiled : ∃ p ∈ links, p.Veiled) : x.isContainer (some object) = .ok false := by
  have nameless : Node.readName (·.receiverName x.source) (some object) = .ok none :=
    chain.receiverName_of_veiled veiled
  have read : x.isContainer (some object) = _ := isContainer_naming (x := x) (List.ne_nil_of_mem given)
  rw [read, nameless]
  simp [Functor.map, Except.map]

/-- A call of a method along a chain, with what it is made on. -/
theorem exists_object_of_fluent (chain : r.Fluent call (call :: inner))
    (calls : CallsMethod x.source call method) :
    ∃ callee object, call.child? .function = some callee ∧ callee.memberName x.source = .ok (some method) ∧
      callee.child? .object = some object ∧ r.Fluent object inner := by
  obtain ⟨kind, callee, function, named⟩ := calls
  obtain ⟨object, ⟨-, callee', function', -, -, child, -⟩, rest⟩ := chain.exists_object kind
  cases function.symm.trans function'
  exact ⟨callee, object, function, named, child, rest⟩

/-- On a chain whose root goes by the name of a container, what a call is made on is a container just if no
parentheses inside the call are veiled. -/
theorem callsOnContainer_iff_of_fluent (given : name ∈ x.containers)
    (rooted : r.receiverName x.source = .ok (some name)) (chain : r.Fluent call (call :: inner))
    (calls : CallsMethod x.source call method) :
    x.CallsOnContainer call method ↔ ∀ p ∈ inner, ¬ p.Veiled := by
  obtain ⟨callee, object, function, named, child, rest⟩ := exists_object_of_fluent chain calls
  constructor
  · rintro ⟨-, callee', function', -, container⟩ p member veiled
    cases function.symm.trans function'
    rw [child, isContainer_of_veiled given rest ⟨p, member, veiled⟩] at container
    cases container
  · intro unveiled
    refine ⟨calls.1, callee, function, named, ?_⟩
    rw [child]
    exact isContainer_of_unveiled given rooted rest unveiled

/-- A call on a container contributes what its arguments spell out. -/
theorem visit_of_callsOnContainer (calls : x.CallsOnContainer call method)
    (handled : method = "register" ∨ method = "resolve") (parent : Option Kind) :
    (Visitor.visit x.keyVisitor ⟨call, parent⟩).outcome = x.spelledOut call method := by
  rw [visit_call calls.1, outcome_ofCall_of_calls calls handled, spelledOut]

/-- A call behind veiled parentheses contributes nothing. -/
theorem visit_of_veiled (given : name ∈ x.containers) (chain : r.Fluent call (call :: inner))
    (calls : CallsMethod x.source call method) (handled : method = "register" ∨ method = "resolve")
    (veiled : ∃ p ∈ inner, p.Veiled) (parent : Option Kind) :
    (Visitor.visit x.keyVisitor ⟨call, parent⟩).outcome = .ok [] := by
  obtain ⟨callee, object, function, named, child, rest⟩ := exists_object_of_fluent chain calls
  rw [visit_call calls.1, outcome_ofCall function named handled, child, guarded,
    isContainer_of_veiled given rest veiled]
  rfl

end Indexer

/-! ## Indexes -/

namespace FileIndex

variable {r n : Node} {links : List Node}

/-- The receiver of a chain of member calls and parentheses is that of its root, unless the root has a
receiver and some parentheses of the chain are veiled. So if the root goes by the name of a container, then a
call of `register` or `resolve` along the chain is seen to be made on a container just if no parentheses
inside it are veiled. Then the index of a file with the chain holds what the arguments of the call spell out;
otherwise the call contributes nothing. -/
theorem fluent_calls_recognised_iff (x : Indexer) (chain : r.Fluent n links) :
    (n.receiverName x.source = r.receiverName x.source ↔
      (∀ p ∈ links, ¬ p.Veiled) ∨ r.receiverName x.source = .ok none) ∧
    ∀ name ∈ x.containers, r.receiverName x.source = .ok (some name) →
      ∀ outer call inner method, links = outer ++ call :: inner →
        Indexer.CallsMethod x.source call method → method = "register" ∨ method = "resolve" →
          (x.CallsOnContainer call method ↔ ∀ p ∈ inner, ¬ p.Veiled) ∧
          ((∀ p ∈ inner, ¬ p.Veiled) →
            (∀ parent, (Visitor.visit x.keyVisitor ⟨call, parent⟩).outcome = x.spelledOut call method) ∧
            ∀ files root index, n.Within root → (ofTree files x root).outcome = .ok index →
              ∃ fs, x.spelledOut call method = .ok fs ∧ index.Records x.source fs) ∧
          ((∃ p ∈ inner, p.Veiled) →
            ∀ parent, (Visitor.visit x.keyVisitor ⟨call, parent⟩).outcome = .ok []) := by
  refine ⟨chain.receiverName_eq_iff, ?_⟩
  rintro name given rooted outer call inner method rfl calls handled
  have decides := Indexer.callsOnContainer_iff_of_fluent given rooted chain.suffix calls
  refine ⟨decides, ?_, Indexer.visit_of_veiled given chain.suffix calls handled⟩
  intro unveiled
  have visited := Indexer.visit_of_callsOnContainer (decides.mpr unveiled) handled
  refine ⟨visited, ?_⟩
  intro files root index met indexed
  -- the walk meets the chain, so it meets the call
  have met : call.Within root := (chain.within call (by simp)).trans met
  obtain ⟨v, listed, rfl⟩ := (Node.mem_preorder_iff none).mpr met
  obtain ⟨fs, reported, records⟩ := records_of_visit indexed listed
  exact ⟨fs, (visited v.parent).symm.trans reported, records⟩

/-! ## A chain with comments -/

/-- A file with a chain of two calls. -/
def wrappedChain : Indexer where
  file := "/w/a.js"
  source := Utf8.encode "((/*x*/c).register('k',1)/*y*/).resolve('k');"
  containers := ["c"]

/-- The root of the chain. -/
def chainRoot : Node :=
  .mk { kind := .identifier, start := 7, stop := 8 } []

/-- The root in parentheses, behind a comment. -/
def chainRootWrapped : Node :=
  .mk { kind := .parenthesized, start := 1, stop := 9, field := some .object } [
    .mk { kind := .comment, start := 2, stop := 7 } [], chainRoot]

/-- The inner call. -/
def chainRegister : Node :=
  .mk { kind := .call, start := 1, stop := 25 } [
    .mk { kind := .memberAccess, start := 1, stop := 18, field := some .function } [
      chainRootWrapped,
      .mk { kind := .propertyIdentifier, start := 10, stop := 18, field := some .property } []],
    .mk { kind := .other "arguments", start := 18, stop := 25, field := some .arguments } [
      .mk { kind := .string, start := 19, stop := 22 } [],
      .mk { kind := .other "number", start := 23, stop := 24 } []]]

/-- The inner call in parentheses, before a comment. -/
def chainRegisterWrapped : Node :=
  .mk { kind := .parenthesized, start := 0, stop := 31, field := some .object } [
    chainRegister, .mk { kind := .comment, start := 25, stop := 30 } []]

/-- The outer call. -/
def chainResolve : Node :=
  .mk { kind := .call, start := 0, stop := 44 } [
    .mk { kind := .memberAccess, start := 0, stop := 39, field := some .function } [
      chainRegisterWrapped,
      .mk { kind := .propertyIdentifier, start := 32, stop := 39, field := some .property } []],
    .mk { kind := .other "arguments", start := 39, stop := 44, field := some .arguments } [
      .mk { kind := .string, start := 40, stop := 43 } []]]

theorem fluent_chainResolve : chainRoot.Fluent chainResolve
    [chainResolve, chainRegisterWrapped, chainRegister, chainRootWrapped] := by
  have root : chainRootWrapped.Encloses chainRoot := ⟨rfl, rfl⟩
  have register : chainRegisterWrapped.Encloses chainRegister := ⟨rfl, rfl⟩
  exact .call ⟨rfl, _, rfl, rfl, rfl, rfl, rfl⟩
    (.parens register (.call ⟨rfl, _, rfl, rfl, rfl, rfl, rfl⟩ (.parens root .root)))

theorem read_wrappedChain :
    chainRoot.receiverName wrappedChain.source = .ok (some "c") ∧
      Indexer.CallsMethod wrappedChain.source chainRegister "register" ∧
      Indexer.CallsMethod wrappedChain.source chainResolve "resolve" := by
  refine ⟨?_, ⟨rfl, _, rfl, ?_⟩, ⟨rfl, _, rfl, ?_⟩⟩
  · decide +kernel
  · decide +kernel
  · decide +kernel

/-- Its tree. -/
def wrappedChainTree : Node :=
  .mk { kind := .other "program", start := 0, stop := 45 } [
    .mk { kind := .expressionStatement, start := 0, stop := 45 } [chainResolve]]

/-- Its index. -/
def wrappedChainIndex : FileIndex where
  file := "/w/a.js"
  registrations := [⟨"k", .asValue, none, "/w/a.js", none, some ⟨⟨0, 23⟩, ⟨0, 24⟩⟩, "/w/a.js",
    some ⟨⟨0, 19⟩, ⟨0, 22⟩⟩⟩]
  usages := [⟨"/w/a.js", ⟨⟨0, 40⟩, ⟨0, 43⟩⟩, "k", .resolveCall⟩]

theorem ofTree_wrappedChain :
    (ofTree noFiles wrappedChain wrappedChainTree).outcome = .ok wrappedChainIndex := by
  decide +kernel

/-- Both calls of the chain are recognised, and the index holds what they spell out. -/
theorem fluent_calls_recognised_wrapped :
    chainRoot.Fluent chainResolve [chainResolve, chainRegisterWrapped, chainRegister, chainRootWrapped] ∧
      chainResolve.receiverName wrappedChain.source = .ok (some "c") ∧
      wrappedChain.CallsOnContainer chainRegister "register" ∧
      wrappedChain.CallsOnContainer chainResolve "resolve" ∧
      chainResolve.Within wrappedChainTree ∧
      (ofTree noFiles wrappedChain wrappedChainTree).outcome = .ok wrappedChainIndex ∧
      (∃ fs, wrappedChain.spelledOut chainRegister "register" = .ok fs ∧
        wrappedChainIndex.Records wrappedChain.source fs) ∧
      ∃ fs, wrappedChain.spelledOut chainResolve "resolve" = .ok fs ∧
        wrappedChainIndex.Records wrappedChain.source fs := by
  obtain ⟨rooted, register, resolve⟩ := read_wrappedChain
  have met : chainResolve.Within wrappedChainTree :=
    (Relation.ReflTransGen.single (List.mem_filter.mpr ⟨List.mem_singleton_self _, rfl⟩)).tail
      (List.mem_filter.mpr ⟨List.mem_singleton_self _, rfl⟩)
  obtain ⟨same, calls⟩ := fluent_calls_recognised_iff wrappedChain fluent_chainResolve
  obtain ⟨inner, recorded, -⟩ := calls "c" (by decide) rooted
    [chainResolve, chainRegisterWrapped] chainRegister [chainRootWrapped] "register" rfl register (.inl rfl)
  obtain ⟨outer, recorded', -⟩ := calls "c" (by decide) rooted
    [] chainResolve [chainRegisterWrapped, chainRegister, chainRootWrapped] "resolve" rfl resolve (.inr rfl)
  exact ⟨fluent_chainResolve, (same.mpr (.inl (by decide))).trans rooted, inner.mpr (by decide),
    outer.mpr (by decide), met, ofTree_wrappedChain,
    (recorded (by decide)).2 noFiles wrappedChainTree wrappedChainIndex met ofTree_wrappedChain,
    (recorded' (by decide)).2 noFiles wrappedChainTree wrappedChainIndex met ofTree_wrappedChain⟩

/-! ## A comment in the signs of markup -/

/-- A file with a call on a container in parentheses, behind such a comment. -/
def commented : Indexer where
  file := "/w/a.js"
  source := Utf8.encode "(<!-- c\ncontainer).register('k', 1);"
  containers := ["container"]

/-- The container. -/
def commentedName : Node :=
  .mk { kind := .identifier, start := 8, stop := 17 } []

/-- The container in parentheses. -/
def commentedParens : Node :=
  .mk { kind := .parenthesized, start := 0, stop := 18, field := some .object } [
    .mk { kind := .markupComment, start := 1, stop := 7 } [], commentedName]

/-- The call. -/
def commentedCall : Node :=
  .mk { kind := .call, start := 0, stop := 35 } [
    .mk { kind := .memberAccess, start := 0, stop := 27, field := some .function } [
      commentedParens,
      .mk { kind := .propertyIdentifier, start := 19, stop := 27, field := some .property } []],
    .mk { kind := .other "arguments", start := 27, stop := 35, field := some .arguments } [
      .mk { kind := .string, start := 28, stop := 31 } [],
      .mk { kind := .other "number", start := 33, stop := 34 } []]]

theorem fluent_commentedCall : commentedName.Fluent commentedCall [commentedCall, commentedParens] := by
  have parens : commentedParens.Encloses commentedName := ⟨rfl, rfl⟩
  exact .call ⟨rfl, _, rfl, rfl, rfl, rfl, rfl⟩ (.parens parens .root)

/-- The call is made on a container, and it is not seen: the parentheses have no receiver, and neither has
the call, and nothing is registered. -/
theorem markup_comment_hides_container :
    commentedName.Fluent commentedCall [commentedCall, commentedParens] ∧
      commentedName.receiverName commented.source = .ok (some "container") ∧
      commentedParens.receiverName commented.source = .ok none ∧
      commentedCall.receiverName commented.source = .ok none ∧
      Indexer.CallsMethod commented.source commentedCall "register" ∧
      ¬ commented.CallsOnContainer commentedCall "register" ∧
      (ofTree noFiles commented (.mk { kind := .other "program", start := 0, stop := 36 } [
        .mk { kind := .expressionStatement, start := 0, stop := 36 } [commentedCall]])).outcome =
          .ok { file := "/w/a.js" } := by
  have rooted : commentedName.receiverName commented.source = .ok (some "container") := by decide +kernel
  have register : Indexer.CallsMethod commented.source commentedCall "register" :=
    ⟨rfl, _, rfl, by decide +kernel⟩
  have unseen : ¬ commented.CallsOnContainer commentedCall "register" := by
    rw [Indexer.callsOnContainer_iff_of_fluent (by decide) rooted fluent_commentedCall register]
    decide
  refine ⟨fluent_commentedCall, rooted, ?_, ?_, register, unseen, ?_⟩
  · decide +kernel
  · exact fluent_commentedCall.receiverName_of_veiled (by decide)
  · decide +kernel

end FileIndex

end ContainerKeys
