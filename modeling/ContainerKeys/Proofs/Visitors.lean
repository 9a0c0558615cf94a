import ContainerKeys.Proofs.LegibleTrees
import Mathlib.Data.List.Basic
import Mathlib.Logic.Function.Basic

/-!
# Visitors that share a walk

A walk gives each visit to all of its visitors before it goes on, so their hooks are called in turns. Still
each of them sees what it would see alone: the hook calls of the recursive pre-order, one for each named node
that has a hook. So it ends in the state in which it would end alone.

* `Node.Places` — the places of a tree in the order of a walk, each of them once.
* `Visitor.among` — a visitor with its own state among others.
* `Visitor.alone_of_turns`, `Visitor.succeeds_turns` — what visitors that take turns do, one by one.
* `Node.walk_serves_each_visitor` — walks with any visitors, and the walk that collects imports and keys.
-/

namespace ContainerKeys

/-! ## Gathering in steps -/

section

variable [Monad m] [LawfulMonad m]

theorem gather_append (f : α → m (List β)) (l l' : List α) :
    gather f (l ++ l') =
      gather f l >>= fun here => gather f l' >>= fun more => pure (here ++ more) := by
  induction l with
  | nil => simp [gather]
  | cons a rest ih =>
    rw [List.cons_append, gather, gather, ih]
    simp only [bind_assoc, pure_bind, List.append_assoc]

/-- What is gathered from lists in a list is gathered from all of their elements. -/
theorem gather_flatMap (f : β → m (List γ)) (g : α → List β) (l : List α) :
    gather f (l.flatMap g) = gather (fun a => gather f (g a)) l := by
  induction l with
  | nil => rfl
  | cons a rest ih => rw [List.flatMap_cons, gather_append, ih, gather]

omit [LawfulMonad m] in
theorem gather_map (f : β → m (List γ)) (g : α → β) (l : List α) :
    gather f (l.map g) = gather (fun a => f (g a)) l := by
  induction l with
  | nil => rfl
  | cons a rest ih => rw [List.map_cons, gather, gather, ih]

end

namespace Code

namespace Node

/-! ## Places -/

/-- The node at a place, which is the way to it: the numbers of the named children that it goes through. -/
def at? : Node → List Nat → Option Node
  | n, [] => some n
  | n, i :: way => n.namedChildren[i]?.bind (·.at? way)

/-- The node at a place below some nodes, which are numbered from `k` on. -/
def atFrom? (k : Nat) (ns : List Node) : List Nat → Option Node
  | [] => none
  | i :: way => if i < k then none else ns[i - k]?.bind (·.at? way)

/-- The places where nodes are found, in order and each of them once, and the visits there. -/
structure Places (find : List Nat → Option Node) (visits : List Visit) (places : List (List Nat)) : Prop where
  ordered : places.Pairwise (· < ·)
  complete : ∀ place, place ∈ places ↔ (find place).isSome
  met : places.map find = visits.map fun v => some v.node

theorem places_nil (k : Nat) : Places (atFrom? k []) [] [] where
  ordered := List.Pairwise.nil
  complete place := by cases place <;> simp [atFrom?]
  met := rfl

theorem atFrom?_cons_of_lt {k i : Nat} {n : Node} {ns : List Node} {way : List Nat} (later : k < i) :
    atFrom? k (n :: ns) (i :: way) = atFrom? (k + 1) ns (i :: way) := by
  obtain ⟨j, rfl⟩ : ∃ j, i = k + 1 + j := ⟨i - (k + 1), by omega⟩
  have here : k + 1 + j - k = j + 1 := by omega
  have there : k + 1 + j - (k + 1) = j := by omega
  rw [atFrom?, atFrom?, if_neg (by omega), if_neg (by omega), here, there, List.getElem?_cons_succ]

theorem atFrom?_cons_self (k : Nat) (n : Node) (ns : List Node) (way : List Nat) :
    atFrom? k (n :: ns) (k :: way) = n.at? way := by
  simp [atFrom?]

/-- The places below a node come before those below the nodes behind it. -/
theorem Places.cons {k : Nat} {n : Node} {ns : List Node} {visits visits' : List Visit}
    {places places' : List (List Nat)} (here : Places n.at? visits places)
    (later : Places (atFrom? (k + 1) ns) visits' places') :
    Places (atFrom? k (n :: ns)) (visits ++ visits') (places.map (k :: ·) ++ places') := by
  -- a place further on starts with a larger number
  have further : ∀ place ∈ places', ∃ i way, place = i :: way ∧ k < i := by
    intro place member
    have found := (later.complete place).mp member
    cases place with
    | nil => simp [atFrom?] at found
    | cons i way =>
      refine ⟨i, way, rfl, ?_⟩
      by_contra small
      rw [atFrom?, if_pos (by omega)] at found
      cases found
  refine ⟨?_, ?_, ?_⟩
  · rw [List.pairwise_append]
    refine ⟨?_, later.ordered, ?_⟩
    · rw [List.pairwise_map]
      apply here.ordered.imp
      intro way way' less
      exact List.cons_lt_cons_iff.mpr (.inr ⟨rfl, less⟩)
    · intro place member place' member'
      rcases List.mem_map.mp member with ⟨way, -, rfl⟩
      rcases further place' member' with ⟨i, way', rfl, less⟩
      exact List.cons_lt_cons_iff.mpr (.inl less)
  · intro place
    rw [List.mem_append, List.mem_map, later.complete]
    cases place with
    | nil => simp [atFrom?]
    | cons i way =>
      rcases Nat.lt_trichotomy i k with less | rfl | more
      · have apart : k ≠ i := Nat.ne_of_gt less
        simp [atFrom?, apart, less, Nat.lt_succ_of_lt less]
      · rw [atFrom?_cons_self, ← here.complete, atFrom?, if_pos (Nat.lt_succ_self i)]
        simp
      · have apart : k ≠ i := Nat.ne_of_lt more
        rw [atFrom?_cons_of_lt more]
        simp [apart]
  · rw [List.map_append, List.map_append, List.map_map, ← here.met, ← later.met]
    congr 1
    · apply List.map_congr_left
      intro way _
      exact atFrom?_cons_self k n ns way
    · apply List.map_congr_left
      intro place member
      rcases further place member with ⟨i, way, rfl, less⟩
      exact atFrom?_cons_of_lt less

/-- A recursive walk meets the node at each place once, a node before those below it and these in order. -/
theorem exists_places (n : Node) (parent : Option Kind) : ∃ places, Places n.at? (n.preorder parent) places := by
  induction n using induction_on generalizing parent with
  | step n ih =>
    have below : ∀ (ns : List Node) (k : Nat), (∀ c ∈ ns, c ∈ n.children) →
        ∃ places, Places (atFrom? k ns) (ns.flatMap (preorder (some n.kind))) places := by
      intro ns
      induction ns with
      | nil =>
        intro k _
        exact ⟨[], places_nil k⟩
      | cons c rest more =>
        intro k members
        rw [List.forall_mem_cons] at members
        rcases ih c members.1 (some n.kind) with ⟨places, here⟩
        rcases more (k + 1) members.2 with ⟨places', later⟩
        exact ⟨_, here.cons later⟩
    rcases below n.namedChildren 0 (fun c member => mem_children_of_mem_namedChildren member) with
      ⟨places, ordered, complete, met⟩
    have found : ∀ i way, n.at? (i :: way) = atFrom? 0 n.namedChildren (i :: way) := by
      intro i way
      rw [at?, atFrom?, if_neg (Nat.not_lt_zero i)]
      rfl
    refine ⟨[] :: places, ?_, ?_, ?_⟩
    · refine List.pairwise_cons.mpr ⟨?_, ordered⟩
      intro place member
      cases place with
      | nil => simp [complete, atFrom?] at member
      | cons i way => exact List.nil_lt_cons i way
    · intro place
      cases place with
      | nil => simp [at?]
      | cons i way => simp [complete, found]
    · rw [preorder_eq, List.map_cons, List.map_cons, ← met, at?]
      congr 1
      apply List.map_congr_left
      intro place member
      cases place with
      | nil => simp [complete, atFrom?] at member
      | cons i way => exact found i way

end Node

/-! ## Hook calls -/

/-- The hook calls of some visits, in order. -/
def Hook.calls (visits : List Node.Visit) : List (Hook × Node.Visit) :=
  visits.filterMap fun v => (Hook.ofKind? v.node.kind).map (·, v)

namespace Visitor

/-- A visitor sees the hook calls of its visits and nothing else. -/
theorem gather_visit [Monad m] [LawfulMonad m] (visitor : Visitor m α) (visits : List Node.Visit) :
    gather (Visitor.visit visitor) visits =
      gather (fun call => visitor call.1 call.2) (Hook.calls visits) := by
  induction visits with
  | nil => rfl
  | cons v rest ih =>
    unfold Hook.calls at ih ⊢
    rw [gather, ih, Visitor.visit, List.filterMap_cons]
    cases Hook.ofKind? v.node.kind with
    | none => simp
    | some hook => rfl

section

variable {ι : Type} [DecidableEq ι] {σ : ι → Type} {ε α β : Type}

/-- The visitor under the name `i` among others: it reads and changes its own state only, and what it
contributes goes under its name. -/
def among (i : ι) (visitor : Visitor (StateT (σ i) (Except ε)) α) :
    Visitor (StateT (∀ i, σ i) (Except ε)) (ι × α) := fun hook v states => do
  let (found, state) ← visitor hook v (states i)
  return (found.map (i, ·), Function.update states i state)

/-- What goes under one name. -/
def under (i : ι) (named : List (ι × β)) : List β :=
  named.filterMap fun e => if e.1 = i then some e.2 else none

theorem under_append (i : ι) (l l' : List (ι × β)) : under i (l ++ l') = under i l ++ under i l' :=
  List.filterMap_append

theorem under_map_self (i : ι) (l : List β) : under i (l.map (i, ·)) = l := by
  simp [under, List.filterMap_map]

theorem under_map_of_ne {i j : ι} (apart : j ≠ i) (l : List β) : under i (l.map (j, ·)) = [] := by
  simp [under, List.filterMap_map, apart]

theorem stateT_bind_eq_ok {σ : Type} {x : StateT σ (Except ε) α} {f : α → StateT σ (Except ε) β} {s : σ}
    {r : β × σ} : (x >>= f) s = .ok r ↔ ∃ a s', x s = .ok (a, s') ∧ f a s' = .ok r := by
  show (x s >>= fun p => f p.1 p.2) = .ok r ↔ _
  rw [except_bind_eq_ok, Prod.exists]

/-- One more element is gathered from first. -/
theorem gather_cons_eq_ok {σ γ : Type} {f : α → StateT σ (Except ε) (List γ)} {a : α} {rest : List α} {s : σ}
    {r : List γ × σ} : gather f (a :: rest) s = .ok r ↔
      ∃ here s' more s'', f a s = .ok (here, s') ∧ gather f rest s' = .ok (more, s'') ∧
        r = (here ++ more, s'') := by
  rw [gather, stateT_bind_eq_ok]
  simp only [stateT_bind_eq_ok]
  constructor
  · rintro ⟨here, s', first, more, s'', second, last⟩
    cases last
    exact ⟨here, s', more, s'', first, second, rfl⟩
  · rintro ⟨here, s', more, s'', first, second, rfl⟩
    exact ⟨here, s', first, more, s'', second, rfl⟩

theorem visit_among {i : ι} {visitor : Visitor (StateT (σ i) (Except ε)) α} {v : Node.Visit}
    {states states' : ∀ i, σ i} {found : List (ι × α)} :
    Visitor.visit (among i visitor) v states = .ok (found, states') ↔
      ∃ own state, Visitor.visit visitor v (states i) = .ok (own, state) ∧ found = own.map (i, ·) ∧
        states' = Function.update states i state := by
  unfold Visitor.visit
  cases Hook.ofKind? v.node.kind with
  -- without a hook the state stays as it is
  | none =>
    constructor
    · intro h
      cases h
      exact ⟨[], states i, rfl, rfl, (Function.update_eq_self i states).symm⟩
    · rintro ⟨own, state, h, rfl, rfl⟩
      cases h
      rw [Function.update_eq_self]
      rfl
  | some hook =>
    show among i visitor hook v states = _ ↔ _
    unfold among
    rw [except_bind_eq_ok]
    constructor
    · rintro ⟨⟨own, state⟩, given, h⟩
      cases h
      exact ⟨own, state, given, rfl, rfl⟩
    · rintro ⟨own, state, given, rfl, rfl⟩
      exact ⟨(own, state), given, rfl⟩

/-! ## Turns -/

variable (react : ∀ i, Visitor (StateT (σ i) (Except ε)) α)

/-- One visit of one of the visitors. -/
def turn (t : ι × Node.Visit) : StateT (∀ i, σ i) (Except ε) (List (ι × α)) :=
  Visitor.visit (among t.1 (react t.1)) t.2

variable {react}

/-- Whoever else takes turns, each visitor does what it does alone. -/
theorem alone_of_turns {turns : List (ι × Node.Visit)} {states states' : ∀ i, σ i} {found : List (ι × α)}
    (h : gather (turn react) turns states = .ok (found, states')) (i : ι) :
    gather (Visitor.visit (react i)) (under i turns) (states i) = .ok (under i found, states' i) := by
  induction turns generalizing states found with
  | nil =>
    cases h
    rfl
  | cons t rest ih =>
    rcases t with ⟨j, v⟩
    rcases gather_cons_eq_ok.mp h with ⟨here, middle, more, last, first, later, same⟩
    cases same
    rcases visit_among.mp first with ⟨own, state, given, rfl, rfl⟩
    have alone := ih later
    rw [under_append]
    by_cases mine : j = i
    -- its own turn comes first, and the rest starts from the state after it
    · subst mine
      rw [Function.update_self] at alone
      have mineFirst : under j ((j, v) :: rest) = v :: under j rest := by simp [under]
      rw [mineFirst, under_map_self]
      exact gather_cons_eq_ok.mpr ⟨own, state, _, _, given, alone, rfl⟩
    · rw [Function.update_of_ne (Ne.symm mine)] at alone
      have others : under i ((j, v) :: rest) = under i rest := by simp [under, mine]
      rw [others, under_map_of_ne mine]
      exact alone

/-- The turns succeed if each visitor succeeds alone. -/
theorem succeeds_turns {turns : List (ι × Node.Visit)} {states : ∀ i, σ i}
    (each : ∀ i, Succeeds (gather (Visitor.visit (react i)) (under i turns) (states i))) :
    Succeeds (gather (turn react) turns states) := by
  induction turns generalizing states with
  | nil => exact ⟨_, rfl⟩
  | cons t rest ih =>
    rcases t with ⟨j, v⟩
    have mineFirst : under j ((j, v) :: rest) = v :: under j rest := by simp [under]
    rcases each j with ⟨r, alone⟩
    rw [mineFirst] at alone
    rcases gather_cons_eq_ok.mp alone with ⟨own, state, more, last, given, after, -⟩
    have first : turn react (j, v) states = .ok (own.map (j, ·), Function.update states j state) :=
      visit_among.mpr ⟨own, state, given, rfl, rfl⟩
    have later : Succeeds (gather (turn react) rest (Function.update states j state)) := by
      apply ih
      intro i
      by_cases mine : i = j
      · subst mine
        rw [Function.update_self]
        exact ⟨_, after⟩
      · have others : under i ((j, v) :: rest) = under i rest := by simp [under, Ne.symm mine]
        rw [Function.update_of_ne mine, ← others]
        exact each i
    rcases later with ⟨⟨found, states'⟩, later⟩
    exact ⟨_, gather_cons_eq_ok.mpr ⟨_, _, found, states', first, later, rfl⟩⟩

/-! ## Walks -/

/-- On a walk the visitors take turns at each node. -/
theorem accept_among (listed : List ι) (root : Node) :
    root.accept (listed.map fun i => among i (react i)) =
      gather (turn react) (root.walk.flatMap fun v => listed.map (·, v)) := by
  rw [gather_flatMap, Node.accept]
  congr 1
  funext v
  rw [visitAll, gather_map, gather_map]
  rfl

theorem under_flatMap_of_mem {listed : List ι} (nodup : listed.Nodup) {i : ι} (member : i ∈ listed)
    (visits : List Node.Visit) : under i (visits.flatMap fun v => listed.map (·, v)) = visits := by
  have once : ∀ v : Node.Visit, under i (listed.map fun j => (j, v)) = [v] := by
    intro v
    clear visits
    induction listed with
    | nil => cases member
    | cons j rest ih =>
      rw [List.nodup_cons] at nodup
      by_cases here : j = i
      · subst here
        have absent : under j (rest.map fun k => (k, v)) = [] := by
          rw [under, List.filterMap_map, List.filterMap_eq_nil_iff]
          intro k other
          have apart : k ≠ j := fun same => nodup.1 (same ▸ other)
          simp [apart]
        simpa [under] using absent
      · have later : i ∈ rest := List.mem_of_ne_of_mem (Ne.symm here) member
        simpa [under, here] using ih nodup.2 later
  induction visits with
  | nil => rfl
  | cons v rest ih => rw [List.flatMap_cons, under_append, once, ih, List.singleton_append]

theorem under_flatMap_of_not_mem {listed : List ι} {i : ι} (absent : i ∉ listed) (visits : List Node.Visit) :
    under i (visits.flatMap fun v => listed.map (·, v)) = [] := by
  rw [under, List.filterMap_eq_nil_iff]
  intro t member
  rcases List.mem_flatMap.mp member with ⟨v, -, member⟩
  rcases List.mem_map.mp member with ⟨j, listed, rfl⟩
  have apart : j ≠ i := fun same => absent (same ▸ listed)
  simp [apart]

end

end Visitor

end Code

open Code
open FileIndex (bindingsOf draftsOf usagesOf)

/-- The walk that collects imports and keys collects the imports of a walk for them alone. -/
theorem ImportTable.ofTree_of_findings {x : Indexer} {root : Node} {fs : List Finding}
    (found : (x.findings root).outcome = .ok fs) :
    ImportTable.ofTree x.source (·.range x.source) root = .ok (.ofBindings (bindingsOf fs)) := by
  have alone : root.accept [Binding.visitor x.source (·.range x.source)] = .ok (bindingsOf fs) := by
    rw [Indexer.bindingsOf_findings found, Node.accept, Node.walk_eq_preorder]
    apply gather_eq_ok
    intro v met
    have visited := ((Indexer.findings_eq_ok found).2 v met).1
    rw [Visitor.visitAll, gather, Indexer.bindingsOf_visit_bindingVisitor visited]
    show Except.ok (_ ++ []) = _
    rw [List.append_nil]
  rw [ofTree, alone]
  rfl

theorem ImportTable.outcome_ofFile_of_findings {x : Indexer} {root : Node} {fs : List Finding}
    (found : (x.findings root).outcome = .ok fs) :
    (ImportTable.ofFile x.file x.source (·.range x.source) root).outcome =
      .ok (.ofBindings (bindingsOf fs)) := by
  rw [ofFile, Attempt.outcome_bind, Attempt.outcome_ofExcept, ofTree_of_findings found]
  rfl

/-- The drafts of a walk are defined with all its bindings. -/
theorem FileIndex.outcome_ofTree_of_findings {x : Indexer} {root : Node} {fs : List Finding}
    (found : (x.findings root).outcome = .ok fs) (files : FileTree) :
    (ofTree files x root).outcome =
      (fun registrations => { file := x.file, registrations, usages := usagesOf fs }) <$>
        ((draftsOf fs).mapM (x.define files (.ofBindings (bindingsOf fs)))).outcome := by
  unfold ofTree
  rw [Attempt.outcome_bind, Attempt.outcome_adapt_eq_ok.mpr found]
  show Attempt.outcome (_ >>= _) = _
  rw [Attempt.outcome_bind]
  rfl

open Visitor (among under) in
/-- A walk is the recursive pre-order of the named nodes, and it meets the node at each place of the tree once.
It succeeds with visitors that do not share their states just if each of them succeeds alone, and then each of
them has seen the hook calls of the recursive pre-order and no others: it has contributed what they give and
ended in the state where they lead to. So where all is legible, the imports that are collected together with
the keys of a file, and with which its registrations are defined, are those that are collected alone. -/
theorem Code.Node.walk_serves_each_visitor (root : Node) :
    (root.walk = root.preorder none ∧ ∃ places, Places root.at? root.walk places) ∧
    (∀ {ι : Type} [DecidableEq ι] {σ : ι → Type} {ε α : Type}
      (react : ∀ i, Visitor (StateT (σ i) (Except ε)) α) (listed : List ι) (states : ∀ i, σ i),
      listed.Nodup →
      (Succeeds (root.accept (listed.map fun i => among i (react i)) states) ↔
        ∀ i ∈ listed, Succeeds
          (gather (fun call => react i call.1 call.2) (Hook.calls (root.preorder none)) (states i))) ∧
      ∀ found states', root.accept (listed.map fun i => among i (react i)) states = .ok (found, states') →
        (∀ i ∈ listed,
          gather (fun call => react i call.1 call.2) (Hook.calls (root.preorder none)) (states i) =
            .ok (under i found, states' i)) ∧
        ∀ i ∉ listed, states' i = states i) ∧
    ∀ x : Indexer, (root.Legible x.source → Succeeds (x.findings root).outcome) ∧
      ∀ fs, (x.findings root).outcome = .ok fs →
        ∃ table, (ImportTable.ofFile x.file x.source (·.range x.source) root).outcome = .ok table ∧
          ∀ files, (FileIndex.ofTree files x root).outcome =
            (fun registrations => { file := x.file, registrations, usages := usagesOf fs }) <$>
              ((draftsOf fs).mapM (x.define files table)).outcome := by
  refine ⟨⟨root.walk_eq_preorder, ?_⟩, ?_, ?_⟩
  · rw [walk_eq_preorder]
    exact root.exists_places none
  · intro ι _ σ ε α react listed states nodup
    have mine : ∀ i ∈ listed, under i (root.walk.flatMap fun v => listed.map (·, v)) = root.preorder none := by
      intro i member
      rw [Visitor.under_flatMap_of_mem nodup member, walk_eq_preorder]
    have alone : ∀ found states',
        root.accept (listed.map fun i => among i (react i)) states = .ok (found, states') →
          (∀ i ∈ listed,
            gather (fun call => react i call.1 call.2) (Hook.calls (root.preorder none)) (states i) =
              .ok (under i found, states' i)) ∧
          ∀ i ∉ listed, states' i = states i := by
      intro found states' walked
      rw [Visitor.accept_among] at walked
      constructor
      · intro i member
        rw [← Visitor.gather_visit, ← mine i member]
        exact Visitor.alone_of_turns walked i
      · intro i absent
        have nothing := Visitor.alone_of_turns walked i
        rw [Visitor.under_flatMap_of_not_mem absent] at nothing
        exact (Prod.ext_iff.mp (Except.ok.inj nothing)).2.symm
    refine ⟨⟨?_, ?_⟩, alone⟩
    · rintro ⟨⟨found, states'⟩, walked⟩ i member
      exact ⟨_, (alone found states' walked).1 i member⟩
    · intro each
      rw [Visitor.accept_among]
      apply Visitor.succeeds_turns
      intro i
      by_cases member : i ∈ listed
      · rw [mine i member, Visitor.gather_visit]
        exact each i member
      · rw [Visitor.under_flatMap_of_not_mem member]
        exact ⟨_, rfl⟩
  · intro x
    refine ⟨Indexer.succeeds_findings, ?_⟩
    intro fs found
    exact ⟨_, ImportTable.outcome_ofFile_of_findings found, FileIndex.outcome_ofTree_of_findings found⟩

/-- The visitor that keeps and contributes the hooks of some kinds, the last one first. -/
def keeping (kept : List Hook) : Visitor (StateT (List Hook) (Except Utf8.Fault)) Hook := fun hook _ seen =>
  if hook ∈ kept then .ok ([hook], hook :: seen) else .ok ([], seen)

/-- The tree of `import k from 'm';container.register('a',k);`. -/
def importTree : Node :=
  .mk { kind := .other "program", start := 0, stop := 44 } [
    .mk { kind := .importStatement, start := 0, stop := 18 } [
      .mk { kind := .importClause, start := 7, stop := 8 } [
        .mk { kind := .identifier, start := 7, stop := 8 } []],
      .mk { kind := .string, start := 14, stop := 17, field := some .source } []],
    .mk { kind := .expressionStatement, start := 18, stop := 44 } [
      .mk { kind := .call, start := 18, stop := 43 } [
        .mk { kind := .memberAccess, start := 18, stop := 36, field := some .function } [
          .mk { kind := .identifier, start := 18, stop := 27, field := some .object } [],
          .mk { kind := .propertyIdentifier, start := 28, stop := 36, field := some .property } []],
        .mk { kind := .other "arguments", start := 36, stop := 43, field := some .arguments } [
          .mk { kind := .string, start := 37, stop := 40 } [],
          .mk { kind := .identifier, start := 41, stop := 42 } []]]]]

/-- Its text. -/
def importIndexer : Indexer where
  file := "/w/a.js"
  source := Utf8.encode "import k from 'm';container.register('a',k);"
  containers := []

theorem legible_importTree : importTree.Legible importIndexer.source := by
  have small : importIndexer.source.all (fun b => b.toNat < 0x80) = true := by decide +kernel
  apply Registration.legible_of_ascii
  simpa using small

/-- Two visitors see the import and the call on it, each what it looks at, and the import is collected. -/
theorem walk_serves_each_visitor_import :
    let kept : Bool → List Hook := fun all => if all then [.importStatement, .call, .memberAccess] else [.call]
    [true, false].Nodup ∧ importTree.Legible importIndexer.source ∧
      (∃ found states', importTree.accept
          ([true, false].map fun i => Visitor.among i (keeping (kept i))) (fun _ => []) = .ok (found, states') ∧
        states' true = [.memberAccess, .call, .importStatement] ∧ Visitor.under false found = [.call] ∧
        states' false = [.call]) ∧
      ∃ fs table, (importIndexer.findings importTree).outcome = .ok fs ∧
        (ImportTable.ofFile "/w/a.js" importIndexer.source (·.range importIndexer.source) importTree).outcome =
          .ok table ∧
        ∀ files, (FileIndex.ofTree files importIndexer importTree).outcome =
          (fun registrations => { file := "/w/a.js", registrations, usages := usagesOf fs }) <$>
            ((draftsOf fs).mapM (importIndexer.define files table)).outcome := by
  intro kept
  rcases importTree.walk_serves_each_visitor with ⟨-, visitors, imports⟩
  have nodup : [true, false].Nodup := by decide
  rcases visitors (fun i => keeping (kept i)) [true, false] (fun _ => []) nodup with ⟨succeeds, alone⟩
  have each : ∀ i ∈ [true, false], Succeeds (gather (fun call => keeping (kept i) call.1 call.2)
      (Hook.calls (importTree.preorder none)) ([] : List Hook)) := by
    intro i _
    cases i with
    | true => exact ⟨_, rfl⟩
    | false => exact ⟨_, rfl⟩
  rcases succeeds.mpr each with ⟨⟨found, states'⟩, walked⟩
  have ends := (alone found states' walked).1
  have all := Prod.ext_iff.mp (Except.ok.inj (ends true (by decide)))
  have calls := Prod.ext_iff.mp (Except.ok.inj (ends false (by decide)))
  rcases (imports importIndexer).1 legible_importTree with ⟨fs, collected⟩
  rcases (imports importIndexer).2 fs collected with ⟨table, together, defined⟩
  exact ⟨nodup, legible_importTree, ⟨found, states', walked, all.2.symm, calls.1.symm, calls.2.symm⟩,
    fs, table, collected, together, defined⟩

end ContainerKeys
