import ContainerKeys.Proofs.Drafts
import ContainerKeys.Proofs.Merge
import ContainerKeys.Proofs.Positions
import Mathlib.Data.List.Forall2

/-!
# Registrations in the order of the text

A walk meets a call before the calls inside it. So the registrations of a file come in the order of its
text as long as no call inside another one spells a key before one of the outer call's own:
`register` calls chained on one another do, and so do calls in a value that more keys follow.

* `Indexer.spelledBetween_draftsAt` — one call spells its keys in order, inside its own span.
* `Indexer.NestedInOrder` — no call inside another spells a key earlier.
* `FileIndex.inSourceOrder_ofTree_iff` — this is exactly when the registrations are in order.
* `FileIndex.KeepsTextuallyLast` — then the last registration in the text is the one that counts.
-/

namespace ContainerKeys

open Code

/-! ## Keys of one call -/

/-- The keys of drafts are spelled one after another between two offsets. -/
structure SpelledBetween (low high : Nat) (ds : List Draft) : Prop where
  ordered : ds.Pairwise fun d e => d.keyNode.start ≤ e.keyNode.start
  inside : ∀ d ∈ ds, low ≤ d.keyNode.start ∧ d.keyNode.start ≤ high

namespace SpelledBetween

theorem nil (low high : Nat) : SpelledBetween low high [] :=
  ⟨List.Pairwise.nil, by simp⟩

theorem singleton {low high : Nat} {d : Draft} (h : low ≤ d.keyNode.start)
    (h' : d.keyNode.start ≤ high) : SpelledBetween low high [d] := by
  refine ⟨List.pairwise_singleton _ _, ?_⟩
  intro e he
  rw [List.mem_singleton.mp he]
  exact ⟨h, h'⟩

theorem mono {low high low' high' : Nat} {ds : List Draft} (h : SpelledBetween low high ds)
    (hlow : low' ≤ low) (hhigh : high ≤ high') : SpelledBetween low' high' ds := by
  refine ⟨h.ordered, ?_⟩
  intro d hd
  have := h.inside d hd
  omega

/-- Keys spelled inside nodes that stand apart are spelled one after another. -/
theorem flatMap {low high : Nat} {ns : List Node} {f : Node → List Draft}
    (apart : ns.Pairwise fun a b => a.stop ≤ b.start)
    (each : ∀ n ∈ ns, SpelledBetween n.start n.stop (f n) ∧ low ≤ n.start ∧ n.stop ≤ high) :
    SpelledBetween low high (ns.flatMap f) := by
  constructor
  · rw [List.pairwise_flatMap]
    refine ⟨fun n hn => (each n hn).1.ordered, apart.imp_of_mem ?_⟩
    intro a b ha hb hab d hd e he
    have := (each a ha).1.inside d hd
    have := (each b hb).1.inside e he
    omega
  · intro d hd
    obtain ⟨n, hn, hd⟩ := List.mem_flatMap.mp hd
    obtain ⟨spelled, hlow, hhigh⟩ := each n hn
    have := spelled.inside d hd
    omega

end SpelledBetween

namespace Indexer

open FileIndex (draftsOf)

variable {x : Indexer}

theorem propertyNodes_mem {n keyNode : Node} {value : Option Node}
    (h : propertyNodes n = some (some keyNode, value)) : keyNode = n ∨ keyNode ∈ n.children := by
  unfold propertyNodes at h
  split at h
  · right
    simp only [Option.some.injEq, Prod.mk.injEq] at h
    exact List.mem_of_find?_eq_some h.1
  · left
    simp only [Option.some.injEq, Prod.mk.injEq] at h
    exact h.1.symm
  · cases h

theorem spelledBetween_ofProperty {n : Node} (placed : n.Placed) {fs : List Finding}
    (h : (x.ofProperty n).outcome = .ok fs) : SpelledBetween n.start n.stop (draftsOf fs) := by
  unfold ofProperty at h
  split at h
  · cases h
    exact SpelledBetween.nil _ _
  · rename_i keyNode value nodes
    obtain ⟨key, -, h⟩ := Attempt.outcome_bind_eq_ok.mp h
    split at h
    · rename_i keyNode' value' _
      cases h
      rcases propertyNodes_mem nodes with rfl | child
      · exact SpelledBetween.singleton (Nat.le_refl _) placed.start_le_stop
      · obtain ⟨placed', start, stop⟩ := placed.child child
        exact SpelledBetween.singleton start (Nat.le_trans placed'.start_le_stop stop)
    · obtain ⟨noted, -, h⟩ := Attempt.outcome_bind_eq_ok.mp h
      cases h
      exact SpelledBetween.nil _ _

theorem spelledBetween_ofRegister {low high : Nat} {args : List Node}
    (placed : ∀ a ∈ args, a.Placed ∧ low ≤ a.start ∧ a.stop ≤ high) {fs : List Finding}
    (h : (x.ofRegister args).outcome = .ok fs) : SpelledBetween low high (draftsOf fs) := by
  unfold ofRegister at h
  split at h
  · cases h
    exact SpelledBetween.nil _ _
  · rename_i first rest
    obtain ⟨placedFirst, start, stop⟩ := placed first List.mem_cons_self
    split at h
    -- an object: one draft for each property at most
    · obtain ⟨rfl, each⟩ := Attempt.outcome_gather_eq_ok h
      rw [FileIndex.draftsOf_flatMap]
      apply SpelledBetween.mono _ start stop
      apply SpelledBetween.flatMap placedFirst.namedChildren_apart
      intro property member
      obtain ⟨here, made⟩ := each property member
      obtain ⟨placed', inside⟩ := placedFirst.child (Node.mem_children_of_mem_namedChildren member)
      rw [Attempt.items_of_ok made]
      exact ⟨spelledBetween_ofProperty placed' made, inside⟩
    -- a key and a value
    · split at h
      · cases h
        exact SpelledBetween.nil _ _
      · obtain ⟨key, -, h⟩ := Attempt.outcome_bind_eq_ok.mp h
        split at h
        · cases h
          exact SpelledBetween.singleton start (Nat.le_trans placedFirst.start_le_stop stop)
        · cases h
          exact SpelledBetween.nil _ _

theorem placed_arguments {n : Node} (placed : n.Placed) :
    ∀ a ∈ n.arguments, a.Placed ∧ n.start ≤ a.start ∧ a.stop ≤ n.stop := by
  intro a ha
  unfold Node.arguments at ha
  split at ha
  · rename_i args found
    obtain ⟨placed', start, stop⟩ := placed.child (List.mem_of_find?_eq_some found)
    have member : a ∈ args.children :=
      Node.mem_children_of_mem_namedChildren (List.mem_filter.mp ha).1
    obtain ⟨placed'', start', stop'⟩ := placed'.child member
    exact ⟨placed'', Nat.le_trans start start', Nat.le_trans stop' stop⟩
  · cases ha

theorem spelledBetween_ofCall {n : Node} (placed : n.Placed) {fs : List Finding}
    (h : (x.ofCall n).outcome = .ok fs) : SpelledBetween n.start n.stop (draftsOf fs) := by
  unfold ofCall at h
  split at h
  · cases h
    exact SpelledBetween.nil _ _
  · obtain ⟨method, -, h⟩ := Attempt.outcome_bind_eq_ok.mp h
    split at h
    · obtain ⟨container, -, h⟩ := Attempt.outcome_bind_eq_ok.mp h
      split at h
      · split at h
        · exact spelledBetween_ofRegister (placed_arguments placed) h
        · rw [FileIndex.draftsOf_of_uses (uses_ofResolve h)]
          exact SpelledBetween.nil _ _
      · cases h
        exact SpelledBetween.nil _ _
    · cases h
      exact SpelledBetween.nil _ _

/-- One call spells its keys in order, inside its own span. -/
theorem spelledBetween_draftsAt (x : Indexer) {n : Node} (placed : n.Placed) :
    SpelledBetween n.start n.stop (x.draftsAt n) := by
  unfold draftsAt
  split
  · unfold Attempt.items
    split
    · rename_i fs made
      exact spelledBetween_ofCall placed made
    · exact SpelledBetween.nil _ _
  · exact SpelledBetween.nil _ _

/-! ## Calls inside one another -/

/-- Where the key of a draft starts. -/
def keyStart (x : Indexer) (d : Draft) : Position :=
  (d.keyNode.range x.source).start

/-- No call inside another one spells a key before one of the outer call's own. -/
def NestedInOrder (x : Indexer) (root : Node) : Prop :=
  ∀ outer inner : Node, outer.Within root → inner.Below outer →
    ∀ d ∈ x.draftsAt outer, ∀ e ∈ x.draftsAt inner, x.keyStart d ≤ x.keyStart e

/-- The drafts of a walk are in the order of the text exactly when calls inside one another are. -/
theorem pairwise_keyStart_iff {root : Node} (placed : root.Placed) :
    ((root.preorder none).flatMap fun v => x.draftsAt v.node).Pairwise
        (fun d e => x.keyStart d ≤ x.keyStart e) ↔ x.NestedInOrder root := by
  rw [List.pairwise_flatMap]
  -- keys inside nodes that stand apart are in order, so only calls inside one another matter
  have walk := Node.pairwise_preorder_iff
    (P := fun a b => ∀ d ∈ x.draftsAt a, ∀ e ∈ x.draftsAt b, x.keyStart d ≤ x.keyStart e)
    (fun a b placedA placedB apart d hd e he => by
      have := (x.spelledBetween_draftsAt placedA).inside d hd
      have := (x.spelledBetween_draftsAt placedB).inside e he
      exact positionOf_mono x.source (by omega))
    placed none
  constructor
  · rintro ⟨-, between⟩
    exact walk.mp between
  · intro nested
    refine ⟨?_, walk.mpr nested⟩
    intro v hv
    obtain ⟨placedV, -, -⟩ := placed.within ((Node.mem_preorder_iff none).mp ⟨v, hv, rfl⟩)
    apply (x.spelledBetween_draftsAt placedV).ordered.imp
    intro d e
    exact positionOf_mono x.source

end Indexer

/-! ## Registrations -/

/-- The key of `d` is spelled no later in the text than that of `e`. -/
def Definition.SpelledNoLater (d e : Definition) : Prop :=
  ∃ r s, d.registrationRange = some r ∧ e.registrationRange = some s ∧ r.start ≤ s.start

/-- The registrations stand in the order of the text. -/
def InSourceOrder (ds : List Definition) : Prop :=
  ds.Pairwise Definition.SpelledNoLater

namespace FileIndex

/-- Whatever was merged before the file, each key that it registers goes to that one of its
registrations that is spelled last in the text. -/
def KeepsTextuallyLast (file : FileIndex) : Prop :=
  ∀ (before : List FileIndex), ∀ d ∈ file.registrations, ∃ winner ∈ file.registrations,
    (Index.empty.mergeAll (before ++ [file])).value.lookup d.key = some winner ∧
      ∀ e ∈ file.registrations, e.key = d.key → e.SpelledNoLater winner

/-- The registrations of a tree are spelled where the keys of its drafts are. -/
theorem registrationRange_ofTree {files : FileTree} {x : Indexer} {root : Node} {index : FileIndex}
    (h : (ofTree files x root).outcome = .ok index) :
    index.registrations.map (·.registrationRange) =
      ((root.preorder none).flatMap fun v => x.draftsAt v.node).map
        fun d => some (d.keyNode.range x.source) := by
  have paired := ofTree_eq_ok h
  generalize index.registrations = registrations at paired ⊢
  generalize ((root.preorder none).flatMap fun v => x.draftsAt v.node) = drafts at paired ⊢
  induction paired with
  | nil => rfl
  | cons made _ ih => rw [List.map_cons, List.map_cons, made.2, ih]

theorem inSourceOrder_ofTree_iff {files : FileTree} {x : Indexer} {root : Node} {index : FileIndex}
    (placed : root.Placed) (h : (ofTree files x root).outcome = .ok index) :
    InSourceOrder index.registrations ↔ x.NestedInOrder root := by
  rw [← Indexer.pairwise_keyStart_iff placed]
  -- both sides only depend on where the keys are spelled
  calc InSourceOrder index.registrations
      ↔ (index.registrations.map Definition.registrationRange).Pairwise
          (fun a b : Option Range => ∃ r s, a = some r ∧ b = some s ∧ r.start ≤ s.start) := by
        rw [List.pairwise_map]
        rfl
    _ ↔ _ := by
        rw [registrationRange_ofTree h, List.pairwise_map]
        simp [Indexer.keyStart]

/-- Every registration of a tree has its place. -/
theorem spelledNoLater_self {files : FileTree} {x : Indexer} {root : Node} {index : FileIndex}
    (h : (ofTree files x root).outcome = .ok index) {d : Definition}
    (hd : d ∈ index.registrations) : d.SpelledNoLater d := by
  have member : d.registrationRange ∈ index.registrations.map (·.registrationRange) :=
    List.mem_map_of_mem hd
  rw [registrationRange_ofTree h] at member
  obtain ⟨draft, -, place⟩ := List.mem_map.mp member
  exact ⟨_, _, place.symm, place.symm, Or.inr ⟨rfl, Int.le_refl _⟩⟩

/-- Where the registrations stand in order, the one that counts is spelled last. -/
theorem keepsTextuallyLast_of_inSourceOrder {file : FileIndex}
    (order : InSourceOrder file.registrations)
    (place : ∀ d ∈ file.registrations, d.SpelledNoLater d) : file.KeepsTextuallyLast := by
  intro before d hd
  obtain ⟨winner, last⟩ : ∃ winner, lastOf? d.key file.registrations = some winner := by
    apply Option.ne_none_iff_exists'.mp
    intro none
    exact lastOf?_eq_none_iff.mp none d hd rfl
  obtain ⟨-, earlier, later, split, others⟩ := lastOf?_eq_some_split last
  have member : winner ∈ file.registrations := by
    rw [split]
    exact List.mem_append_right _ List.mem_cons_self
  refine ⟨winner, member, ?_, ?_⟩
  -- the file comes last, so its last registration wins over all files before it
  · have merged := (Index.Summarises.empty.mergeAll (before ++ [file])).get?_keys d.key
    rw [List.nil_append, List.flatMap_append, lastOf?_append] at merged
    rw [Index.lookup, merged, List.flatMap_cons, List.flatMap_nil, List.append_nil, last]
    rfl
  · intro e he hkey
    rw [split, List.mem_append, List.mem_cons] at he
    rcases he with he | rfl | he
    · unfold InSourceOrder at order
      rw [split, List.pairwise_append] at order
      exact order.2.2 e he winner List.mem_cons_self
    · exact place e member
    · exact absurd hkey (others e he)

end FileIndex

/-- A parser whose trees are laid out as their texts are. -/
def Code.Parser.PlacesNodes (parser : Parser) : Prop :=
  ∀ grammar source, (parser grammar source).Placed

/-- The registrations of a file stand in the order of its text, and each key goes to the last one in
the text, exactly when no call inside another one spells a key before one of the outer call's own. -/
theorem FileIndex.ofSource_in_source_order_iff {w : Workspace} (places : w.parser.PlacesNodes)
    {containers : List String} {file : Path} {source : Bytes} {index : FileIndex}
    (indexed : (ofSource w containers file source).outcome = .ok index)
    (sound : index.fault = none) :
    ∃ root, parse w.parser file source = .ok root ∧
      (InSourceOrder index.registrations ∧ index.KeepsTextuallyLast ↔
        (Indexer.mk file source containers).NestedInOrder root) := by
  obtain ⟨root, parsed, made⟩ := ofSource_eq_ok indexed sound
  refine ⟨root, parsed, ?_⟩
  have placed : root.Placed := by
    unfold parse at parsed
    split at parsed
    · cases parsed
    · rename_i grammar _
      simp only at parsed
      split at parsed
      · cases parsed
      · cases parsed
        exact places grammar source
  rw [← inSourceOrder_ofTree_iff placed made]
  constructor
  · rintro ⟨order, -⟩
    exact order
  · intro order
    exact ⟨order, keepsTextuallyLast_of_inSourceOrder order fun d hd => spelledNoLater_self made hd⟩

/-! ## Two calls in a chain -/

namespace FileIndex

/-- The tree of `<callee>.register('k',<digit>)`, where `register` starts at the given offset. -/
def registerCall (callee : Node) (start : Nat) (field : Option Field) : Node :=
  .mk { kind := .call, start := 0, stop := start + 15, field } [
    .mk { kind := .memberAccess, start := 0, stop := start + 8, field := some .function } [
      callee,
      .mk { kind := .propertyIdentifier, start, stop := start + 8, field := some .property } []],
    .mk { kind := .other "arguments", start := start + 8, stop := start + 15,
          field := some .arguments } [
      .mk { kind := .string, start := start + 9, stop := start + 12 } [
        .mk { kind := .other "string_fragment", start := start + 10, stop := start + 11 } []],
      .mk { kind := .other "number", start := start + 13, stop := start + 14 } []]]

/-- A file that registers one key twice, the second time in a call on the result of the first. -/
def chainSource : Bytes := Utf8.encode "c.register('k',1).register('k',2);"

/-- Its tree: the first call is inside the second. -/
def chainTree : Node :=
  let container : Node := .mk { kind := .identifier, start := 0, stop := 1, field := some .object } []
  .mk { kind := .other "program", start := 0, stop := 34 } [
    .mk { kind := .expressionStatement, start := 0, stop := 34 } [
      registerCall (registerCall container 2 (some .object)) 18 none]]

/-- A workspace in which that file is parsed. -/
def chained : Workspace := ⟨{ root := .folder [], cwd := some "/w" }, fun _ _ => chainTree⟩

/-- The registration whose key and value are spelled at the given columns. -/
def chainDefinition (key value : Int) : Definition where
  key := "k"
  kind := .asValue
  lifetime := none
  originFile := "/w/a.js"
  exportName := none
  range := some ⟨⟨0, value⟩, ⟨0, value + 1⟩⟩
  registeredIn := "/w/a.js"
  registrationRange := some ⟨⟨0, key⟩, ⟨0, key + 3⟩⟩

/-- What the file contributes: its second registration, then its first. -/
def chainIndex : FileIndex where
  file := "/w/a.js"
  registrations := [chainDefinition 27 31, chainDefinition 11 15]

theorem placesNodes_chained : chained.parser.PlacesNodes := by
  intro grammar source
  simp [chained, chainTree, registerCall, Node.placed_mk_iff, Node.start, Node.stop, Node.label]

theorem ofSource_chained :
    (ofSource chained ["c"] "/w/a.js" chainSource).outcome = .ok chainIndex := by
  decide +kernel

theorem not_spelledNoLater_chained :
    ¬ (chainDefinition 27 31).SpelledNoLater (chainDefinition 11 15) := by
  rintro ⟨r, s, hr, hs, le⟩
  cases hr
  cases hs
  revert le
  decide

/-- The condition for the order of the text, at the chain. -/
theorem ofSource_in_source_order_iff_chained :
    chained.parser.PlacesNodes ∧
    (ofSource chained ["c"] "/w/a.js" chainSource).outcome = .ok chainIndex ∧
    chainIndex.fault = none ∧
    ∃ root, parse chained.parser "/w/a.js" chainSource = .ok root ∧
      (InSourceOrder chainIndex.registrations ∧ chainIndex.KeepsTextuallyLast ↔
        (Indexer.mk "/w/a.js" chainSource ["c"]).NestedInOrder root) :=
  ⟨placesNodes_chained, ofSource_chained, rfl,
    ofSource_in_source_order_iff placesNodes_chained ofSource_chained rfl⟩

/-- Two calls in a chain: the registrations come in reverse, and the first one in the text counts. -/
theorem chained_registers_reversed :
    chained.parser.PlacesNodes ∧
    (ofSource chained ["c"] "/w/a.js" chainSource).outcome = .ok chainIndex ∧
    chainIndex.fault = none ∧
    ¬ InSourceOrder chainIndex.registrations ∧ ¬ chainIndex.KeepsTextuallyLast := by
  refine ⟨placesNodes_chained, ofSource_chained, rfl, ?_, ?_⟩
  · intro order
    exact not_spelledNoLater_chained (List.rel_of_pairwise_cons order List.mem_cons_self)
  · intro keeps
    obtain ⟨winner, -, counts, last⟩ := keeps [] (chainDefinition 27 31) List.mem_cons_self
    have first : winner = chainDefinition 11 15 := by
      have found : (Index.empty.mergeAll ([] ++ [chainIndex])).value.lookup
          (chainDefinition 27 31).key = some (chainDefinition 11 15) := by
        decide
      rw [found] at counts
      cases counts
      rfl
    rw [first] at last
    exact not_spelledNoLater_chained (last _ List.mem_cons_self rfl)

end FileIndex

end ContainerKeys
