import ContainerKeys.Proofs.LikeIndexes
import ContainerKeys.Proofs.Visitors
import Mathlib.Data.List.Forall2

/-!
# Statements in another order

The drafts of a file are defined when all its imports are known, so it does not matter where an import stands.
The statements of a file may be put in another order: as long as those that register keep theirs, and so do those
that bind the same name, the registrations of the file stay the same but for their places.

* `Indexer.ofStatement` — what is found in one statement.
* `Indexer.Rearranges` — statements in another order.
* `Indexer.Rearranges.findings` — the drafts of the moved statements, and their last binding of each name.
* `Node.Placed.alike_shift` — a statement that moves with its text stays alike.
* `FileIndex.registrations_use_final_imports` — the table of imports, and registrations of moved statements.
-/

namespace ContainerKeys

open Code
open FileIndex (bindingsOf draftsOf)

/-! ## Lists -/

/-- Elements that give nothing may be left out. -/
theorem flatMap_filter {f : α → List β} {p : α → Bool} {l : List α} (kept : ∀ a ∈ l, f a ≠ [] → p a = true) :
    (l.filter p).flatMap f = l.flatMap f := by
  induction l with
  | nil => rfl
  | cons a rest ih =>
    rw [List.forall_mem_cons] at kept
    by_cases here : p a = true
    · rw [List.filter_cons_of_pos here, List.flatMap_cons, List.flatMap_cons, ih kept.2]
    · have nothing : f a = [] := by
        by_contra something
        exact here (kept.1 something)
      rw [List.filter_cons_of_neg here, List.flatMap_cons, nothing, List.nil_append, ih kept.2]

/-- A list in another order gives the same if the elements that give anything keep their order. -/
theorem flatMap_eq_of_perm {f : α → List β} {p : α → Bool} {l l' : List α} (perm : l.Perm l')
    (same : l.filter p = l'.filter p) (kept : ∀ a ∈ l', f a ≠ [] → p a = true) : l.flatMap f = l'.flatMap f := by
  have kept' : ∀ a ∈ l, f a ≠ [] → p a = true := fun a member => kept a (perm.mem_iff.mp member)
  rw [← flatMap_filter kept', same, flatMap_filter kept]

theorem rel_lastNamed? {R : α → β → Prop} {es : List (String × α)} {es' : List (String × β)}
    (h : List.Forall₂ (fun e e' => e.1 = e'.1 ∧ R e.2 e'.2) es es') (name : String) :
    Option.Rel R (lastNamed? es name) (lastNamed? es' name) := by
  unfold lastNamed?
  -- the last entry is the first one backwards
  have backwards := List.rel_reverse h
  generalize es.reverse = l at backwards ⊢
  generalize es'.reverse = l' at backwards ⊢
  induction backwards with
  | nil => exact .none
  | @cons e e' _ _ related _ ih =>
    rw [List.findSome?_cons, List.findSome?_cons, ← related.1]
    by_cases here : e.1 = name
    · rw [if_pos here, if_pos here]
      exact .some related.2
    · rw [if_neg here, if_neg here]
      exact ih

theorem Attempt.matches_mapM {ε α β γ δ : Type} {R : α → β → Prop} {S : γ → δ → Prop} {f : α → Attempt ε γ}
    {g : β → Attempt ε δ} {l : List α} {l' : List β} (lists : List.Forall₂ R l l')
    (each : ∀ a b, R a b → Matches S (f a).outcome (g b).outcome) :
    Matches (List.Forall₂ S) (l.mapM f).outcome (l'.mapM g).outcome := by
  induction lists with
  | nil => exact .ok .nil
  | cons related _ ih =>
    rw [List.mapM_cons, List.mapM_cons, outcome_bind, outcome_bind]
    apply (each _ _ related).bind
    intro c d first
    rw [outcome_bind, outcome_bind]
    apply ih.bind
    intro cs ds more
    exact .ok (.cons first more)

/-! ## Findings by their kind -/

section

variable {source source' : Bytes} {fs fs' : List Finding}

theorem Finding.Alike.drafts (h : List.Forall₂ (Finding.Alike source source') fs fs') :
    List.Forall₂ (Draft.Alike source source') (draftsOf fs) (draftsOf fs') := by
  refine List.rel_filterMap ?_ h
  intro f f' alike
  cases alike with
  | binding => exact .none
  | draft alike => exact .some alike
  | usage => exact .none

theorem Finding.Alike.bindings (h : List.Forall₂ (Finding.Alike source source') fs fs') :
    List.Forall₂ Binding.SameEntry (bindingsOf fs) (bindingsOf fs') := by
  refine List.rel_filterMap ?_ h
  intro f f' alike
  cases alike with
  | binding alike => exact .some ⟨rfl, alike⟩
  | draft => exact .none
  | usage => exact .none

end

/-! ## Statements -/

/-- The statement has a form in it that binds the name. -/
def Code.Node.BindsName (source : Bytes) (statement : Node) (name : String) : Prop :=
  ∃ n part ident specifier exported isNamespace, n.Within statement ∧ part ∈ Binding.partsOf n ∧
    Binding.Introduces source part ident specifier exported isNamespace ∧ ident.name source = .ok name

namespace Indexer

/-- The statement has a `register` call in it that makes drafts. -/
def Registers (x : Indexer) (statement : Node) : Prop :=
  ∃ n, n.Within statement ∧ x.draftsAt n ≠ []

open Classical in
/-- The statements are put in another order, in which those that register keep their order, and so do those that
bind the same name. -/
structure Rearranges (x : Indexer) (statements moved : List Node) : Prop where
  all : moved.Perm statements
  registering : moved.filter (x.Registers ·) = statements.filter (x.Registers ·)
  binding : ∀ name,
    moved.filter (Node.BindsName x.source · name) = statements.filter (Node.BindsName x.source · name)

/-- What is found in a statement, below a node of some kind. -/
def ofStatement (x : Indexer) (parent : Kind) (statement : Node) : Except Utf8.Fault (List Finding) :=
  gather (fun v => (Visitor.visitAll [x.bindingVisitor, x.keyVisitor] v).outcome)
    (statement.preorder (some parent))

variable {x x' : Indexer} {root root' statement statement' : Node} {parent : Kind} {fs : List Finding}

/-- A node without a hook has the findings of its statements. -/
theorem outcome_findings (plain : Hook.ofKind? root.kind = none) :
    (x.findings root).outcome = gather (x.ofStatement root.kind) root.namedChildren := by
  have nothing : (Visitor.visitAll [x.bindingVisitor, x.keyVisitor] ⟨root, none⟩).outcome = .ok [] := by
    simp only [Visitor.visitAll, gather, Visitor.visit, plain]
    rfl
  rw [findings, Node.accept, Attempt.outcome_gather, Node.walk_eq_preorder, Node.preorder_eq, gather, nothing,
    gather_flatMap]
  show (gather (x.ofStatement root.kind) root.namedChildren >>= pure) = _
  exact bind_pure _

theorem matches_ofStatement (h : x.Alike x') (alike : Node.Alike x.source x'.source statement statement')
    (parent : Kind) :
    Matches (List.Forall₂ (Finding.Alike x.source x'.source)) (x.ofStatement parent statement)
      (x'.ofStatement parent statement') :=
  Matches.gather (alike.preorder (some parent)) fun _ _ visits => matches_visitAll h visits

theorem registers_of_mem (h : x.ofStatement parent statement = .ok fs) {d : Draft} (member : d ∈ draftsOf fs) :
    x.Registers statement := by
  rcases mem_of_gather_eq_ok h (FileIndex.mem_draftsOf.mp member) with ⟨v, met, here, visited, found⟩
  have drafted : d ∈ x.draftsAt v.node := by
    rw [← draftsOf_visitAll visited]
    exact FileIndex.mem_draftsOf.mpr found
  exact ⟨v.node, (Node.mem_preorder_iff _).mp ⟨v, met, rfl⟩, List.ne_nil_of_mem drafted⟩

theorem bindsName_of_mem (h : x.ofStatement parent statement = .ok fs) {e : String × Binding}
    (member : e ∈ bindingsOf fs) : statement.BindsName x.source e.1 := by
  rcases mem_of_gather_eq_ok h (FileIndex.mem_bindingsOf.mp member) with ⟨v, met, here, visited, found⟩
  rcases outcome_visitAll_eq_ok visited with ⟨rfl, first, second⟩
  have bound := FileIndex.mem_bindingsOf.mpr found
  rw [FileIndex.bindingsOf_append, bindingsOf_visit_keyVisitor second, List.append_nil] at bound
  have collected := Binding.collects_visit (bindingsOf_visit_bindingVisitor first)
  rcases collected.exists_of_mem bound with
    ⟨part, listed, ident, specifier, exported, isNamespace, introduces, spelled, -⟩
  exact ⟨v.node, part, ident, specifier, exported, isNamespace, (Node.mem_preorder_iff _).mp ⟨v, met, rfl⟩, listed,
    introduces, spelled⟩

/-! ## Moved statements -/

/-- Moved statements make the same drafts in the same order, and the last binding of each name stays the same. -/
theorem Rearranges.findings {statements moved : List Node} (h : x.Rearranges statements moved)
    (found : gather (x.ofStatement parent) statements = .ok fs) :
    ∃ gs, gather (x.ofStatement parent) moved = .ok gs ∧ draftsOf gs = draftsOf fs ∧
      ∀ name, lastNamed? (bindingsOf gs) name = lastNamed? (bindingsOf fs) name := by
  classical
  -- what a statement gives does not depend on its place, so it is read off the statement itself
  have each : ∀ s ∈ statements,
      x.ofStatement parent s = .ok ((x.ofStatement parent s).toOption.getD []) := by
    intro s member
    rcases succeeds_gather_iff.mp ⟨fs, found⟩ s member with ⟨here, given⟩
    rw [given]
    rfl
  have each' : ∀ s ∈ moved, x.ofStatement parent s = .ok ((x.ofStatement parent s).toOption.getD []) :=
    fun s member => each s (h.all.mem_iff.mp member)
  cases found.symm.trans (gather_eq_ok each)
  refine ⟨_, gather_eq_ok each', ?_, ?_⟩
  · rw [FileIndex.draftsOf_flatMap, FileIndex.draftsOf_flatMap]
    apply flatMap_eq_of_perm h.all h.registering
    intro s member something
    rcases List.exists_mem_of_ne_nil _ something with ⟨d, drafted⟩
    rw [decide_eq_true_eq]
    exact registers_of_mem (each s member) drafted
  · intro name
    -- only the entries under the name decide, and the statements that have some keep their order
    have keep : ∀ e : String × Binding, e.1 = name → decide (e.1 = name) = true := fun e => decide_eq_true
    apply lastNamed?_congr keep
    rw [FileIndex.bindingsOf_flatMap, FileIndex.bindingsOf_flatMap, List.filter_flatMap, List.filter_flatMap]
    apply flatMap_eq_of_perm h.all (h.binding name)
    intro s member something
    rcases List.exists_mem_of_ne_nil _ something with ⟨e, bound⟩
    rcases List.mem_filter.mp bound with ⟨bound, named⟩
    rw [decide_eq_true_eq] at named ⊢
    rw [← named]
    exact bindsName_of_mem (each s member) bound

end Indexer

/-! ## Trees that move with their text -/

namespace Code.Node

mutual

/-- The tree at another place: all its offsets are larger by `k`. -/
def shift (k : Nat) : Node → Node
  | mk label children => mk { label with start := label.start + k, stop := label.stop + k } (shiftAll k children)

/-- Some trees at another place. -/
def shiftAll (k : Nat) : List Node → List Node
  | [] => []
  | n :: rest => n.shift k :: shiftAll k rest

end

theorem children_shift (k : Nat) (n : Node) : (n.shift k).children = n.children.map (shift k) := by
  have all : ∀ ns : List Node, shiftAll k ns = ns.map (shift k) := by
    intro ns
    induction ns with
    | nil => rfl
    | cons n rest ih => rw [shiftAll, ih, List.map_cons]
  cases n with
  | mk label children => exact all children

/-- A moved tree has its bytes from the text that moves with it. -/
theorem bytes_shift {n : Node} {k width : Nat} (fits : n.stop ≤ width) (source : Bytes) :
    (n.shift k).bytes source = (((source.drop k).take width).drop n.start).take (n.stop - n.start) := by
  have start : (n.shift k).start = n.start + k := by cases n; rfl
  have stop : (n.shift k).stop = n.stop + k := by cases n; rfl
  have long : n.stop + k - (n.start + k) = n.stop - n.start := by omega
  have short : min (n.stop - n.start) (width - n.start) = n.stop - n.start := by omega
  rw [bytes, start, stop, long, List.drop_take, List.drop_drop, List.take_take, short, Nat.add_comm k]

/-- A tree that moves with its text stays alike. -/
theorem Placed.alike_shift {n : Node} (placed : n.Placed) {source source' : Bytes} {k k' width : Nat}
    (fits : n.stop ≤ width) (same : (source.drop k).take width = (source'.drop k').take width) :
    Alike source source' (n.shift k) (n.shift k') := by
  induction placed with
  | @mk label children _ inside _ _ ih =>
    refine .mk rfl rfl rfl ?_ ?_
    · rw [text, text, bytes_shift fits, bytes_shift fits, same]
    · rw [children_shift, children_shift, List.forall₂_map_left_iff, List.forall₂_map_right_iff, List.forall₂_same]
      intro c member
      exact ih c member (Nat.le_trans (inside c member).2 fits)

end Code.Node

namespace FileIndex

variable {x x' : Indexer} {root root' : Node}

/-- A file with moved statements is indexed alike. -/
theorem matches_ofTree (files : FileTree) (h : x.Alike x') (plain : Hook.ofKind? root.kind = none)
    (kind : root.kind = root'.kind) {moved : List Node} (order : x.Rearranges root.namedChildren moved)
    (alike : List.Forall₂ (Node.Alike x.source x'.source) moved root'.namedChildren) {fs : List Finding}
    (found : (x.findings root).outcome = .ok fs) :
    Matches (fun index index' => List.Forall₂ Definition.Alike index.registrations index'.registrations)
      (ofTree files x root).outcome (ofTree files x' root').outcome := by
  have statements := found
  rw [Indexer.outcome_findings plain] at statements
  rcases order.findings statements with ⟨gs, rearranged, drafts, last⟩
  -- what is found in the moved statements is found in the other tree, up to places
  have walked : Matches (List.Forall₂ (Finding.Alike x.source x'.source))
      (gather (x.ofStatement root.kind) moved) (x'.findings root').outcome := by
    rw [Indexer.outcome_findings (kind ▸ plain), ← kind]
    exact Matches.gather alike fun s s' alike => Indexer.matches_ofStatement h alike root.kind
  rcases walked.of_ok rearranged with ⟨fs', found', findings⟩
  have tables : (ImportTable.ofBindings (bindingsOf fs)).Alike (.ofBindings (bindingsOf fs')) := by
    intro name
    rw [ImportTable.get?_ofBindings, ImportTable.get?_ofBindings, ← last]
    exact rel_lastNamed? (Finding.Alike.bindings findings) name
  rw [outcome_ofTree_of_findings found, outcome_ofTree_of_findings found', ← drafts]
  have defined := Attempt.matches_mapM (Finding.Alike.drafts findings) fun _ _ alike =>
    Indexer.matches_define h files tables alike
  apply defined.bind
  intro registrations registrations' alike
  exact .ok alike

/-- On a legible tree the walk succeeds. The table of imports holds the names that the forms in the tree bind, in
the order in which they are first bound, each with its last binding. All registrations are defined with this
table, so the statements of a file may be put in another order, as long as those that register keep their order
and so do those that bind the same name: then the registrations are the same up to their places. -/
theorem registrations_use_final_imports (x : Indexer) (root : Node) :
    (root.Legible x.source → Succeeds (x.findings root).outcome) ∧
    (∀ table, ImportTable.ofTree x.source (·.range x.source) root = .ok table →
      ∃ bindings,
        (∀ collected, Collects (Binding.Part.Binds x.source (·.range x.source))
          ((root.preorder none).flatMap fun v => Binding.partsOf v.node) collected ↔ collected = bindings) ∧
        table.keys = distinct (bindings.map Prod.fst) ∧
        ∀ name b, table.get? name = some b ↔ IsLast (·.1 = name) bindings (name, b)) ∧
    (Succeeds (x.findings root).outcome →
      ∃ table, ImportTable.ofTree x.source (·.range x.source) root = .ok table ∧ ∀ files,
        (∀ index, (ofTree files x root).outcome = .ok index →
          List.Forall₂ (fun draft d => (x.define files table draft).outcome = .ok d)
            ((root.preorder none).flatMap fun v => x.draftsAt v.node) index.registrations) ∧
        ∀ x' root' moved, x.Alike x' → Hook.ofKind? root.kind = none → root.kind = root'.kind →
          x.Rearranges root.namedChildren moved →
          List.Forall₂ (Node.Alike x.source x'.source) moved root'.namedChildren →
          Matches (fun index index' => List.Forall₂ Definition.Alike index.registrations index'.registrations)
            (ofTree files x root).outcome (ofTree files x' root').outcome) := by
  refine ⟨Indexer.succeeds_findings, ?_, ?_⟩
  · intro table made
    rcases except_bind_eq_ok.mp made with ⟨bindings, walked, given⟩
    cases given
    have collects := Binding.collects_accept walked
    rw [Node.walk_eq_preorder] at collects
    refine ⟨bindings, ?_, ImportTable.keys_ofBindings bindings, ?_⟩
    · intro collected
      constructor
      · intro again
        exact again.unique (fun _ _ _ binds binds' => binds.unique binds') collects
      · rintro rfl
        exact collects
    · intro name b
      rw [ImportTable.get?_ofBindings, lastNamed?_eq_some_iff]
  · rintro ⟨fs, found⟩
    refine ⟨_, ImportTable.ofTree_of_findings found, ?_⟩
    intro files
    constructor
    · intro index indexed
      rcases ofTree_eq_ok_iff.mp indexed with ⟨fs', registrations, found', defined, rfl⟩
      cases found.symm.trans found'
      rw [← Indexer.draftsOf_findings found]
      exact Attempt.outcome_mapM_eq_ok defined
    · intro x' root' moved h plain kind order alike
      exact matches_ofTree files h plain kind order alike found

/-! ## An import that moves -/

/-- The statement `import k from './m';`. -/
def importStatement : Node :=
  .mk { kind := .importStatement, start := 0, stop := 20 } [
    .mk { kind := .importClause, start := 7, stop := 8 } [
      .mk { kind := .identifier, start := 7, stop := 8 } []],
    .mk { kind := .string, start := 14, stop := 19, field := some .source } []]

/-- The statement `container.register('a',k);`. -/
def registerStatement : Node :=
  .mk { kind := .expressionStatement, start := 0, stop := 26 } [
    .mk { kind := .call, start := 0, stop := 25 } [
      .mk { kind := .memberAccess, start := 0, stop := 18, field := some .function } [
        .mk { kind := .identifier, start := 0, stop := 9, field := some .object } [],
        .mk { kind := .propertyIdentifier, start := 10, stop := 18, field := some .property } []],
      .mk { kind := .other "arguments", start := 18, stop := 25, field := some .arguments } [
        .mk { kind := .string, start := 19, stop := 22 } [],
        .mk { kind := .identifier, start := 23, stop := 24 } []]]]

/-- The statement `const k=require('./n');`. -/
def requireStatement : Node :=
  .mk { kind := .lexicalDeclaration, start := 0, stop := 23 } [
    .mk { kind := .declarator, start := 6, stop := 22 } [
      .mk { kind := .identifier, start := 6, stop := 7, field := some .name } [],
      .mk { kind := .call, start := 8, stop := 22, field := some .value } [
        .mk { kind := .identifier, start := 8, stop := 15, field := some .function } [],
        .mk { kind := .other "arguments", start := 15, stop := 22, field := some .arguments } [
          .mk { kind := .string, start := 16, stop := 21 } []]]]]

/-- A program of some statements. -/
def programOf (statements : List Node) : Node :=
  .mk { kind := .other "program", start := 0, stop := 69 } statements

/-- A file that binds a name before and after it registers it. -/
def importFirst : Indexer where
  file := "/w/a.js"
  source := Utf8.encode "import k from './m';container.register('a',k);const k=require('./n');"
  containers := []

/-- The file with the first binding moved behind the registration. -/
def importLater : Indexer where
  file := "/w/a.js"
  source := Utf8.encode "container.register('a',k);import k from './m';const k=require('./n');"
  containers := []

theorem not_registers_importStatement : ¬ importFirst.Registers (importStatement.shift 0) := by
  rintro ⟨n, within, drafts⟩
  rcases (Node.mem_preorder_iff none).mpr within with ⟨v, met, rfl⟩
  have none : ∀ v ∈ (importStatement.shift 0).preorder none, v.node.kind ≠ .call := by decide
  exact drafts (if_neg (none v met))

theorem not_bindsName_registerStatement (name : String) :
    ¬ (registerStatement.shift 20).BindsName importFirst.source name := by
  rintro ⟨n, part, ident, specifier, exported, isNamespace, within, listed, -⟩
  rcases (Node.mem_preorder_iff none).mpr within with ⟨v, met, rfl⟩
  have none : ∀ v ∈ (registerStatement.shift 20).preorder none,
      v.node.kind ≠ .importStatement ∧ v.node.kind ≠ .declarator := by decide
  rw [Binding.partsOf, if_neg (none v met).1, if_neg (none v met).2] at listed
  cases listed

theorem rearranges_importFirst :
    importFirst.Rearranges [importStatement.shift 0, registerStatement.shift 20, requireStatement.shift 46]
      [registerStatement.shift 20, importStatement.shift 0, requireStatement.shift 46] where
  all := List.Perm.swap _ _ _
  registering := by simp [List.filter_cons, not_registers_importStatement]
  binding name := by simp [List.filter_cons, not_bindsName_registerStatement]

theorem alike_importLater :
    List.Forall₂ (Node.Alike importFirst.source importLater.source)
      [registerStatement.shift 20, importStatement.shift 0, requireStatement.shift 46]
      [registerStatement.shift 0, importStatement.shift 26, requireStatement.shift 46] := by
  have placed : registerStatement.Placed ∧ importStatement.Placed ∧ requireStatement.Placed := by
    simp [registerStatement, importStatement, requireStatement, Node.placed_mk_iff, Node.start, Node.stop, Node.label]
  rcases placed with ⟨register, imports, requires⟩
  refine .cons (register.alike_shift (Nat.le_refl 26) ?_) (.cons (imports.alike_shift (Nat.le_refl 20) ?_)
    (.cons (requires.alike_shift (Nat.le_refl 23) ?_) .nil))
  · decide +kernel
  · decide +kernel
  · decide +kernel

/-- The definition of the key: the name that it registers was bound last to the module `./n`. -/
def boundLast : Definition where
  key := "a"
  kind := .asValue
  lifetime := none
  originFile := "/w/n.js"
  exportName := none
  range := none
  registeredIn := "/w/a.js"
  registrationRange := some ⟨⟨0, 39⟩, ⟨0, 42⟩⟩

theorem ofTree_importFirst :
    (ofTree (flat [("m.js", []), ("n.js", [])]) importFirst
        (programOf [importStatement.shift 0, registerStatement.shift 20, requireStatement.shift 46])).outcome =
      .ok { file := "/w/a.js", registrations := [boundLast] } := by
  decide +kernel

/-- The registration comes before both bindings of its name in one file and between them in the other; both files
register the export of the module that the name is bound to last. -/
theorem registrations_use_final_imports_moved :
    let moved := [registerStatement.shift 20, importStatement.shift 0, requireStatement.shift 46]
    let root := programOf [importStatement.shift 0, registerStatement.shift 20, requireStatement.shift 46]
    let root' := programOf [registerStatement.shift 0, importStatement.shift 26, requireStatement.shift 46]
    root.Legible importFirst.source ∧ importFirst.Rearranges root.namedChildren moved ∧
      List.Forall₂ (Node.Alike importFirst.source importLater.source) moved root'.namedChildren ∧
      (ofTree (flat [("m.js", []), ("n.js", [])]) importFirst root).outcome =
        .ok { file := "/w/a.js", registrations := [boundLast] } ∧
      ∃ index, (ofTree (flat [("m.js", []), ("n.js", [])]) importLater root').outcome = .ok index ∧
        List.Forall₂ Definition.Alike [boundLast] index.registrations := by
  intro moved root root'
  have small : importFirst.source.all (fun b => b.toNat < 0x80) = true := by decide +kernel
  have legible : root.Legible importFirst.source := by
    apply Registration.legible_of_ascii
    simpa using small
  rcases registrations_use_final_imports importFirst root with ⟨succeeds, -, registrations⟩
  rcases registrations (succeeds legible) with ⟨table, -, defined⟩
  have matched := (defined (flat [("m.js", []), ("n.js", [])])).2 importLater root' moved ⟨rfl, rfl⟩ rfl rfl
    rearranges_importFirst alike_importLater
  exact ⟨legible, rearranges_importFirst, alike_importLater, ofTree_importFirst, matched.of_ok ofTree_importFirst⟩

end FileIndex

end ContainerKeys
