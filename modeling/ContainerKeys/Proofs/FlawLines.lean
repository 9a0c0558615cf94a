import ContainerKeys.Code.Grammar
import ContainerKeys.Proofs.Walk
import Mathlib.Data.List.Basic

/-!
# The line of the first flaw

A text that the parser had to mend is refused with a line: that of the first flaw of its tree. The search
for it keeps the trees still to be searched on a stack and does not open a tree without a flaw. It finds
what a search through all nodes finds, one after another, those without a name included.

* `Node.nodes` — all nodes of a tree in pre-order.
* `Node.hasFlaw_iff` — a tree has a flaw just if one of its nodes is one.
* `Node.firstFlawFrom_eq_find?` — the search from a stack.
* `flawLine_of_hasFlaw` — the line that a tree is refused with.
-/

namespace ContainerKeys.Code

namespace Node

/-! ## All nodes -/

mutual

/-- The nodes of a tree: the node itself, then those below its first child, and so on. -/
def nodes : Node → List Node
  | mk label children => mk label children :: nodesAll children

/-- The nodes of a list of trees. -/
def nodesAll : List Node → List Node
  | [] => []
  | n :: rest => n.nodes ++ nodesAll rest

end

theorem nodesAll_eq (ns : List Node) : nodesAll ns = ns.flatMap nodes := by
  induction ns with
  | nil => rfl
  | cons n rest ih => rw [nodesAll, ih, List.flatMap_cons]

/-- The recursion of the pre-order, read off the children. -/
theorem nodes_eq (n : Node) : n.nodes = n :: n.children.flatMap nodes := by
  cases n with
  | mk label children => rw [nodes, nodesAll_eq]; rfl

/-! ## Trees with flaws -/

theorem hasFlawAll_eq (ns : List Node) : hasFlawAll ns = ns.any hasFlaw := by
  induction ns with
  | nil => rfl
  | cons n rest ih => rw [hasFlawAll, ih, List.any_cons]

theorem hasFlaw_eq (n : Node) : n.hasFlaw = (n.isFlaw || n.children.any hasFlaw) := by
  cases n with
  | mk label children => rw [hasFlaw, hasFlawAll_eq]; rfl

/-- A tree has a flaw just if one of its nodes is one. -/
theorem hasFlaw_iff (n : Node) : n.hasFlaw = true ↔ ∃ m ∈ n.nodes, m.isFlaw = true := by
  induction n using induction_on with
  | step n ih =>
    rw [hasFlaw_eq, nodes_eq, Bool.or_eq_true, List.any_eq_true, List.exists_mem_cons_iff]
    apply or_congr_right
    simp only [List.mem_flatMap]
    constructor
    · rintro ⟨c, child, flawed⟩
      obtain ⟨m, below, flaw⟩ := (ih c child).mp flawed
      exact ⟨m, ⟨c, child, below⟩, flaw⟩
    · rintro ⟨m, ⟨c, child, below⟩, flaw⟩
      exact ⟨c, child, (ih c child).mpr ⟨m, below, flaw⟩⟩

/-! ## The search -/

theorem find?_nodes_of_sound {n : Node} (sound : ¬ n.hasFlaw = true) : n.nodes.find? isFlaw = none := by
  rw [List.find?_eq_none]
  intro m below flaw
  exact sound ((hasFlaw_iff n).mpr ⟨m, below, flaw⟩)

/-- The search from a stack finds the first flaw of the trees on it, from the top down. -/
theorem firstFlawFrom_eq_find? (stack : List Node) :
    firstFlawFrom stack = (stack.flatMap nodes).find? isFlaw := by
  fun_induction firstFlawFrom stack with
  | case1 => rfl
  | case2 n rest flaw =>
    rw [List.flatMap_cons, nodes_eq, List.cons_append, List.find?_cons_of_pos flaw]
  | case3 n rest plain _ ih =>
    -- the node itself is no flaw, and its children take its place on the stack
    rw [ih, List.flatMap_append, List.flatMap_cons, nodes_eq n, List.cons_append,
      List.find?_cons_of_neg plain]
  | case4 n rest _ sound ih =>
    -- nothing is missed in a tree that is not opened
    rw [ih, List.flatMap_cons, List.find?_append, find?_nodes_of_sound sound, Option.none_or]

theorem firstFlaw?_eq_find? (root : Node) : root.firstFlaw? = root.nodes.find? isFlaw := by
  rw [firstFlaw?, firstFlawFrom_eq_find?, List.flatMap_cons, List.flatMap_nil, List.append_nil]

/-- In a tree with a flaw the search ends at one, and no node before it is one. -/
theorem exists_firstFlaw? {root : Node} (flawed : root.hasFlaw = true) :
    ∃ before n after, root.nodes = before ++ n :: after ∧ n.isFlaw = true ∧
      (∀ m ∈ before, ¬ m.isFlaw = true) ∧ root.firstFlaw? = some n := by
  obtain ⟨m, below, flaw⟩ := (hasFlaw_iff root).mp flawed
  have found : (root.nodes.find? isFlaw).isSome = true := List.find?_isSome.mpr ⟨m, below, flaw⟩
  obtain ⟨n, found⟩ := Option.isSome_iff_exists.mp found
  obtain ⟨flaw, before, after, split, none⟩ := List.find?_eq_some_iff_append.mp found
  refine ⟨before, n, after, split, flaw, ?_, by rw [firstFlaw?_eq_find?, found]⟩
  intro m earlier
  simpa using none m earlier

end Node

theorem parse_of_hasFlaw {parser : Parser} {path : Path} {source : Bytes} {grammar : Grammar}
    (known : Grammar.ofExtension? (Path.extension path) = some grammar)
    (flawed : (parser grammar source).hasFlaw = true) :
    parse parser path source = .error (.flaw (flawLine source (parser grammar source))) := by
  rw [parse, known]
  exact if_pos flawed

/-- A tree with a flaw is refused with the line of the first node, in the pre-order of all nodes, that is an
error or was put in by the parser. The search finds that node, so the line of the root never stands in for
it. Here a node has a flaw just if it is one or a node below it is. -/
theorem flawLine_of_hasFlaw (source : Bytes) (root : Node) (flawed : root.hasFlaw = true) :
    (∀ n ∈ root.nodes, n.hasFlaw = true ↔ ∃ m ∈ n.nodes, m.isFlaw = true) ∧
      ∃ before n after, root.nodes = before ++ n :: after ∧ n.isFlaw = true ∧
        (∀ m ∈ before, ¬ m.isFlaw = true) ∧ root.firstFlaw? = some n ∧
        flawLine source root = rowOf source n.start + 1 ∧
        ∀ (parser : Parser) (path : Path) (grammar : Grammar),
          Grammar.ofExtension? (Path.extension path) = some grammar → parser grammar source = root →
            parse parser path source = .error (.flaw (rowOf source n.start + 1)) := by
  refine ⟨fun n _ => Node.hasFlaw_iff n, ?_⟩
  obtain ⟨before, n, after, split, flaw, none, found⟩ := Node.exists_firstFlaw? flawed
  have line : flawLine source root = rowOf source n.start + 1 := by rw [flawLine, found, Option.getD_some]
  refine ⟨before, n, after, split, flaw, none, found, line, ?_⟩
  rintro parser path grammar known rfl
  rw [parse_of_hasFlaw known flawed, line]

/-- A text whose second call is not closed and whose third line is no statement. -/
def unclosedCall : Bytes :=
  Utf8.encode "f(1);\ng(2;\n@"

/-- Its tree, with a parenthesis of no width put in. -/
def unclosedCallTree : Node :=
  .mk { kind := .other "program", start := 0, stop := 12 } [
    .mk { kind := .expressionStatement, start := 0, stop := 5 } [
      .mk { kind := .call, start := 0, stop := 4 } [
        .mk { kind := .identifier, start := 0, stop := 1, field := some .function } [],
        .mk { kind := .other "arguments", start := 1, stop := 4, field := some .arguments } [
          .mk { kind := .other "number", start := 2, stop := 3 } []]]],
    .mk { kind := .expressionStatement, start := 6, stop := 10 } [
      .mk { kind := .call, start := 6, stop := 9 } [
        .mk { kind := .identifier, start := 6, stop := 7, field := some .function } [],
        .mk { kind := .other "arguments", start := 7, stop := 9, field := some .arguments } [
          .mk { kind := .other "number", start := 8, stop := 9 } [],
          .mk { kind := .other ")", start := 9, stop := 9, named := false, missing := true } []]]],
    .mk { kind := .error, start := 11, stop := 12 } []]

theorem flawLine_unclosedCall : flawLine unclosedCall unclosedCallTree = 2 := by
  decide +kernel

/-- The parenthesis that was put in on the second line comes before the error on the third. -/
theorem flawLine_of_hasFlaw_unclosed :
    unclosedCallTree.hasFlaw = true ∧
      (∃ n ∈ unclosedCallTree.nodes, n.isFlaw = true ∧ unclosedCallTree.firstFlaw? = some n ∧
        rowOf unclosedCall n.start + 1 = 2) ∧
      parse (fun _ _ => unclosedCallTree) "/w/a.js" unclosedCall = .error (.flaw 2) := by
  have flawed : unclosedCallTree.hasFlaw = true := by decide
  have known : Grammar.ofExtension? (Path.extension "/w/a.js") = some .javaScript := by decide
  obtain ⟨-, before, n, after, split, flaw, -, found, line, refused⟩ :=
    flawLine_of_hasFlaw unclosedCall unclosedCallTree flawed
  rw [flawLine_unclosedCall] at line
  refine ⟨flawed, ⟨n, by rw [split]; simp, flaw, found, line.symm⟩, ?_⟩
  rw [refused (fun _ _ => unclosedCallTree) "/w/a.js" .javaScript known rfl, ← line]

end ContainerKeys.Code
