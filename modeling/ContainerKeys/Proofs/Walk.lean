import ContainerKeys.Code.Visitor
import Mathlib.Logic.Relation

/-!
# Walks in pre-order

A walk keeps the nodes still to be met on a stack. It meets them in the order of the recursive
pre-order: a node, then all that is below its first named child, then all below the second, and so on.

* `Node.walk_eq_preorder` — the walk is the recursive pre-order.
* `Node.Within`, `Node.Below` — a node is met inside a tree, or strictly inside it.
* `Node.Placed` — the spans of a tree are nested and its siblings stand one after another.
* `Node.pairwise_preorder_iff` — what holds between any two nodes that stand apart holds all along a walk
  if and only if it holds between each node and those below it.
-/

namespace ContainerKeys.Code.Node

/-- Induction over trees: what holds of a node whenever it holds of its children holds of all. -/
theorem induction_on {motive : Node → Prop} (n : Node)
    (step : ∀ n : Node, (∀ c ∈ n.children, motive c) → motive n) : motive n := by
  induction h : n.size using Nat.strongRecOn generalizing n with
  | ind size ih =>
    apply step
    intro c hc
    exact ih c.size (h ▸ size_lt_of_mem hc) c rfl

theorem mem_children_of_mem_namedChildren {n c : Node} (h : c ∈ n.namedChildren) : c ∈ n.children :=
  (List.mem_filter.mp h).1

/-! ## The recursive pre-order -/

mutual

/-- The visits of a recursive walk: the node, then what is below it. -/
def preorder (parent : Option Kind) : Node → List Visit
  | mk label children => ⟨mk label children, parent⟩ :: preorderAll (some label.kind) children

/-- The visits of recursive walks over the named nodes of a list. -/
def preorderAll (parent : Option Kind) : List Node → List Visit
  | [] => []
  | n :: rest => (if n.label.named then n.preorder parent else []) ++ preorderAll parent rest

end

theorem preorderAll_eq (parent : Option Kind) (ns : List Node) :
    preorderAll parent ns = (ns.filter (·.label.named)).flatMap (preorder parent) := by
  induction ns with
  | nil => rfl
  | cons n rest ih => by_cases h : n.label.named <;> simp [preorderAll, h, ih]

/-- The recursion of the pre-order, read off the named children. -/
theorem preorder_eq (parent : Option Kind) (n : Node) :
    n.preorder parent = ⟨n, parent⟩ :: n.namedChildren.flatMap (preorder (some n.kind)) := by
  cases n with
  | mk label children => rw [preorder, preorderAll_eq]; rfl

theorem flatMap_below (v : Visit) :
    (v.below.flatMap fun c => c.node.preorder c.parent) =
      v.node.namedChildren.flatMap (preorder (some v.node.kind)) := by
  rw [Visit.below, List.flatMap_map]

/-- The walk from a stack meets what is below its top, then goes on with the rest. -/
theorem walkFrom_eq_flatMap (stack : List Visit) :
    walkFrom stack = stack.flatMap fun v => v.node.preorder v.parent := by
  fun_induction walkFrom stack with
  | case1 => rfl
  | case2 v rest ih =>
    -- the children go on top of the stack, so what is below `v` comes before the rest
    rw [ih, List.flatMap_append, flatMap_below, List.flatMap_cons, preorder_eq v.parent v.node,
      List.cons_append]

theorem walk_eq_preorder (root : Node) : root.walk = root.preorder none := by
  rw [walk, walkFrom_eq_flatMap, List.flatMap_cons, List.flatMap_nil, List.append_nil]

/-! ## Nodes inside a tree -/

/-- The node `m` is met on a walk over `n`. -/
def Within (m n : Node) : Prop :=
  Relation.ReflTransGen (fun c p : Node => c ∈ p.namedChildren) m n

/-- The node `m` is met on a walk over `n`, below `n` itself. -/
def Below (m n : Node) : Prop :=
  Relation.TransGen (fun c p : Node => c ∈ p.namedChildren) m n

theorem below_iff {m n : Node} : m.Below n ↔ ∃ c ∈ n.namedChildren, m.Within c := by
  constructor
  · intro h
    obtain ⟨c, hm, hc⟩ := Relation.TransGen.tail'_iff.mp h
    exact ⟨c, hc, hm⟩
  · rintro ⟨c, hc, hm⟩
    exact Relation.TransGen.tail'_iff.mpr ⟨c, hm, hc⟩

theorem within_iff {m n : Node} : m.Within n ↔ m = n ∨ m.Below n := by
  rw [below_iff]
  constructor
  · intro h
    rcases Relation.ReflTransGen.cases_tail h with h | ⟨c, hm, hc⟩
    · exact Or.inl h.symm
    · exact Or.inr ⟨c, hc, hm⟩
  · rintro (rfl | ⟨c, hc, hm⟩)
    · exact Relation.ReflTransGen.refl
    · exact Relation.ReflTransGen.tail hm hc

/-- The nodes that a walk meets are those within the tree. -/
theorem mem_preorder_iff {m n : Node} (parent : Option Kind) :
    (∃ v ∈ n.preorder parent, v.node = m) ↔ m.Within n := by
  induction n using induction_on generalizing parent with
  | step n ih =>
    rw [preorder_eq, within_iff, below_iff]
    constructor
    · rintro ⟨v, hv, rfl⟩
      rcases List.mem_cons.mp hv with rfl | hv
      · exact Or.inl rfl
      · obtain ⟨c, hc, hv⟩ := List.mem_flatMap.mp hv
        exact Or.inr ⟨c, hc,
          (ih c (mem_children_of_mem_namedChildren hc) _).mp ⟨v, hv, rfl⟩⟩
    · rintro (rfl | ⟨c, hc, hm⟩)
      · exact ⟨_, List.mem_cons_self, rfl⟩
      · obtain ⟨v, hv, rfl⟩ := (ih c (mem_children_of_mem_namedChildren hc) (some n.kind)).mpr hm
        exact ⟨v, List.mem_cons_of_mem _ (List.mem_flatMap.mpr ⟨c, hc, hv⟩), rfl⟩

/-! ## Spans -/

/-- The spans of a tree are laid out as in a text: a node spans its children, which stand one after
another. -/
inductive Placed : Node → Prop
  | mk {label : Label} {children : List Node}
      (span : label.start ≤ label.stop)
      (inside : ∀ c ∈ children, label.start ≤ c.start ∧ c.stop ≤ label.stop)
      (apart : children.Pairwise fun a b => a.stop ≤ b.start)
      (below : ∀ c ∈ children, c.Placed) :
      Placed (.mk label children)

theorem placed_mk_iff {label : Label} {children : List Node} :
    (mk label children).Placed ↔ label.start ≤ label.stop ∧
      (∀ c ∈ children, label.start ≤ c.start ∧ c.stop ≤ label.stop) ∧
      (children.Pairwise fun a b => a.stop ≤ b.start) ∧ ∀ c ∈ children, c.Placed := by
  constructor
  · rintro ⟨span, inside, apart, below⟩
    exact ⟨span, inside, apart, below⟩
  · rintro ⟨span, inside, apart, below⟩
    exact .mk span inside apart below

namespace Placed

theorem start_le_stop {n : Node} (h : n.Placed) : n.start ≤ n.stop := by
  cases h with
  | mk span _ _ _ => exact span

theorem child {n c : Node} (h : n.Placed) (hc : c ∈ n.children) :
    c.Placed ∧ n.start ≤ c.start ∧ c.stop ≤ n.stop := by
  cases h with
  | mk _ inside _ below => exact ⟨below c hc, inside c hc⟩

theorem namedChildren_apart {n : Node} (h : n.Placed) :
    n.namedChildren.Pairwise fun a b => a.stop ≤ b.start := by
  cases h with
  | mk _ _ apart _ => exact apart.filter _

theorem within {m n : Node} (h : n.Placed) (hm : m.Within n) :
    m.Placed ∧ n.start ≤ m.start ∧ m.stop ≤ n.stop := by
  induction hm with
  | refl => exact ⟨h, Nat.le_refl _, Nat.le_refl _⟩
  | tail _ hc ih =>
    obtain ⟨placed, start, stop⟩ := h.child (mem_children_of_mem_namedChildren hc)
    obtain ⟨hm, start', stop'⟩ := ih placed
    exact ⟨hm, Nat.le_trans start start', Nat.le_trans stop' stop⟩

end Placed

/-- What holds between nodes that stand apart in the text holds all along a walk if and only if it
holds between each node and those below it. -/
theorem pairwise_preorder_iff {P : Node → Node → Prop}
    (standApart : ∀ a b : Node, a.Placed → b.Placed → a.stop ≤ b.start → P a b)
    {n : Node} (h : n.Placed) (parent : Option Kind) :
    (n.preorder parent).Pairwise (fun v u => P v.node u.node) ↔
      ∀ outer inner : Node, outer.Within n → inner.Below outer → P outer inner := by
  induction n using induction_on generalizing parent with
  | step n ih =>
    rw [preorder_eq, List.pairwise_cons, List.pairwise_flatMap]
    constructor
    · rintro ⟨top, each, -⟩ outer inner houter hinner
      rcases within_iff.mp houter with rfl | houter
      · obtain ⟨c, hc, hm⟩ := below_iff.mp hinner
        obtain ⟨v, hv, rfl⟩ := (mem_preorder_iff (some outer.kind)).mpr hm
        exact top v (List.mem_flatMap.mpr ⟨c, hc, hv⟩)
      · obtain ⟨c, hc, hm⟩ := below_iff.mp houter
        have member := mem_children_of_mem_namedChildren hc
        exact (ih c member (h.child member).1 _).mp (each c hc) outer inner hm hinner
    · intro all
      refine ⟨?_, ?_, ?_⟩
      -- the node itself is met before all that is below it
      · intro v hv
        obtain ⟨c, hc, hv⟩ := List.mem_flatMap.mp hv
        have hm : v.node.Within c := (mem_preorder_iff _).mp ⟨v, hv, rfl⟩
        exact all n v.node (within_iff.mpr (Or.inl rfl)) (below_iff.mpr ⟨c, hc, hm⟩)
      · intro c hc
        have member := mem_children_of_mem_namedChildren hc
        apply (ih c member (h.child member).1 _).mpr
        intro outer inner houter hinner
        exact all outer inner (within_iff.mpr (Or.inr (below_iff.mpr ⟨c, hc, houter⟩))) hinner
      -- trees below different children stand apart as a whole
      · apply h.namedChildren_apart.imp_of_mem
        intro a b ha hb hab v hv u hu
        have placedA := (h.child (mem_children_of_mem_namedChildren ha)).1
        have placedB := (h.child (mem_children_of_mem_namedChildren hb)).1
        obtain ⟨hv, -, stop⟩ := placedA.within ((mem_preorder_iff _).mp ⟨v, hv, rfl⟩)
        obtain ⟨hu, start, -⟩ := placedB.within ((mem_preorder_iff _).mp ⟨u, hu, rfl⟩)
        exact standApart v.node u.node hv hu (Nat.le_trans stop (Nat.le_trans hab start))

end ContainerKeys.Code.Node
