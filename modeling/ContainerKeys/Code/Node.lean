import ContainerKeys.Code.Kind

/-!
# Syntax trees

A node has a kind, a span of bytes and children. A walk meets the named nodes of a tree in
pre-order; it keeps the nodes still to be met on a stack, so that deep trees need no deep recursion.

* `Node.size_child_lt` — a child is smaller than its node, the measure behind all descents.
* `Node.walk` — the visits of a walk from the root.
-/

namespace ContainerKeys.Code

/-- What a node says of itself. -/
structure Label where
  kind : Kind
  /-- The offset of the first byte. -/
  start : Nat
  /-- The offset after the last byte. -/
  stop : Nat
  /-- The field under which its parent holds the node. -/
  field : Option Field := none
  /-- Is it a node of its own rather than a punctuation mark or keyword? -/
  named : Bool := true
  /-- Was it put in by the parser to mend the text? -/
  missing : Bool := false
deriving DecidableEq, Repr, Inhabited

/-- A syntax tree. -/
inductive Node where
  | mk (label : Label) (children : List Node)
deriving Inhabited

namespace Node

mutual

/-- Trees are the same if their labels and children are. -/
def decEq : (m n : Node) → Decidable (m = n)
  | mk l cs, mk l' cs' =>
    match decEqAll cs cs' with
    | isTrue same => decidable_of_iff (l = l') ⟨fun h => h ▸ same ▸ rfl, fun h => (mk.inj h).1⟩
    | isFalse other => isFalse fun h => other (mk.inj h).2

def decEqAll : (ms ns : List Node) → Decidable (ms = ns)
  | [], [] => isTrue rfl
  | [], _ :: _ => isFalse nofun
  | _ :: _, [] => isFalse nofun
  | m :: ms, n :: ns =>
    match decEq m n, decEqAll ms ns with
    | isTrue first, isTrue rest => isTrue (first ▸ rest ▸ rfl)
    | isFalse other, _ => isFalse fun h => other (List.cons.inj h).1
    | _, isFalse other => isFalse fun h => other (List.cons.inj h).2

end

instance : DecidableEq Node := decEq

/-- What the node says of itself. -/
def label : Node → Label
  | mk label _ => label

/-- The children, in the order of the text. -/
def children : Node → List Node
  | mk _ children => children

/-- The kind of the node. -/
def kind (n : Node) : Kind := n.label.kind

/-- The offset of the node's first byte. -/
def start (n : Node) : Nat := n.label.start

/-- The offset after the node's last byte. -/
def stop (n : Node) : Nat := n.label.stop

/-- The children that are nodes of their own. -/
def namedChildren (n : Node) : List Node :=
  n.children.filter (·.label.named)

/-- The named children that are no comments. -/
def parts (n : Node) : List Node :=
  n.namedChildren.filter (·.kind ≠ .comment)

/-- The first child under a field. -/
def child? (n : Node) (field : Field) : Option Node :=
  n.children.find? (·.label.field = some field)

/-! ## Size -/

mutual

/-- The number of nodes of a tree. -/
def size : Node → Nat
  | mk _ children => sizeAll children + 1

/-- The number of nodes of a list of trees. -/
def sizeAll : List Node → Nat
  | [] => 0
  | n :: rest => n.size + sizeAll rest

end

@[simp] theorem sizeAll_nil : sizeAll [] = 0 := rfl

@[simp] theorem sizeAll_cons (n : Node) (rest : List Node) :
    sizeAll (n :: rest) = n.size + sizeAll rest := rfl

@[simp] theorem sizeAll_append (xs ys : List Node) :
    sizeAll (xs ++ ys) = sizeAll xs + sizeAll ys := by
  induction xs with
  | nil => simp
  | cons n rest ih => simp [ih]; omega

theorem size_eq (n : Node) : n.size = sizeAll n.children + 1 := by
  cases n; rfl

theorem sizeAll_filter_le (p : Node → Bool) (ns : List Node) :
    sizeAll (ns.filter p) ≤ sizeAll ns := by
  induction ns with
  | nil => simp
  | cons n rest ih =>
    by_cases h : p n <;> simp [h] <;> omega

theorem size_le_of_mem {n : Node} {ns : List Node} (h : n ∈ ns) : n.size ≤ sizeAll ns := by
  induction ns with
  | nil => simp at h
  | cons m rest ih =>
    rcases List.mem_cons.mp h with rfl | h
    · simp
    · have := ih h; simp; omega

/-- A child is smaller than its node. -/
theorem size_lt_of_mem {n c : Node} (h : c ∈ n.children) : c.size < n.size := by
  have := size_le_of_mem h
  rw [size_eq n]; omega

/-- The child under a field is smaller than its node. -/
theorem size_child_lt {n c : Node} {field : Field} (h : n.child? field = some c) :
    c.size < n.size :=
  size_lt_of_mem (List.mem_of_find?_eq_some h)

/-- The first part is smaller than its node. -/
theorem size_head_parts_lt {n c : Node} (h : n.parts.head? = some c) : c.size < n.size := by
  have hc : c ∈ n.parts := List.mem_of_head? h
  exact size_lt_of_mem (List.mem_filter.mp (List.mem_filter.mp hc).1).1

theorem sizeAll_namedChildren_lt (n : Node) : sizeAll n.namedChildren < n.size := by
  have := sizeAll_filter_le (·.label.named) n.children
  rw [size_eq n, namedChildren]; omega

/-! ## Walks -/

/-- A node met on a walk, with the kind of its parent. -/
structure Visit where
  node : Node
  parent : Option Kind := none

/-- The visits of the node's named children. -/
def Visit.below (v : Visit) : List Visit :=
  v.node.namedChildren.map fun c => ⟨c, some v.node.kind⟩

/-- The visits from a stack of nodes still to be met: the top one, then those below it, then the
rest of the stack. -/
def walkFrom : List Visit → List Visit
  | [] => []
  | v :: rest => v :: walkFrom (v.below ++ rest)
termination_by stack => sizeAll (stack.map Visit.node)
decreasing_by
  have h := sizeAll_namedChildren_lt v.node
  have e : (v.below.map Visit.node) = v.node.namedChildren := by
    simp [Visit.below, Function.comp_def]
  simp [e]; omega

/-- The visits of the named nodes of a tree, in pre-order. -/
def walk (root : Node) : List Visit :=
  walkFrom [⟨root, none⟩]

/-! ## Errors -/

/-- Is the node an error or put in by the parser? -/
def isFlaw (n : Node) : Bool :=
  n.kind = .error || n.label.missing

mutual

/-- Is there an error in the tree? -/
def hasFlaw : Node → Bool
  | mk label children => label.kind = .error || label.missing || hasFlawAll children

/-- Is there an error in one of the trees? -/
def hasFlawAll : List Node → Bool
  | [] => false
  | n :: rest => n.hasFlaw || hasFlawAll rest

end

/-- The first error on a stack of trees; trees without one are passed over unopened. -/
def firstFlawFrom : List Node → Option Node
  | [] => none
  | n :: rest =>
    if n.isFlaw then some n
    else if n.hasFlaw then firstFlawFrom (n.children ++ rest)
    else firstFlawFrom rest
termination_by stack => sizeAll stack
decreasing_by
  · have := size_eq n; simp; omega
  · have := size_eq n; simp; omega

/-- The first error of a tree in pre-order. -/
def firstFlaw? (root : Node) : Option Node :=
  firstFlawFrom [root]

end Node

end ContainerKeys.Code
