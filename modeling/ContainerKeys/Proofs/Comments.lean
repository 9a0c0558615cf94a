import ContainerKeys.Code.Shape
import Mathlib.Data.List.Basic

/-!
# Comments beside what is read

Comments come in two kinds: plain ones, and those in the signs of markup, which have a kind of their own.
What reads an expression off parentheses or the arguments off a call leaves out plain comments only. So a
comment in the signs of markup does no harm behind what is read, and takes its place before it.

* `Node.IsComment` — a comment of either kind.
* `Node.LedByMarkup` — nodes off which such a comment is read first.
* `Node.Encloses`, `Node.bare?` — an expression in parentheses, and one without any.
* `Node.Veiled` — parentheses in which a comment is read in place of the expression.
* `Node.operands` — the arguments of a call without comments.
* `Node.Obscured` — calls with a comment among the arguments that are read first.
-/

namespace ContainerKeys.Code

/-- The kind of comments in the signs of markup, which have a kind of their own. -/
def Kind.markupComment : Kind := .other "html_comment"

namespace Node

/-- The node is a comment, a plain one or one in the signs of markup. -/
def IsComment (n : Node) : Prop :=
  n.kind = .comment ∨ n.kind = .markupComment

instance : DecidablePred IsComment := fun n =>
  inferInstanceAs (Decidable (n.kind = .comment ∨ n.kind = .markupComment))

variable {n m c inside : Node}

/-- The first that is no plain comment is the first that is no comment, unless it is one itself. -/
theorem find?_not_isComment {l : List Node} (found : l.find? (·.kind ≠ .comment) = some c)
    (expression : ¬ c.IsComment) : l.find? (¬ ·.IsComment) = some c := by
  rw [List.find?_eq_some_iff_append] at found ⊢
  obtain ⟨-, before, after, split, comments⟩ := found
  refine ⟨by simpa using expression, before, after, split, ?_⟩
  intro a member
  have plain : a.kind = .comment := by simpa using comments a member
  simp [IsComment, plain]

theorem head?_parts (n : Node) : n.parts.head? = n.namedChildren.find? (·.kind ≠ .comment) :=
  List.head?_filter

/-- What comes first in the node, plain comments left out, is a comment in the signs of markup. -/
def LedByMarkup (n : Node) : Prop :=
  n.parts.head?.map kind = some .markupComment

instance : DecidablePred LedByMarkup := fun n =>
  inferInstanceAs (Decidable (n.parts.head?.map kind = some .markupComment))

/-- What is read first is the first that is no comment, unless a comment leads. -/
theorem head?_parts_eq (clear : ¬ n.LedByMarkup) :
    n.parts.head? = n.namedChildren.find? (¬ ·.IsComment) := by
  cases first : n.parts.head? with
  | none =>
    rw [head?_parts, List.find?_eq_none] at first
    symm
    rw [List.find?_eq_none]
    intro c member
    have plain : c.kind = .comment := by simpa using first c member
    simp [IsComment, plain]
  | some c =>
    have found := first
    rw [head?_parts] at found
    have other : c.kind ≠ .comment := by simpa using List.find?_some found
    have expression : ¬ c.IsComment := by
      rintro (plain | markup)
      · exact other plain
      · exact clear (by rw [LedByMarkup, first, Option.map_some, markup])
    exact (find?_not_isComment found expression).symm

/-! ## Parentheses -/

/-- The node puts `inside` in parentheses: it stands first in them, comments left out. -/
structure Encloses (n inside : Node) : Prop where
  kind : n.kind = .parenthesized
  first : n.namedChildren.find? (¬ ·.IsComment) = some inside

/-- The node puts something in parentheses, and what is read off them is a comment. -/
structure Veiled (n : Node) : Prop where
  kind : n.kind = .parenthesized
  led : n.LedByMarkup

instance : DecidablePred Veiled := fun n =>
  decidable_of_iff (n.kind = .parenthesized ∧ n.LedByMarkup) ⟨fun h => ⟨h.1, h.2⟩, fun h => ⟨h.1, h.2⟩⟩

theorem not_veiled_of_call (kind : n.kind = .call) : ¬ n.Veiled := by
  rintro ⟨parens, -⟩
  rw [kind] at parens
  cases parens

theorem Encloses.mem (encloses : n.Encloses inside) : inside ∈ n.namedChildren :=
  List.mem_of_find?_eq_some encloses.first

/-- What is read off parentheses is what they enclose, unless it is a comment. -/
theorem encloses_of_head?_parts (kind : n.kind = .parenthesized) (first : n.parts.head? = some inside)
    (expression : ¬ inside.IsComment) : n.Encloses inside := by
  rw [head?_parts] at first
  exact ⟨kind, find?_not_isComment first expression⟩

/-- What is read off parentheses is what they enclose, unless they are veiled. -/
theorem Encloses.head?_parts (encloses : n.Encloses inside) (unveiled : ¬ n.Veiled) :
    n.parts.head? = some inside := by
  rw [head?_parts_eq fun led => unveiled ⟨encloses.kind, led⟩, encloses.first]

/-- The comment that is read off veiled parentheses. -/
theorem Veiled.exists_comment (veiled : n.Veiled) :
    ∃ c, n.parts.head? = some c ∧ c.kind = .markupComment :=
  Option.map_eq_some_iff.mp veiled.led

theorem unwrap_of_not_parenthesized (bare : n.kind ≠ .parenthesized) : n.unwrap = some n := by
  rw [unwrap, if_neg bare]

theorem unwrap_of_head?_parts (kind : n.kind = .parenthesized) (first : n.parts.head? = some inside) :
    n.unwrap = inside.unwrap := by
  rw [unwrap, if_pos kind]
  split
  · rename_i found
    rw [first] at found
    cases found
    rfl
  · rename_i found
    rw [first] at found
    cases found

theorem Encloses.unwrap_eq (encloses : n.Encloses inside) (unveiled : ¬ n.Veiled) :
    n.unwrap = inside.unwrap :=
  unwrap_of_head?_parts encloses.kind (encloses.head?_parts unveiled)

/-- From veiled parentheses the comment is left. -/
theorem Veiled.exists_unwrap (veiled : n.Veiled) : ∃ c, n.unwrap = some c ∧ c.kind = .markupComment := by
  obtain ⟨c, first, markup⟩ := veiled.exists_comment
  have bare : c.kind ≠ .parenthesized := by
    rw [markup]
    decide
  exact ⟨c, (unwrap_of_head?_parts veiled.1 first).trans (unwrap_of_not_parenthesized bare), markup⟩

/-- The node without any parentheses around it. -/
def bare? (n : Node) : Option Node :=
  if n.kind = .parenthesized then
    match _h : n.namedChildren.find? (¬ ·.IsComment) with
    | some inner => inner.bare?
    | none => none
  else some n
termination_by n.size
decreasing_by exact size_lt_of_mem (List.mem_filter.mp (List.mem_of_find?_eq_some _h)).1

/-- The node is `m` in any number of parentheses. -/
inductive Wraps : Node → Node → Prop
  | bare (m : Node) : Wraps m m
  | parens {n inside m : Node} (encloses : n.Encloses inside) (inner : Wraps inside m) : Wraps n m

/-- What is left without the parentheses is the bare node, unless some of them are veiled. -/
theorem unwrap_eq_bare? (unveiled : ∀ p, n.Wraps p → ¬ p.Veiled) : n.unwrap = n.bare? := by
  fun_induction bare? n with
  | case1 n kind inner first ih =>
    have encloses : n.Encloses inner := ⟨kind, first⟩
    rw [encloses.unwrap_eq (unveiled n (.bare n))]
    exact ih fun p wraps => unveiled p (.parens encloses wraps)
  | case2 n kind empty =>
    have nothing : n.parts.head? = none := by
      rw [head?_parts_eq fun led => unveiled n (.bare n) ⟨kind, led⟩, empty]
    rw [unwrap, if_pos kind]
    split
    · rename_i found
      rw [nothing] at found
      cases found
    · rfl
  | case3 n bare => exact unwrap_of_not_parenthesized bare

/-! ## Arguments -/

/-- The arguments of a call, comments of both kinds left out. -/
def operands (n : Node) : List Node :=
  ((n.child? .arguments).elim [] namedChildren).filter (¬ ·.IsComment)

/-- Among the first `k` arguments of the call, plain comments left out, is a comment in the signs of
markup. -/
def Obscured (n : Node) (k : Nat) : Prop :=
  ∃ c ∈ n.arguments.take k, c.kind = .markupComment

instance (n : Node) (k : Nat) : Decidable (n.Obscured k) :=
  inferInstanceAs (Decidable (∃ c ∈ n.arguments.take k, c.kind = .markupComment))

theorem operands_eq (n : Node) : n.operands = n.arguments.filter (¬ ·.IsComment) := by
  unfold operands arguments
  cases n.child? .arguments with
  | none => rfl
  | some args =>
    show args.namedChildren.filter _ = (args.namedChildren.filter _).filter _
    rw [List.filter_filter]
    apply List.filter_congr
    intro c _
    by_cases plain : c.kind = .comment
    · simp [IsComment, plain]
    · simp [plain]

theorem not_isComment_of_mem_operands (member : c ∈ n.operands) : ¬ c.IsComment := by
  rw [operands_eq, List.mem_filter] at member
  simpa using member.2

/-- An argument is smaller than its call. -/
theorem size_lt_of_mem_operands (member : c ∈ n.operands) : c.size < n.size := by
  unfold operands at member
  cases found : n.child? .arguments with
  | none =>
    rw [found] at member
    cases member
  | some args =>
    rw [found] at member
    have part : c ∈ args.namedChildren := (List.mem_filter.mp member).1
    have inner : c.size < args.size := size_lt_of_mem (List.mem_filter.mp part).1
    exact Nat.lt_trans inner (size_child_lt found)

/-- The arguments that are read first are those of the call, unless it is obscured there. -/
theorem take_arguments {k : Nat} (clear : ¬ n.Obscured k) : n.arguments.take k = n.operands.take k := by
  have kept : (n.arguments.take k).filter (¬ ·.IsComment) = n.arguments.take k := by
    apply List.filter_eq_self.mpr
    intro c member
    have plain : c.kind ≠ .comment := by
      have part := List.mem_of_mem_take member
      unfold arguments at part
      split at part
      · simpa using (List.mem_filter.mp part).2
      · cases part
    have markup : c.kind ≠ .markupComment := fun markup => clear ⟨c, member, markup⟩
    simp [IsComment, plain, markup]
  rw [operands_eq, ← List.take_append_drop k n.arguments, List.filter_append, kept,
    List.take_append_drop]
  by_cases short : n.arguments.length ≤ k
  · rw [List.drop_of_length_le short, List.filter_nil, List.append_nil, List.take_take, Nat.min_self]
  · have length : (n.arguments.take k).length = k := by
      rw [List.length_take]
      omega
    rw [List.take_append_of_le_length (Nat.le_of_eq length.symm), List.take_take, Nat.min_self]

theorem head?_arguments (clear : ¬ n.Obscured 1) : n.arguments.head? = n.operands.head? := by
  have first := congrArg List.head? (take_arguments clear)
  rwa [List.head?_take, List.head?_take, if_neg Nat.one_ne_zero, if_neg Nat.one_ne_zero] at first

/-- The first argument is read, and what is read behind it holds the others. -/
theorem exists_arguments_eq_cons {first : Node} {rest : List Node} (clear : ¬ n.Obscured 1)
    (operands : n.operands = first :: rest) :
    ∃ read, n.arguments = first :: read ∧ rest = read.filter (¬ ·.IsComment) := by
  have head : n.arguments.head? = some first := by
    rw [head?_arguments clear, operands]
    rfl
  obtain ⟨read, arguments⟩ := List.head?_eq_some_iff.mp head
  have kept : ¬ first.IsComment := by
    apply not_isComment_of_mem_operands (n := n)
    rw [operands]
    exact List.mem_cons_self
  rw [operands_eq, arguments, List.filter_cons_of_pos (by simpa using kept)] at operands
  exact ⟨read, arguments, (List.cons.inj operands).2.symm⟩

theorem second_arguments (clear : ¬ n.Obscured 2) :
    (n.arguments.drop 1).head? = (n.operands.drop 1).head? := by
  have second := congrArg (·[1]?) (take_arguments clear)
  simpa [List.getElem?_take, List.head?_drop] using second

theorem Obscured.mono {j k : Nat} (obscured : n.Obscured j) (le : j ≤ k) : n.Obscured k := by
  obtain ⟨c, member, markup⟩ := obscured
  exact ⟨c, (List.take_subset_take_left n.arguments le) member, markup⟩

/-- The comment that is read off an obscured call in place of its first argument. -/
theorem Obscured.exists_comment (obscured : n.Obscured 1) :
    ∃ c, n.arguments.head? = some c ∧ c.kind = .markupComment := by
  obtain ⟨c, member, markup⟩ := obscured
  refine ⟨c, ?_, markup⟩
  cases args : n.arguments with
  | nil =>
    rw [args] at member
    cases member
  | cons a rest =>
    rw [args] at member
    cases List.mem_singleton.mp member
    rfl

end Node

end ContainerKeys.Code
