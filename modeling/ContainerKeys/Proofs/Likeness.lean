import ContainerKeys.Proofs.Bindings

/-!
# Trees that are alike

Two trees, each with its own source, are alike if they have the same shape with the same texts; only the places
of their nodes may differ, as in a file whose statements were moved. What is read off alike trees is the same, up
to places.

* `Matches` — two computations fail alike or give related results.
* `Node.Alike` — two trees of the same shape.
* `Binding.Alike` — bindings to the same export, wherever they stand.
* `Binding.matches_ofImport`, `Binding.matches_ofDeclarator` — alike nodes contribute alike bindings.
-/

namespace ContainerKeys

open Code

/-! ## Related results -/

/-- Both computations fail with the same error, or both give results, which are related. -/
inductive Matches (R : α → β → Prop) : Except ε α → Except ε β → Prop
  | ok {a : α} {b : β} (related : R a b) : Matches R (.ok a) (.ok b)
  | error (fault : ε) : Matches R (.error fault) (.error fault)

namespace Matches

variable {R : α → β → Prop} {S : γ → δ → Prop}

theorem of_eq {x y : Except ε α} (same : x = y) : Matches Eq x y := by
  subst same
  cases x with
  | error fault => exact .error fault
  | ok a => exact .ok rfl

theorem bind {x : Except ε α} {y : Except ε β} {f : α → Except ε γ} {g : β → Except ε δ} (first : Matches R x y)
    (later : ∀ a b, R a b → Matches S (f a) (g b)) : Matches S (x >>= f) (y >>= g) := by
  cases first with
  | error fault => exact .error fault
  | ok related => exact later _ _ related

/-- Two computations that start with the same step. -/
theorem bind_eq {x y : Except ε α} {f : α → Except ε γ} {g : α → Except ε δ} (same : x = y)
    (later : ∀ a, Matches S (f a) (g a)) : Matches S (x >>= f) (y >>= g) := by
  apply (of_eq same).bind
  rintro a _ rfl
  exact later a

theorem of_ok {x : Except ε α} {y : Except ε β} (h : Matches R x y) {a : α} (given : x = .ok a) :
    ∃ b, y = .ok b ∧ R a b := by
  subst given
  cases h with
  | ok related => exact ⟨_, rfl, related⟩

theorem gather {f : α → Except ε (List γ)} {g : β → Except ε (List δ)} {l : List α} {l' : List β}
    (lists : List.Forall₂ R l l') (each : ∀ a b, R a b → Matches (List.Forall₂ S) (f a) (g b)) :
    Matches (List.Forall₂ S) (gather f l) (gather g l') := by
  induction lists with
  | nil => exact .ok .nil
  | cons related _ ih =>
    apply (each _ _ related).bind
    intro here here' hereRelated
    apply ih.bind
    intro more more' moreRelated
    exact .ok (List.rel_append hereRelated moreRelated)

theorem mapError {x : Except ε α} {y : Except ε β} (h : Matches R x y) (f : ε → ε') :
    Matches R (x.mapError f) (y.mapError f) := by
  cases h with
  | error fault => exact .error (f fault)
  | ok related => exact .ok related

end Matches

/-! ## Related lists -/

theorem forall₂_filter {R : α → β → Prop} {p : α → Bool} {q : β → Bool} {l : List α} {l' : List β}
    (h : List.Forall₂ R l l') (same : ∀ a b, R a b → p a = q b) :
    List.Forall₂ R (l.filter p) (l'.filter q) := by
  refine List.rel_filter ?_ h
  intro a b related
  exact Bool.eq_iff_iff.mp (same a b related)

theorem rel_head? {R : α → β → Prop} {l : List α} {l' : List β} (h : List.Forall₂ R l l') :
    Option.Rel R l.head? l'.head? := by
  cases h with
  | nil => exact .none
  | cons related _ => exact .some related

theorem rel_find? {R : α → β → Prop} {p : α → Bool} {q : β → Bool} {l : List α} {l' : List β}
    (h : List.Forall₂ R l l') (same : ∀ a b, R a b → p a = q b) : Option.Rel R (l.find? p) (l'.find? q) := by
  rw [← List.head?_filter, ← List.head?_filter]
  exact rel_head? (forall₂_filter h same)

theorem rel_cases {R : α → β → Prop} {a : Option α} {b : Option β} (h : Option.Rel R a b) :
    a = none ∧ b = none ∨ ∃ x y, a = some x ∧ b = some y ∧ R x y := by
  cases h with
  | none => exact .inl ⟨rfl, rfl⟩
  | some related => exact .inr ⟨_, _, rfl, rfl, related⟩

theorem rel_or {R : α → β → Prop} {a a' : Option α} {b b' : Option β} (h : Option.Rel R a b)
    (h' : Option.Rel R a' b') : Option.Rel R (a.or a') (b.or b') := by
  cases h with
  | none => exact h'
  | some related => exact .some related

theorem rel_bind {R : α → β → Prop} {S : γ → δ → Prop} {a : Option α} {b : Option β} {f : α → Option γ}
    {g : β → Option δ} (h : Option.Rel R a b) (each : ∀ a b, R a b → Option.Rel S (f a) (g b)) :
    Option.Rel S (a.bind f) (b.bind g) := by
  cases h with
  | none => exact .none
  | some related => exact each _ _ related

/-! ## Trees -/

namespace Code.Node

/-- The two trees have the same shape and the same texts, wherever they stand. -/
inductive Alike (source source' : Bytes) : Node → Node → Prop
  | mk {n n' : Node} (kind : n.kind = n'.kind) (field : n.label.field = n'.label.field)
      (named : n.label.named = n'.label.named) (text : n.text source = n'.text source')
      (children : List.Forall₂ (Alike source source') n.children n'.children) : Alike source source' n n'

namespace Alike

variable {source source' : Bytes} {n n' : Node}

theorem kind (h : Alike source source' n n') : n.kind = n'.kind := by
  cases h with
  | mk kind => exact kind

theorem text (h : Alike source source' n n') : n.text source = n'.text source' := by
  cases h with
  | mk _ _ _ text => exact text

theorem child? (h : Alike source source' n n') (field : Field) :
    Option.Rel (Alike source source') (n.child? field) (n'.child? field) := by
  cases h with
  | mk _ _ _ _ children =>
    apply rel_find? children
    intro c c' alike
    cases alike with
    | mk _ field => rw [field]

theorem namedChildren (h : Alike source source' n n') :
    List.Forall₂ (Alike source source') n.namedChildren n'.namedChildren := by
  cases h with
  | mk _ _ _ _ children =>
    apply forall₂_filter children
    intro c c' alike
    cases alike with
    | mk _ _ named => exact named

theorem parts (h : Alike source source' n n') : List.Forall₂ (Alike source source') n.parts n'.parts := by
  apply forall₂_filter h.namedChildren
  intro c c' alike
  rw [alike.kind]

theorem arguments (h : Alike source source' n n') :
    List.Forall₂ (Alike source source') n.arguments n'.arguments := by
  unfold Node.arguments
  rcases rel_cases (h.child? .arguments) with ⟨none, none'⟩ | ⟨args, args', child, child', alike⟩
  · rw [none, none']
    exact .nil
  · rw [child, child']
    exact alike.parts

/-! ## Names -/

theorem name (h : Alike source source' n n') : n.name source = n'.name source' := by
  rw [Node.name, Node.name, h.text]

theorem stringValue (h : Alike source source' n n') : n.stringValue source = n'.stringValue source' := by
  rw [Node.stringValue, Node.stringValue, h.kind, h.text]

theorem keyName (h : Alike source source' n n') : n.keyName source = n'.keyName source' := by
  rw [Node.keyName, Node.keyName, h.kind, h.name, h.stringValue]

theorem memberName (h : Alike source source' n n') : n.memberName source = n'.memberName source' := by
  rw [Node.memberName, Node.memberName, h.kind]
  rcases rel_cases (h.child? .property) with ⟨none, none'⟩ | ⟨property, property', child, child', alike⟩
  · rw [none, none']
  · simp only [child, child', alike.kind, alike.name]

theorem isIdentifier (h : Alike source source' n n') : n.isIdentifier = n'.isIdentifier := by
  rw [Node.isIdentifier, Node.isIdentifier, h.kind]

theorem isCradleAccess (h : Alike source source' n n') : n.isCradleAccess source = n'.isCradleAccess source' := by
  rw [Node.isCradleAccess, Node.isCradleAccess, h.memberName]
  rcases rel_cases (h.child? .object) with ⟨none, none'⟩ | ⟨object, object', child, child', alike⟩
  · rw [none, none']
  · simp only [child, child', alike.memberName]

/-- What is read off nodes that may be absent. -/
theorem readName {read read' : Node → NameResult} {child child' : Option Node}
    (h : Option.Rel (Alike source source') child child')
    (each : ∀ m m', Alike source source' m m' → read m = read' m') :
    Node.readName read child = Node.readName read' child' := by
  cases h with
  | none => rfl
  | some alike => exact each _ _ alike

end Alike

/-- One step through parentheses. -/
theorem unwrap_eq (n : Node) : n.unwrap = if n.kind = .parenthesized then n.parts.head?.bind unwrap else some n := by
  rw [unwrap]
  split
  · split
    · rename_i inner first
      rw [first]
      rfl
    · rename_i first
      rw [first]
      rfl
  · rfl

/-- The object on which a call of a member is made. -/
def calledOn (n : Node) : Option Node :=
  (n.child? .function).bind fun callee => if callee.kind = .memberAccess then callee.child? .object else none

/-- One step of the search for a receiver. -/
theorem receiverName_eq (source : Bytes) (n : Node) :
    n.receiverName source =
      if n.kind = .identifier ∨ n.kind = .this then some <$> n.name source
      else if n.kind = .memberAccess then n.memberName source
      else if n.kind = .call then n.calledOn.elim (.ok none) (receiverName source)
      else if n.kind = .parenthesized then n.parts.head?.elim (.ok none) (receiverName source)
      else .ok none := by
  fun_cases receiverName source n with
  | case1 kind => simp [kind]
  | case2 kind => simp [kind]
  | case3 kind => simp [kind]
  | case4 kind function => simp [kind, calledOn, function]; rfl
  | case5 kind callee function member object child => simp [kind, calledOn, function, member, child]
  | case6 kind callee function member child => simp [kind, calledOn, function, member, child]; rfl
  | case7 kind callee function other => simp [kind, calledOn, function, other]; rfl
  | case8 kind inner first => simp [kind, first]
  | case9 kind first => simp [kind, first]; rfl
  | case10 plain this member call parens =>
    rw [if_neg (not_or.mpr ⟨plain, this⟩), if_neg member, if_neg call, if_neg parens]
    rfl

theorem Alike.unwrap {source source' : Bytes} {n n' : Node} (h : Alike source source' n n') :
    Option.Rel (Alike source source') n.unwrap n'.unwrap := by
  induction size : n.size using Nat.strongRecOn generalizing n n' with
  | ind size ih =>
    subst size
    rw [unwrap_eq, unwrap_eq n', ← h.kind]
    split
    -- the first part is smaller, so the induction is on the size
    · rcases rel_cases (rel_head? h.parts) with ⟨none, none'⟩ | ⟨inner, inner', first, first', alike⟩
      · rw [none, none']
        exact .none
      · rw [first, first']
        exact ih inner.size (size_head_parts_lt first) alike rfl
    · exact .some h

theorem Alike.calledOn {source source' : Bytes} {n n' : Node} (h : Alike source source' n n') :
    Option.Rel (Alike source source') n.calledOn n'.calledOn := by
  apply rel_bind (h.child? .function)
  intro callee callee' alike
  rw [alike.kind]
  split
  · exact alike.child? .object
  · exact .none

theorem size_calledOn_lt {n object : Node} (h : n.calledOn = some object) : object.size < n.size := by
  rcases Option.bind_eq_some_iff.mp h with ⟨callee, function, h⟩
  split at h
  · exact Nat.lt_trans (size_child_lt h) (size_child_lt function)
  · cases h

theorem Alike.receiverName {source source' : Bytes} {n n' : Node} (h : Alike source source' n n') :
    n.receiverName source = n'.receiverName source' := by
  induction size : n.size using Nat.strongRecOn generalizing n n' with
  | ind size ih =>
    subst size
    rw [receiverName_eq, receiverName_eq source' n', h.kind, h.name, h.memberName]
    -- only calls and parentheses lead to another node
    congr 3
    · rcases rel_cases h.calledOn with ⟨none, none'⟩ | ⟨object, object', called, called', alike⟩
      · rw [none, none']
        rfl
      · rw [called, called']
        exact ih object.size (size_calledOn_lt called) alike rfl
    · rcases rel_cases (rel_head? h.parts) with ⟨none, none'⟩ | ⟨inner, inner', first, first', alike⟩
      · rw [none, none']
        rfl
      · rw [first, first']
        congr 1
        exact ih inner.size (size_head_parts_lt first) alike rfl

end Code.Node

/-! ## Bindings -/

/-- The bindings are to the same export of the same module. -/
structure Binding.Alike (b b' : Binding) : Prop where
  specifier : b.specifier = b'.specifier
  exported : b.exported = b'.exported
  isNamespace : b.isNamespace = b'.isNamespace

namespace Binding

/-- The same name is bound to the same export. -/
def SameEntry (e e' : String × Binding) : Prop :=
  e.1 = e'.1 ∧ e.2.Alike e'.2

variable {source source' : Bytes} {rangeOf rangeOf' : Node → Range} {n n' : Node}

theorem matches_bind (h : Node.Alike source source' n n') (specifier : String) (exported : Option String)
    (isNamespace : Bool) :
    Matches (List.Forall₂ SameEntry) (Binding.bind source rangeOf n specifier exported isNamespace)
      (Binding.bind source' rangeOf' n' specifier exported isNamespace) := by
  apply Matches.bind_eq h.name
  intro name
  exact .ok (.cons ⟨rfl, rfl, rfl, rfl⟩ .nil)

theorem matches_bindExport {local? local?' : Option Node}
    (h : Option.Rel (Node.Alike source source') local? local?') (specifier : String) (exported : Option String) :
    Matches (List.Forall₂ SameEntry) (bindExport source rangeOf local? specifier exported)
      (bindExport source' rangeOf' local?' specifier exported) := by
  unfold bindExport
  cases h with
  | none => exact .ok .nil
  | some alike =>
    cases exported with
    | none => exact .ok .nil
    | some name =>
      simp only [alike.kind]
      split
      · exact matches_bind alike specifier (some name) false
      · exact .ok .nil

theorem matches_ofSpecifier (h : Node.Alike source source' n n') (specifier : String) :
    Matches (List.Forall₂ SameEntry) (ofSpecifier source rangeOf specifier n)
      (ofSpecifier source' rangeOf' specifier n') := by
  unfold ofSpecifier
  rw [h.kind]
  split
  · apply Matches.bind_eq
    · exact Node.Alike.readName (h.child? .name) fun m m' alike => alike.keyName
    · intro exported
      exact matches_bindExport (rel_or (h.child? .alias) (h.child? .name)) specifier exported
  · exact .ok .nil

theorem matches_ofClausePart (h : Node.Alike source source' n n') (specifier : String) :
    Matches (List.Forall₂ SameEntry) (ofClausePart source rangeOf specifier n)
      (ofClausePart source' rangeOf' specifier n') := by
  unfold ofClausePart
  rw [h.kind]
  split
  · exact matches_bind h specifier none false
  · apply Matches.gather (forall₂_filter h.namedChildren fun c c' alike => by rw [alike.kind])
    intro ident ident' alike
    exact matches_bind alike specifier none true
  · apply Matches.gather h.namedChildren
    intro m m' alike
    exact matches_ofSpecifier alike specifier
  · exact .ok .nil

theorem lastString_eq {ns ns' : List Node} (h : List.Forall₂ (Node.Alike source source') ns ns')
    (known : Option String) : lastString source known ns = lastString source' known ns' := by
  induction h generalizing known with
  | nil => rfl
  | cons alike _ ih =>
    rw [lastString, lastString, alike.kind, alike.stringValue, ih]
    congr 2
    funext value
    exact ih value

theorem clauseSpecifier_eq (h : Node.Alike source source' n n') :
    clauseSpecifier source n = clauseSpecifier source' n' := by
  unfold clauseSpecifier
  rw [Node.Alike.readName (h.child? .source) fun m m' alike => alike.stringValue, lastString_eq h.namedChildren]

theorem matches_ofRequireClause (h : Node.Alike source source' n n') :
    Matches (List.Forall₂ SameEntry) (ofRequireClause source rangeOf n) (ofRequireClause source' rangeOf' n') := by
  rw [ofRequireClause_eq, ofRequireClause_eq]
  apply Matches.bind_eq (clauseSpecifier_eq h)
  intro specifier
  cases specifier with
  | none => exact .ok .nil
  | some specifier =>
    have first := rel_find? h.namedChildren (p := (·.kind = .identifier)) (q := (·.kind = .identifier))
      fun c c' alike => by rw [alike.kind]
    rcases rel_cases first with ⟨none, none'⟩ | ⟨ident, ident', found, found', alike⟩
    · rw [none, none']
      exact .ok .nil
    · rw [found, found']
      exact matches_bind alike specifier none false

theorem matches_ofImport (h : Node.Alike source source' n n') :
    Matches (List.Forall₂ SameEntry) (ofImport source rangeOf n) (ofImport source' rangeOf' n') := by
  apply Matches.bind_eq
  · exact Node.Alike.readName (h.child? .source) fun m m' alike => alike.stringValue
  · intro specifier
    apply Matches.gather h.namedChildren
    intro child child' alike
    rw [alike.kind]
    split
    · apply Matches.gather alike.namedChildren
      intro part part' alike
      exact matches_ofClausePart alike _
    · exact matches_ofRequireClause alike
    · exact .ok .nil

theorem requireSpecifier_eq (h : Node.Alike source source' n n') :
    requireSpecifier source n = requireSpecifier source' n' := by
  unfold requireSpecifier
  rw [h.kind]
  rcases rel_cases (h.child? .function) with ⟨none, none'⟩ | ⟨callee, callee', child, child', alike⟩
  · rw [none, none']
  · simp only [child, child', alike.kind, alike.name,
      Node.Alike.readName (rel_head? h.arguments) fun m m' alike => alike.stringValue]

theorem rel_renamedTo (h : Node.Alike source source' n n') :
    Option.Rel (Node.Alike source source') (renamedTo n) (renamedTo n') := by
  apply rel_bind (h.child? .value)
  intro value value' alike
  rw [alike.kind]
  split
  · exact alike.child? .left
  · exact .some alike

theorem matches_ofPatternPart (h : Node.Alike source source' n n') (specifier : String) :
    Matches (List.Forall₂ SameEntry) (ofPatternPart source rangeOf specifier n)
      (ofPatternPart source' rangeOf' specifier n') := by
  by_cases pair : n.kind = .pairPattern
  · rw [ofPatternPart_pair pair, ofPatternPart_pair (h.kind ▸ pair)]
    apply Matches.bind_eq
    · exact Node.Alike.readName (h.child? .key) fun m m' alike => alike.keyName
    · intro exported
      exact matches_bindExport (rel_renamedTo h) specifier exported
  · unfold ofPatternPart
    rw [← h.kind]
    split
    · apply Matches.bind_eq h.name
      intro name
      exact matches_bind h specifier (some name) false
    · rcases rel_cases (h.child? .left) with ⟨none, none'⟩ | ⟨left, left', child, child', alike⟩
      · rw [none, none']
        exact .ok .nil
      · rw [child, child']
        simp only [alike.kind]
        split
        · apply Matches.bind_eq alike.name
          intro name
          exact matches_bind alike specifier (some name) false
        · exact .ok .nil
    · exact absurd ‹_› pair
    · exact .ok .nil

theorem matches_ofDeclarator (h : Node.Alike source source' n n') :
    Matches (List.Forall₂ SameEntry) (ofDeclarator source rangeOf n) (ofDeclarator source' rangeOf' n') := by
  unfold ofDeclarator
  rcases rel_cases (h.child? .name) with ⟨none, none'⟩ | ⟨target, target', named, named', likeTarget⟩
  · rw [none, none']
    exact .ok .nil
  · rcases rel_cases (h.child? .value) with ⟨none, none'⟩ | ⟨value, value', initial, initial', alike⟩
    · rw [named, named', none, none']
      exact .ok .nil
    · rw [named, named', initial, initial']
      apply Matches.bind_eq alike.memberName
      intro member
      apply Matches.bind_eq
      · apply Node.Alike.readName _ fun m m' alike => requireSpecifier_eq alike
        rw [alike.kind]
        split
        · exact alike.child? .object
        · exact .some alike
      · intro specifier
        cases specifier with
        | none => exact .ok .nil
        | some specifier =>
          simp only [likeTarget.kind]
          split
          · exact matches_bind likeTarget specifier member false
          · split
            · apply Matches.gather likeTarget.namedChildren
              intro part part' alike
              exact matches_ofPatternPart alike specifier
            · exact .ok .nil

end Binding

end ContainerKeys
