import ContainerKeys.Proofs.Comments
import ContainerKeys.Proofs.DeclarationReads
import ContainerKeys.Proofs.Names
import ContainerKeys.Proofs.Walk
import ContainerKeys.Registration
import Mathlib.Data.List.Basic

/-!
# Chains of calls

The value of a registration is followed from its outermost call inwards, and each modifier replaces the
one met before. Written down, the chain goes the other way: the call of a selector, then the calls on it,
each around the one before. In that order the first call that gives a lifetime is the one that counts.

Links may stand in parentheses, and comments beside them and among the arguments. They do no harm, but for
one kind: a comment in the signs of markup that stands first in parentheses ends the chain there, and one
that stands before an argument is taken for it.

* `Registration.Chain` — member calls on a call, from the inside out, with their parentheses.
* `Registration.Selects`, `Registration.Gives`, `Registration.OptionsGive` — what a call says by itself.
* `Registration.exists_follow_of_chain` — following a chain up to its selector.
* `Registration.exists_follow_of_veiled` — following a chain up to parentheses in which it ends.
* `Registration.exists_follow_of_no_selector` — following a chain without a selector.
* `Registration.ofValue_reads_chain` — what the value of a registration says.
-/

namespace ContainerKeys

/-! ## First elements -/

/-- The first element of the list that has the property. -/
def IsFirst (P : α → Prop) (l : List α) (a : α) : Prop :=
  ∃ before after, l = before ++ a :: after ∧ P a ∧ ∀ b ∈ before, ¬ P b

theorem isFirst_cons {P : α → Prop} {a b : α} {l : List α} :
    IsFirst P (b :: l) a ↔ P b ∧ a = b ∨ ¬ P b ∧ IsFirst P l a := by
  constructor
  · rintro ⟨before, after, split, holds, none⟩
    cases before with
    | nil =>
      cases split
      exact Or.inl ⟨holds, rfl⟩
    | cons c before =>
      cases split
      rw [List.forall_mem_cons] at none
      exact Or.inr ⟨none.1, before, after, rfl, holds, none.2⟩
  · rintro (⟨holds, rfl⟩ | ⟨fails, before, after, rfl, holds, none⟩)
    · exact ⟨[], l, rfl, holds, by simp⟩
    · exact ⟨b :: before, after, rfl, holds, List.forall_mem_cons.mpr ⟨fails, none⟩⟩

theorem isFirst_concat {P : α → Prop} {a b : α} {l : List α} :
    IsFirst P (l ++ [b]) a ↔ IsFirst P l a ∨ (∀ c ∈ l, ¬ P c) ∧ P b ∧ a = b := by
  induction l with
  | nil =>
    rw [List.nil_append, isFirst_cons]
    simp [IsFirst]
  | cons c l ih =>
    rw [List.cons_append, isFirst_cons, isFirst_cons, ih, List.forall_mem_cons]
    tauto

open Code
open Declaration (Readable succeeds_name succeeds_memberName succeeds_stringValue succeeds_keyName
  succeeds_readName kind_of_stringValue)

/-! ## Selectors and modifiers -/

/-- The selector of a kind. -/
def BindingKind.selector : BindingKind → String
  | .asClass => "asClass"
  | .asFunction => "asFunction"
  | .asValue => "asValue"

theorem BindingKind.ofSelector?_eq_some_iff {name : String} {kind : BindingKind} :
    ofSelector? name = some kind ↔ name = kind.selector := by
  constructor
  · intro h
    unfold ofSelector? at h
    split at h <;> cases h <;> rfl
  · rintro rfl
    cases kind <;> rfl

/-- A lifetime is spelled in a modifier as it is named. -/
theorem Lifetime.ofModifier?_eq_some_iff {name : String} {l : Lifetime} :
    ofModifier? name = some l ↔ name = l.name := by
  constructor
  · intro h
    unfold ofModifier? at h
    split at h <;> cases h <;> rfl
  · rintro rfl
    cases l <;> rfl

namespace Code.Node

/-! ## Texts -/

/-- The node and all nodes below it are texts. -/
inductive Legible (source : Bytes) : Node → Prop
  | mk {n : Node} (text : Readable source n) (below : ∀ c ∈ n.children, Legible source c) :
      Legible source n

namespace Legible

variable {source : Bytes} {n m c : Node} {field : Field}

theorem text (h : n.Legible source) : Readable source n := by
  cases h with
  | mk text _ => exact text

theorem of_mem (h : n.Legible source) (member : c ∈ n.children) : c.Legible source := by
  cases h with
  | mk _ below => exact below c member

theorem child (h : n.Legible source) (found : n.child? field = some c) : c.Legible source :=
  h.of_mem (List.mem_of_find?_eq_some found)

theorem named (h : n.Legible source) (member : c ∈ n.namedChildren) : c.Legible source :=
  h.of_mem (List.mem_filter.mp member).1

theorem part (h : n.Legible source) (member : c ∈ n.parts) : c.Legible source :=
  h.named (List.mem_filter.mp member).1

theorem argument (h : n.Legible source) (member : c ∈ n.arguments) : c.Legible source := by
  unfold arguments at member
  split at member
  · rename_i args found
    exact (h.child found).part member
  · cases member

theorem unwrap (h : n.Legible source) (unwrapped : n.unwrap = some m) : m.Legible source := by
  fun_induction Node.unwrap n with
  | case1 n _ inner first ih => exact ih (h.part (List.mem_of_head? first)) unwrapped
  | case2 => cases unwrapped
  | case3 =>
    cases unwrapped
    exact h

end Legible

end Code.Node

namespace Registration

variable (source : Bytes)

/-! ## What a call says by itself -/

/-- The function of the given name is called, by itself or as a member. -/
def Calls (call : Node) (name : String) : Prop :=
  ∃ callee, call.child? .function = some callee ∧
    (callee.kind = .identifier ∧ callee.name source = .ok name ∨
      callee.memberName source = .ok (some name))

/-- The call selects the kind. -/
def Selects (call : Node) (kind : BindingKind) : Prop :=
  Calls source call kind.selector

/-- The node spells the lifetime, in small or capital letters: as the property of a member access or as a
string. -/
def SpellsLifetime (n : Node) (l : Lifetime) : Prop :=
  ∃ name, (n.memberName source = .ok (some name) ∨ n.stringValue source = .ok (some name)) ∧
    Text.lower name = l.name

/-- The call gives the lifetime as a modifier: by its name, or by the first argument of `setLifetime`. -/
def Gives (call : Node) (l : Lifetime) : Prop :=
  Calls source call l.name ∨
    Calls source call "setLifetime" ∧
      ∃ argument, call.operands.head? = some argument ∧ SpellsLifetime source argument l

/-- The first of the calls that give a lifetime gives this one. -/
def FirstGives (calls : List Node) (l : Lifetime) : Prop :=
  ∃ call, IsFirst (fun call => ∃ other, Gives source call other) calls call ∧ Gives source call l

/-- The part of an object is a `lifetime` entry. -/
def IsLifetimeEntry (part : Node) : Prop :=
  part.kind = .pair ∧ ∃ key, part.child? .key = some key ∧ key.keyName source = .ok (some "lifetime")

/-- The first `lifetime` entry among the parts of an object spells the lifetime. -/
def EntryGives (parts : List Node) (l : Lifetime) : Prop :=
  ∃ entry value, IsFirst (IsLifetimeEntry source) parts entry ∧ entry.child? .value = some value ∧
    SpellsLifetime source value l

/-- The second argument of the call is an object that gives the lifetime. -/
def OptionsGive (call : Node) (l : Lifetime) : Prop :=
  ∃ options, (call.operands.drop 1).head? = some options ∧ options.kind = .object ∧
    EntryGives source options.namedChildren l

variable {source}

/-- A function has one name. -/
theorem selectorName_eq_iff {call : Node} {name : String} :
    selectorName source (call.child? .function) = .ok (some name) ↔ Calls source call name := by
  unfold selectorName Calls
  cases call.child? .function with
  | none => simp [pure, Except.pure]
  | some callee =>
    by_cases plain : callee.kind = .identifier
    · have member : callee.memberName source = .ok none := by
        simp [Node.memberName, plain, pure, Except.pure]
      simp only [plain, if_pos, Option.some.injEq, exists_eq_left', member, true_and]
      cases callee.name source <;> simp [bind, Except.bind, pure, Except.pure]
    · simp [plain]

/-- The names of functions in a legible call can be read. -/
theorem succeeds_selectorName {call : Node} (legible : call.Legible source) :
    Succeeds (selectorName source (call.child? .function)) := by
  cases found : call.child? .function with
  | none => exact succeeds_pure _
  | some callee =>
    have readable := legible.child found
    show Succeeds (if callee.kind = .identifier then some <$> callee.name source
      else callee.memberName source)
    split
    · rw [succeeds_map_iff, succeeds_name]
      exact readable.text
    · rw [succeeds_memberName]
      intro property _ child _
      exact (readable.child child).text

theorem kind_of_memberName {n : Node} {name : String}
    (h : n.memberName source = .ok (some name)) : n.kind = .memberAccess := by
  unfold Node.memberName at h
  split at h
  · assumption
  · cases h

/-- A literal is read as the lifetime that it spells. -/
theorem exists_lifetimeLiteral {n : Node} (legible : n.Legible source) :
    ∃ lifetime, lifetimeLiteral source n = .ok lifetime ∧
      ∀ l, lifetime = some l ↔ SpellsLifetime source n l := by
  obtain ⟨member, named⟩ : Succeeds (n.memberName source) := by
    rw [succeeds_memberName]
    intro property _ child _
    exact (legible.child child).text
  obtain ⟨string, quoted⟩ : Succeeds (n.stringValue source) :=
    succeeds_stringValue.mpr fun _ => legible.text
  have read : lifetimeLiteral source n =
      .ok ((member.or string).bind fun name => Lifetime.ofModifier? (Text.lower name)) := by
    unfold lifetimeLiteral
    rw [named, quoted]
    cases member <;> rfl
  refine ⟨_, read, ?_⟩
  intro l
  simp only [Option.bind_eq_some_iff, Lifetime.ofModifier?_eq_some_iff, SpellsLifetime, named, quoted,
    Except.ok.injEq]
  apply exists_congr
  intro name
  apply and_congr_left
  intro _
  cases member with
  | none => simp
  | some given =>
    -- a member access is no string
    have other : string = none := by
      cases string with
      | none => rfl
      | some text =>
        have kind := kind_of_memberName named
        rw [kind_of_stringValue quoted] at kind
        cases kind
    simp [other]

/-- Only a `lifetime` entry ends the search through the parts of an object. -/
theorem optionLifetime_cons {part : Node} (legible : part.Legible source) (rest : List Node) :
    (IsLifetimeEntry source part → optionLifetime source (part :: rest) =
        match part.child? .value with
        | some value => lifetimeLiteral source value
        | none => .ok none) ∧
      (¬ IsLifetimeEntry source part →
        optionLifetime source (part :: rest) = optionLifetime source rest) := by
  by_cases pair : part.kind = .pair
  · cases found : part.child? .key with
    | none =>
      have other : ¬ IsLifetimeEntry source part := by
        rintro ⟨-, key, child, -⟩
        rw [found] at child
        cases child
      refine ⟨fun entry => absurd entry other, fun _ => ?_⟩
      rw [optionLifetime, if_pos pair, found]
      rfl
    | some key =>
      obtain ⟨name, named⟩ : Succeeds (key.keyName source) :=
        succeeds_keyName.mpr fun _ => (legible.child found).text
      have read : Node.readName (·.keyName source) (some key) = .ok name := named
      have entry : IsLifetimeEntry source part ↔ name = some "lifetime" := by
        simp [IsLifetimeEntry, pair, found, named]
      rw [entry, optionLifetime, if_pos pair, found, read]
      constructor
      · rintro rfl
        rfl
      · intro other
        show (if name = some "lifetime" then _ else _) = _
        rw [if_neg other]
  · refine ⟨fun entry => absurd entry.1 pair, fun _ => ?_⟩
    rw [optionLifetime, if_neg pair]

/-- An options object is read as the lifetime that its first `lifetime` entry spells. -/
theorem exists_optionLifetime {parts : List Node} (legible : ∀ part ∈ parts, part.Legible source) :
    ∃ lifetime, optionLifetime source parts = .ok lifetime ∧
      ∀ l, lifetime = some l ↔ EntryGives source parts l := by
  induction parts with
  | nil => exact ⟨none, rfl, by simp [EntryGives, IsFirst]⟩
  | cons part rest ih =>
    rw [List.forall_mem_cons] at legible
    obtain ⟨atEntry, past⟩ := optionLifetime_cons legible.1 rest
    by_cases entry : IsLifetimeEntry source part
    · have gives (l : Lifetime) : EntryGives source (part :: rest) l ↔
          ∃ value, part.child? .value = some value ∧ SpellsLifetime source value l := by
        simp [EntryGives, isFirst_cons, entry]
      rw [atEntry entry]
      cases found : part.child? .value with
      | none => exact ⟨none, rfl, fun l => by simp [gives, found]⟩
      | some value =>
        obtain ⟨lifetime, read, spells⟩ := exists_lifetimeLiteral (legible.1.child found)
        exact ⟨lifetime, read, fun l => by rw [spells]; simp [gives, found]⟩
    · obtain ⟨lifetime, read, gives⟩ := ih legible.2
      refine ⟨lifetime, (past entry).trans read, ?_⟩
      intro l
      rw [gives]
      simp [EntryGives, isFirst_cons, entry]

/-- The second argument is read as the options of the call, if no comment takes its place. -/
theorem exists_optionsLifetime {call : Node} (legible : call.Legible source) :
    ∃ lifetime, optionsLifetime source (call.arguments.drop 1).head? = .ok lifetime ∧
      (¬ call.Obscured 2 → ∀ l, lifetime = some l ↔ OptionsGive source call l) := by
  have read : ∃ lifetime, optionsLifetime source (call.arguments.drop 1).head? = .ok lifetime ∧
      ∀ l, lifetime = some l ↔ ∃ options, (call.arguments.drop 1).head? = some options ∧
        options.kind = .object ∧ EntryGives source options.namedChildren l := by
    cases second : (call.arguments.drop 1).head? with
    | none => exact ⟨none, rfl, by simp⟩
    | some options =>
      have readable : options.Legible source :=
        legible.argument (List.mem_of_mem_drop (List.mem_of_head? second))
      by_cases object : options.kind = .object
      · obtain ⟨lifetime, read, gives⟩ :=
          exists_optionLifetime fun part (member : part ∈ options.namedChildren) => readable.named member
        refine ⟨lifetime, ?_, by simp [gives, object]⟩
        unfold optionsLifetime
        exact (if_pos object).trans read
      · refine ⟨none, ?_, by simp [object]⟩
        unfold optionsLifetime
        exact if_neg object
  obtain ⟨lifetime, read, gives⟩ := read
  refine ⟨lifetime, read, ?_⟩
  intro clear l
  rw [gives, OptionsGive, Node.second_arguments clear]

/-- A modifier replaces the lifetime met before just if it gives one itself and no comment takes the place
of the argument that it reads. -/
theorem exists_modify {call : Node} (legible : call.Legible source) {name : Option String}
    (called : selectorName source (call.child? .function) = .ok name) (before : Option Lifetime) :
    ∃ lifetime, modify source before name call = .ok lifetime ∧
      ((Calls source call "setLifetime" → ¬ call.Obscured 1) → ∀ l, lifetime = some l ↔
        Gives source call l ∨ (∀ other, ¬ Gives source call other) ∧ before = some l) := by
  have calls (other : String) : Calls source call other ↔ name = some other := by
    rw [← selectorName_eq_iff, called, Except.ok.injEq]
  cases name with
  | none =>
    refine ⟨before, rfl, ?_⟩
    simp [Gives, calls]
  | some name =>
    simp only [Gives, calls, Option.some.injEq]
    cases modifier : Lifetime.ofModifier? name with
    | some given =>
      have setter : name ≠ "setLifetime" := by
        rintro rfl
        cases modifier
      have gives (l : Lifetime) : name = l.name ↔ given = l := by
        rw [← Lifetime.ofModifier?_eq_some_iff, modifier, Option.some.injEq]
      refine ⟨some given, by simp only [modify, modifier]; rfl, ?_⟩
      simp [setter, gives]
    | none =>
      have plain (l : Lifetime) : name ≠ l.name := by
        intro named
        rw [Lifetime.ofModifier?_eq_some_iff.mpr named] at modifier
        cases modifier
      simp only [plain, false_or]
      by_cases setter : name = "setLifetime"
      · cases first : call.arguments.head? with
        | none =>
          refine ⟨before, ?_, ?_⟩
          · simp only [modify, modifier, if_pos setter, first]
            rfl
          · intro clear l
            rw [← Node.head?_arguments (clear setter), first]
            simp
        | some argument =>
          obtain ⟨spelled, read, spells⟩ :=
            exists_lifetimeLiteral (legible.argument (List.mem_of_head? first))
          refine ⟨spelled.or before, ?_, ?_⟩
          · simp only [modify, modifier, if_pos setter, first, read]
            rfl
          · intro clear l
            rw [← Node.head?_arguments (clear setter), first]
            simp only [setter, true_and, Option.some.injEq, exists_eq_left', ← spells]
            -- an argument that spells no lifetime leaves the one met before
            cases spelled <;> simp
      · exact ⟨before, by simp [modify, modifier, setter, pure, Except.pure], by simp [setter]⟩

/-! ## Following a chain -/

/-- `n` is a chain of member calls on the call `base`: the calls from the inside out, and the parentheses
around `base` and around the calls, from the outside in. -/
inductive Chain (base : Node) : List Node → List Node → Node → Prop
  | start (isCall : base.kind = .call) : Chain base [] [] base
  | parens {n inside : Node} {calls parens : List Node} (encloses : n.Encloses inside)
      (inner : Chain base calls parens inside) : Chain base calls (n :: parens) n
  | call {n callee object : Node} {calls parens : List Node} (isCall : n.kind = .call)
      (function : n.child? .function = some callee) (isMember : callee.kind = .memberAccess)
      (child : callee.child? .object = some object) (inner : Chain base calls parens object) :
      Chain base (calls ++ [n]) parens n

variable {base n m : Node} {calls parens : List Node}

theorem Chain.not_isComment (chain : Chain base calls parens n) : ¬ n.IsComment := by
  have other {k : Kind} (kind : n.kind = k) (plain : k ≠ .comment) (markup : k ≠ .markupComment) :
      ¬ n.IsComment := by
    rintro (comment | comment)
    · exact plain (kind.symm.trans comment)
    · exact markup (kind.symm.trans comment)
  cases chain with
  | start isCall => exact other isCall (by decide) (by decide)
  | parens encloses _ => exact other encloses.kind (by decide) (by decide)
  | call isCall => exact other isCall (by decide) (by decide)

/-- Parentheses around a chain make it no other chain. -/
theorem Chain.of_unwrap (unwrapped : n.unwrap = some m) (chain : Chain base calls parens m) :
    ∃ parens, Chain base calls parens n := by
  fun_induction Node.unwrap n with
  | case1 n kind inner first ih =>
    obtain ⟨parens, inside⟩ := ih unwrapped
    exact ⟨_, .parens (Node.encloses_of_head?_parts kind first inside.not_isComment) inside⟩
  | case2 => cases unwrapped
  | case3 =>
    cases unwrapped
    exact ⟨parens, chain⟩

theorem Chain.size_le (chain : Chain base calls parens n) : base.size ≤ n.size := by
  induction chain with
  | start => exact Nat.le_refl _
  | @parens n inside _ _ encloses _ ih =>
    have smaller : inside.size < n.size := Node.size_lt_of_mem (List.mem_filter.mp encloses.mem).1
    omega
  | call _ function _ child _ ih =>
    have := Node.size_child_lt function
    have := Node.size_child_lt child
    omega

/-- What a member call is made on, without its parentheses. -/
def inner? (call : Node) : Option Node :=
  (call.child? .function).bind fun callee =>
    if callee.kind = .memberAccess then (callee.child? .object).bind Node.unwrap else none

/-- The call of a selector ends the chain; its options count if no modifier was met. -/
theorem exists_follow_of_selects {call : Node} {kind : BindingKind} (legible : call.Legible source)
    (isCall : call.kind = .call) (selects : Selects source call kind) (value : Node)
    (before : Option Lifetime) :
    ∃ lifetime, follow source value before call = .ok ⟨kind, lifetime, call.arguments.head?⟩ ∧
      (¬ call.Obscured 2 →
        ∀ l, lifetime = some l ↔ before = some l ∨ before = none ∧ OptionsGive source call l) := by
  obtain ⟨given, read, gives⟩ := exists_optionsLifetime legible
  have name := selectorName_eq_iff.mpr selects
  have found : (some kind.selector).bind BindingKind.ofSelector? = some kind :=
    BindingKind.ofSelector?_eq_some_iff.mpr rfl
  refine ⟨before.or given, ?_, ?_⟩
  · rw [follow, if_pos isCall]
    simp only [name, found, bind, Except.bind]
    cases before with
    | some l => rfl
    | none =>
      dsimp only
      rw [read]
      rfl
  · intro clear l
    cases before <;> simp [gives clear]

/-- Any other call passes on what its modifier makes of the lifetime. -/
theorem follow_of_not_selects {call : Node} {name : Option String} {before lifetime : Option Lifetime}
    (isCall : call.kind = .call) (plain : ∀ kind, ¬ Selects source call kind)
    (called : selectorName source (call.child? .function) = .ok name)
    (modified : modify source before name call = .ok lifetime) (value : Node) :
    follow source value before call =
      match inner? call with
      | some next => follow source value lifetime next
      | none => .ok ⟨.asValue, lifetime, some value⟩ := by
  have other : name.bind BindingKind.ofSelector? = none := by
    cases found : name.bind BindingKind.ofSelector? with
    | none => rfl
    | some kind =>
      obtain ⟨selector, rfl, named⟩ := Option.bind_eq_some_iff.mp found
      rw [BindingKind.ofSelector?_eq_some_iff] at named
      exact absurd (selectorName_eq_iff.mp (named ▸ called)) (plain kind)
  rw [follow, if_pos isCall]
  simp only [called, other, modified, bind, Except.bind]
  unfold inner?
  split
  · rename_i function
    rw [function]
    rfl
  · rename_i callee function
    rw [function, Option.bind_some]
    split
    · split
      · rename_i child
        rw [child]
        rfl
      · rename_i object child
        rw [child, Option.bind_some]
        split
        · rename_i next unwrapped
          rw [unwrapped]
        · rename_i unwrapped
          rw [unwrapped]
          rfl
    · rfl

theorem firstGives_concat {calls : List Node} {call : Node} {l : Lifetime} :
    FirstGives source (calls ++ [call]) l ↔
      FirstGives source calls l ∨
        (∀ earlier ∈ calls, ∀ other, ¬ Gives source earlier other) ∧ Gives source call l := by
  simp only [FirstGives, isFirst_concat, not_exists]
  constructor
  · rintro ⟨first, found | ⟨none, -, rfl⟩, gives⟩
    · exact Or.inl ⟨first, found, gives⟩
    · exact Or.inr ⟨none, gives⟩
  · rintro (⟨first, found, gives⟩ | ⟨none, gives⟩)
    · exact ⟨first, Or.inl found, gives⟩
    · exact ⟨call, Or.inr ⟨none, ⟨l, gives⟩, rfl⟩, gives⟩

theorem unwrap_of_call (isCall : n.kind = .call) : n.unwrap = some n :=
  Node.unwrap_of_not_parenthesized (by rw [isCall]; decide)

variable (source) in
/-- No comment takes the place of an argument that is read along the chain for a lifetime. -/
def Clear (base : Node) (calls : List Node) : Prop :=
  ¬ base.Obscured 2 ∧ ∀ call ∈ calls, Calls source call "setLifetime" → ¬ call.Obscured 1

theorem clear_concat {call : Node} (clear : Clear source base (calls ++ [call])) :
    Clear source base calls ∧ (Calls source call "setLifetime" → ¬ call.Obscured 1) :=
  ⟨⟨clear.1, fun earlier member => clear.2 earlier (List.mem_append_left _ member)⟩,
    clear.2 call (List.mem_append_right _ (List.mem_singleton_self call))⟩

/-- A chain is followed to its selector. The first call on the selector that gives a lifetime counts, then
what was met before the chain, then the options of the selector. -/
theorem exists_follow_of_chain {kind : BindingKind} (chain : Chain base calls parens n)
    (legible : n.Legible source) (selects : Selects source base kind)
    (plain : ∀ call ∈ calls, ∀ other, ¬ Selects source call other) (unveiled : ∀ p ∈ parens, ¬ p.Veiled)
    (value : Node) (before : Option Lifetime) :
    ∃ m lifetime, n.unwrap = some m ∧
      follow source value before m = .ok ⟨kind, lifetime, base.arguments.head?⟩ ∧
      (Clear source base calls → ∀ l, lifetime = some l ↔ FirstGives source calls l ∨
        (∀ call ∈ calls, ∀ other, ¬ Gives source call other) ∧
          (before = some l ∨ before = none ∧ OptionsGive source base l)) := by
  -- the outermost call is met first, so what it makes of `before` is what the inner chain starts from
  induction chain generalizing before with
  | start isCall =>
    obtain ⟨lifetime, followed, counts⟩ := exists_follow_of_selects legible isCall selects value before
    refine ⟨base, lifetime, unwrap_of_call isCall, followed, ?_⟩
    intro clear l
    rw [counts clear.1]
    simp [FirstGives, IsFirst]
  | parens encloses _ ih =>
    rw [List.forall_mem_cons] at unveiled
    rw [encloses.unwrap_eq unveiled.1]
    exact ih (legible.named encloses.mem) plain unveiled.2 before
  | @call call callee object calls parens isCall function isMember child inner ih =>
    obtain ⟨name, called⟩ := succeeds_selectorName legible
    obtain ⟨between, modified, given⟩ := exists_modify legible called before
    have plain' : ∀ link ∈ calls, ∀ other, ¬ Selects source link other :=
      fun link member => plain link (List.mem_append_left _ member)
    obtain ⟨next, lifetime, unwrapped, followed, counts⟩ :=
      ih ((legible.child function).child child) plain' unveiled between
    have inside : inner? call = some next := by
      simp [inner?, function, isMember, child, unwrapped]
    refine ⟨call, lifetime, unwrap_of_call isCall, ?_, ?_⟩
    · rw [follow_of_not_selects isCall (plain call (by simp)) called modified, inside]
      exact followed
    · intro clear l
      obtain ⟨clear, clear'⟩ := clear_concat clear
      have nothing : between = none ↔ (∀ other, ¬ Gives source call other) ∧ before = none := by
        simp only [Option.eq_none_iff_forall_ne_some, ne_eq, given clear', not_or, not_and, forall_and]
        tauto
      have others : (∀ link ∈ calls ++ [call], ∀ other, ¬ Gives source link other) ↔
          (∀ link ∈ calls, ∀ other, ¬ Gives source link other) ∧ ∀ other, ¬ Gives source call other := by
        rw [List.forall_mem_append, List.forall_mem_singleton]
      rw [counts clear, given clear', nothing, firstGives_concat, others]
      clear ih counts given nothing others
      tauto

/-- A chain is followed no further than to veiled parentheses. -/
theorem exists_follow_of_veiled (chain : Chain base calls parens n) (legible : n.Legible source)
    (plain : ∀ call ∈ calls, ∀ other, ¬ Selects source call other) (veiled : ∃ p ∈ parens, p.Veiled)
    (value : Node) (before : Option Lifetime) :
    ∃ m lifetime, n.unwrap = some m ∧
      follow source value before m = .ok ⟨.asValue, lifetime, some value⟩ := by
  induction chain generalizing before with
  | start =>
    obtain ⟨p, member, -⟩ := veiled
    cases member
  | @parens n inside calls parens encloses _ ih =>
    rw [List.exists_mem_cons_iff] at veiled
    by_cases here : n.Veiled
    · obtain ⟨c, unwrapped, markup⟩ := here.exists_unwrap
      refine ⟨c, before, unwrapped, ?_⟩
      rw [follow, if_neg (by rw [markup]; decide)]
      rfl
    · rw [encloses.unwrap_eq here]
      exact ih (legible.named encloses.mem) plain (veiled.resolve_left here) before
  | @call call callee object calls parens isCall function isMember child _ ih =>
    obtain ⟨name, called⟩ := succeeds_selectorName legible
    obtain ⟨between, modified, -⟩ := exists_modify legible called before
    have plain' : ∀ link ∈ calls, ∀ other, ¬ Selects source link other :=
      fun link member => plain link (List.mem_append_left _ member)
    obtain ⟨next, lifetime, unwrapped, followed⟩ :=
      ih ((legible.child function).child child) plain' veiled between
    have inside : inner? call = some next := by
      simp [inner?, function, isMember, child, unwrapped]
    refine ⟨call, lifetime, unwrap_of_call isCall, ?_⟩
    rw [follow_of_not_selects isCall (plain call (by simp)) called modified, inside]
    exact followed

theorem exists_object_of_inner? {call next : Node} (inside : inner? call = some next) :
    ∃ callee object, call.child? .function = some callee ∧ callee.kind = .memberAccess ∧
      callee.child? .object = some object ∧ object.unwrap = some next := by
  obtain ⟨callee, function, inside⟩ := Option.bind_eq_some_iff.mp inside
  split at inside
  · rename_i isMember
    obtain ⟨object, child, unwrapped⟩ := Option.bind_eq_some_iff.mp inside
    exact ⟨callee, object, function, isMember, child, unwrapped⟩
  · cases inside

/-- A chain without a selector is followed to its end. -/
theorem exists_follow_of_no_selector {n : Node} (legible : n.Legible source)
    (plain : ∀ base calls parens kind, Chain base calls parens n → ¬ Selects source base kind)
    (value : Node) (before : Option Lifetime) :
    ∃ lifetime, follow source value before n = .ok ⟨.asValue, lifetime, some value⟩ := by
  induction size : n.size using Nat.strongRecOn generalizing n before with
  | ind _ ih =>
    by_cases isCall : n.kind = .call
    · obtain ⟨name, called⟩ := succeeds_selectorName legible
      obtain ⟨lifetime, modified, -⟩ := exists_modify legible called before
      rw [follow_of_not_selects isCall (fun kind => plain n [] [] kind (.start isCall)) called modified]
      cases inside : inner? n with
      | none => exact ⟨lifetime, rfl⟩
      | some next =>
        obtain ⟨callee, object, function, isMember, child, unwrapped⟩ := exists_object_of_inner? inside
        have smaller : next.size < n.size := by
          have := Node.size_child_lt function
          have := Node.size_child_lt child
          have := Node.size_unwrap_le object unwrapped
          omega
        apply ih next.size (size ▸ smaller) (((legible.child function).child child).unwrap unwrapped) ?_ _ rfl
        intro base calls parens kind chain
        obtain ⟨parens, chain⟩ := Chain.of_unwrap unwrapped chain
        exact plain base _ parens kind (.call isCall function isMember child chain)
    · refine ⟨before, ?_⟩
      rw [follow, if_neg isCall]
      rfl

/-- What a value on a chain up to a selector stands for, if no parentheses are veiled. -/
theorem exists_ofValue_of_unveiled {value : Node} {kind : BindingKind} (legible : value.Legible source)
    (chain : Chain base calls parens value) (selects : Selects source base kind)
    (plain : ∀ call ∈ calls, ∀ other, ¬ Selects source call other)
    (unveiled : ∀ p ∈ parens, ¬ p.Veiled) :
    ∃ lifetime, ofValue source value = .ok ⟨kind, lifetime, base.arguments.head?⟩ ∧
      (Clear source base calls → ∀ l, lifetime = some l ↔ FirstGives source calls l ∨
        (∀ call ∈ calls, ∀ other, ¬ Gives source call other) ∧ OptionsGive source base l) := by
  obtain ⟨n, lifetime, unwrapped, followed, counts⟩ :=
    exists_follow_of_chain chain legible selects plain unveiled value none
  refine ⟨lifetime, ?_, ?_⟩
  · rw [ofValue, unwrapped]
    exact followed
  · intro clear l
    rw [counts clear]
    simp

theorem exists_ofValue_of_veiled {value : Node} (legible : value.Legible source)
    (chain : Chain base calls parens value)
    (plain : ∀ call ∈ calls, ∀ other, ¬ Selects source call other) (veiled : ∃ p ∈ parens, p.Veiled) :
    ∃ lifetime, ofValue source value = .ok ⟨.asValue, lifetime, some value⟩ := by
  obtain ⟨n, lifetime, unwrapped, followed⟩ :=
    exists_follow_of_veiled chain legible plain veiled value none
  refine ⟨lifetime, ?_⟩
  rw [ofValue, unwrapped]
  exact followed

/-- What the value of a registration stands for. On a chain up to the outermost call of a selector, the
selector gives the kind and its first argument is bound, exactly if no parentheses are veiled and no comment
takes the place of this argument. If no comment takes the place of an argument that is read for a lifetime,
either, then the lifetime is that of the first call on the selector that gives one, or else that of its
options. A value with veiled parentheses, and one whose chain reaches no selector, is bound as it stands,
parentheses included. -/
theorem ofValue_reads_chain {value : Node} (legible : value.Legible source) :
    (∀ base calls parens kind, Chain base calls parens value → Selects source base kind →
      (∀ call ∈ calls, ∀ other, ¬ Selects source call other) →
      ((∃ lifetime, ofValue source value = .ok ⟨kind, lifetime, base.operands.head?⟩) ↔
        (∀ p ∈ parens, ¬ p.Veiled) ∧ ¬ base.Obscured 1) ∧
      ((∀ p ∈ parens, ¬ p.Veiled) → Clear source base calls →
        ∃ lifetime, ofValue source value = .ok ⟨kind, lifetime, base.operands.head?⟩ ∧
          ∀ l, lifetime = some l ↔ FirstGives source calls l ∨
            (∀ call ∈ calls, ∀ other, ¬ Gives source call other) ∧ OptionsGive source base l) ∧
      ((∃ p ∈ parens, p.Veiled) →
        ∃ lifetime, ofValue source value = .ok ⟨.asValue, lifetime, some value⟩)) ∧
    ((∀ base calls parens kind, Chain base calls parens value → ¬ Selects source base kind) →
      ∃ lifetime, ofValue source value = .ok ⟨.asValue, lifetime, some value⟩) := by
  constructor
  · intro base calls parens kind chain selects plain
    refine ⟨⟨?_, ?_⟩, ?_, exists_ofValue_of_veiled legible chain plain⟩
    · rintro ⟨lifetime, bound⟩
      by_cases veiled : ∃ p ∈ parens, p.Veiled
      · -- the whole value is bound, which is larger than any argument
        obtain ⟨lifetime', whole⟩ := exists_ofValue_of_veiled legible chain plain veiled
        have same : base.operands.head? = some value :=
          congrArg Registration.bound (Except.ok.inj (bound.symm.trans whole))
        have smaller := Node.size_lt_of_mem_operands (List.mem_of_head? same)
        exact absurd chain.size_le (Nat.not_le_of_lt smaller)
      · have unveiled : ∀ p ∈ parens, ¬ p.Veiled := fun p member here => veiled ⟨p, member, here⟩
        refine ⟨unveiled, ?_⟩
        intro obscured
        -- the comment is bound, and no argument is one
        obtain ⟨lifetime', read, -⟩ := exists_ofValue_of_unveiled legible chain selects plain unveiled
        obtain ⟨c, first, markup⟩ := obscured.exists_comment
        have same : base.operands.head? = base.arguments.head? :=
          congrArg Registration.bound (Except.ok.inj (bound.symm.trans read))
        exact Node.not_isComment_of_mem_operands (List.mem_of_head? (same.trans first)) (.inr markup)
    · rintro ⟨unveiled, clear⟩
      obtain ⟨lifetime, read, -⟩ := exists_ofValue_of_unveiled legible chain selects plain unveiled
      rw [Node.head?_arguments clear] at read
      exact ⟨lifetime, read⟩
    · intro unveiled clear
      obtain ⟨lifetime, read, counts⟩ := exists_ofValue_of_unveiled legible chain selects plain unveiled
      have first : ¬ base.Obscured 1 := fun obscured => clear.1 (obscured.mono (by decide))
      rw [Node.head?_arguments first] at read
      exact ⟨lifetime, read, counts clear⟩
  · intro plain
    unfold ofValue
    cases unwrapped : value.unwrap with
    | none => exact ⟨none, rfl⟩
    | some n =>
      refine exists_follow_of_no_selector (legible.unwrap unwrapped) ?_ value none
      intro base calls parens kind chain
      obtain ⟨parens, chain⟩ := Chain.of_unwrap unwrapped chain
      exact plain base calls parens kind chain

/-! ## A chain with several modifiers -/

/-- A source with a chain: options at the selector, a `setLifetime` that names no lifetime, and two
modifiers that do. -/
def chainText : Bytes :=
  Utf8.asciiBytes "(asClass(A,\x7blifetime:'SCOPED'\x7d)/**/).setLifetime(x).transient().scoped()"

/-- The name that is bound. -/
def boundName : Node :=
  .mk { kind := .identifier, start := 9, stop := 10 } []

/-- The call of the selector. -/
def selectorCall : Node :=
  .mk { kind := .call, start := 1, stop := 31 } [
    .mk { kind := .identifier, start := 1, stop := 8, field := some .function } [],
    .mk { kind := .other "arguments", start := 8, stop := 31, field := some .arguments } [
      boundName,
      .mk { kind := .object, start := 11, stop := 30 } [
        .mk { kind := .pair, start := 12, stop := 29 } [
          .mk { kind := .propertyIdentifier, start := 12, stop := 20, field := some .key } [],
          .mk { kind := .string, start := 21, stop := 29, field := some .value } []]]]]

/-- The call of a member whose name stands up to `name`, behind the dot after the object. -/
def memberCall (object : Node) (name stop : Nat) (args : List Node) : Node :=
  .mk { kind := .call, start := 0, stop, field := some .object } [
    .mk { kind := .memberAccess, start := 0, stop := name, field := some .function } [
      object,
      .mk { kind := .propertyIdentifier, start := object.stop + 1, stop := name,
            field := some .property } []],
    .mk { kind := .other "arguments", start := name, stop, field := some .arguments } args]

/-- The call of the selector in parentheses, with a comment. -/
def selectorParens : Node :=
  .mk { kind := .parenthesized, start := 0, stop := 36, field := some .object } [
    selectorCall, .mk { kind := .comment, start := 31, stop := 35 } []]

/-- The call of `setLifetime`. -/
def setterCall : Node :=
  memberCall selectorParens 48 51 [.mk { kind := .identifier, start := 49, stop := 50 } []]

/-- The call of `transient`. -/
def transientCall : Node :=
  memberCall setterCall 61 63 []

/-- The call of `scoped`, the whole chain. -/
def scopedCall : Node :=
  memberCall transientCall 70 72 []

theorem legible_of_ascii (ascii : ∀ b ∈ source, b.toNat < 0x80) (n : Node) : n.Legible source := by
  induction n using Node.induction_on with
  | step n ih =>
    refine .mk ⟨_, Utf8.decode_of_ascii ?_⟩ ih
    intro b member
    exact ascii b (List.mem_of_mem_drop (List.mem_of_mem_take member))

theorem chain_scopedCall :
    Chain selectorCall [setterCall, transientCall, scopedCall] [selectorParens] scopedCall := by
  have selector : Chain selectorCall [] [selectorParens] selectorParens := .parens ⟨rfl, rfl⟩ (.start rfl)
  have setter : Chain selectorCall ([] ++ [setterCall]) [selectorParens] setterCall :=
    .call rfl rfl rfl rfl selector
  have transient : Chain selectorCall ([setterCall] ++ [transientCall]) [selectorParens] transientCall :=
    .call rfl rfl rfl rfl setter
  have outermost : Chain selectorCall ([setterCall, transientCall] ++ [scopedCall]) [selectorParens]
      scopedCall := .call rfl rfl rfl rfl transient
  exact outermost

/-- The innermost modifier that gives a lifetime wins over outer ones and over the options. -/
theorem ofValue_reads_chain_mixed :
    scopedCall.Legible chainText ∧
      Chain selectorCall [setterCall, transientCall, scopedCall] [selectorParens] scopedCall ∧
      Selects chainText selectorCall .asClass ∧
      Clear chainText selectorCall [setterCall, transientCall, scopedCall] ∧
      ofValue chainText scopedCall = .ok ⟨.asClass, some .transient, some boundName⟩ ∧
      ∃ lifetime, ofValue chainText boundName = .ok ⟨.asValue, lifetime, some boundName⟩ := by
  have legible : ∀ n : Node, n.Legible chainText :=
    legible_of_ascii (Utf8.lt_of_mem_asciiBytes (by decide))
  have selects : Selects chainText selectorCall .asClass := selectorName_eq_iff.mp (by decide +kernel)
  have setter : selectorName chainText (setterCall.child? .function) = .ok (some "setLifetime") := by
    decide +kernel
  have transient : selectorName chainText (transientCall.child? .function) = .ok (some "transient") := by
    decide +kernel
  have outermost : selectorName chainText (scopedCall.child? .function) = .ok (some "scoped") := by
    decide +kernel
  have plain : ∀ link ∈ [setterCall, transientCall, scopedCall], ∀ other,
      ¬ Selects chainText link other := by
    simp only [List.forall_mem_cons, Selects, ← selectorName_eq_iff, setter, transient, outermost,
      Except.ok.injEq, Option.some.injEq]
    exact ⟨by rintro ⟨⟩ <;> decide, by rintro ⟨⟩ <;> decide, by rintro ⟨⟩ <;> decide, by simp⟩
  have gives : Gives chainText transientCall .transient := Or.inl (selectorName_eq_iff.mp transient)
  have silent : ¬ ∃ l, Gives chainText setterCall l := by
    rintro ⟨l, named | ⟨-, argument, first, name, spelled, -⟩⟩
    · rw [← selectorName_eq_iff, setter, Except.ok.injEq, Option.some.injEq] at named
      cases l <;> exact absurd named (by decide)
    · -- the argument is a plain name
      cases first
      rcases spelled with member | string
      · cases kind_of_memberName member
      · cases kind_of_stringValue string
  have unobscured : ∀ call ∈ [setterCall, transientCall, scopedCall], ¬ call.Obscured 1 := by decide
  have clear : Clear chainText selectorCall [setterCall, transientCall, scopedCall] :=
    ⟨by decide, fun call member _ => unobscured call member⟩
  obtain ⟨-, reads, -⟩ :=
    (ofValue_reads_chain (legible scopedCall)).1 _ _ _ _ chain_scopedCall selects plain
  obtain ⟨lifetime, read, counts⟩ := reads (by decide) clear
  have first : lifetime = some .transient :=
    (counts .transient).mpr (Or.inl ⟨transientCall,
      ⟨[setterCall], [scopedCall], rfl, ⟨_, gives⟩, by simpa using silent⟩, gives⟩)
  refine ⟨legible scopedCall, chain_scopedCall, selects, clear, first ▸ read, ?_⟩
  apply (ofValue_reads_chain (legible boundName)).2
  -- a plain name is no call
  intro base calls parens kind chain
  cases chain with
  | start isCall => cases isCall
  | parens encloses _ => cases encloses.kind
  | call isCall => cases isCall

/-! ## Comments in the signs of markup -/

/-- A source with such a comment before a selector in parentheses. -/
def veiledText : Bytes :=
  Utf8.asciiBytes "(<!-- c\nasClass(A)).singleton()"

/-- The call of the selector. -/
def veiledSelector : Node :=
  .mk { kind := .call, start := 8, stop := 18 } [
    .mk { kind := .identifier, start := 8, stop := 15, field := some .function } [],
    .mk { kind := .other "arguments", start := 15, stop := 18, field := some .arguments } [
      .mk { kind := .identifier, start := 16, stop := 17 } []]]

/-- The call in parentheses, behind the comment. -/
def veiledParens : Node :=
  .mk { kind := .parenthesized, start := 0, stop := 19, field := some .object } [
    .mk { kind := .markupComment, start := 1, stop := 7 } [], veiledSelector]

/-- The call of `singleton`, the whole chain. -/
def veiledCall : Node :=
  memberCall veiledParens 29 31 []

/-- A source with such a comment before the argument of a selector. -/
def obscuredText : Bytes :=
  Utf8.asciiBytes "asClass(<!-- c\nA)"

/-- The comment. -/
def markupBefore : Node :=
  .mk { kind := .markupComment, start := 8, stop := 14 } []

/-- The call of the selector. -/
def obscuredSelector : Node :=
  .mk { kind := .call, start := 0, stop := 17 } [
    .mk { kind := .identifier, start := 0, stop := 7, field := some .function } [],
    .mk { kind := .other "arguments", start := 7, stop := 17, field := some .arguments } [
      markupBefore, .mk { kind := .identifier, start := 15, stop := 16 } []]]

/-- The selector in parentheses is not seen, and the whole value is bound as a value; and where the comment
stands before the argument, the comment is bound. -/
theorem markup_comment_hides_selector :
    (Chain veiledSelector [veiledCall] [veiledParens] veiledCall ∧
      Selects veiledText veiledSelector .asClass ∧
      ∃ lifetime, ofValue veiledText veiledCall = .ok ⟨.asValue, lifetime, some veiledCall⟩) ∧
    Chain obscuredSelector [] [] obscuredSelector ∧ Selects obscuredText obscuredSelector .asClass ∧
      ofValue obscuredText obscuredSelector = .ok ⟨.asClass, none, some markupBefore⟩ := by
  have selector : Chain veiledSelector [] [veiledParens] veiledParens := .parens ⟨rfl, rfl⟩ (.start rfl)
  have whole : Chain veiledSelector ([] ++ [veiledCall]) [veiledParens] veiledCall :=
    .call rfl rfl rfl rfl selector
  have legible : veiledCall.Legible veiledText :=
    legible_of_ascii (Utf8.lt_of_mem_asciiBytes (by decide)) _
  have modifier : selectorName veiledText (veiledCall.child? .function) = .ok (some "singleton") := by
    decide +kernel
  have plain : ∀ call ∈ [veiledCall], ∀ other, ¬ Selects veiledText call other := by
    simp only [List.forall_mem_singleton, Selects, ← selectorName_eq_iff, modifier, Except.ok.injEq,
      Option.some.injEq]
    rintro ⟨⟩ <;> decide
  refine ⟨⟨whole, selectorName_eq_iff.mp ?_, ?_⟩, .start rfl, selectorName_eq_iff.mp ?_, ?_⟩
  · decide +kernel
  · exact exists_ofValue_of_veiled legible whole plain ⟨veiledParens, List.mem_singleton_self _, by decide⟩
  · decide +kernel
  · decide +kernel

end Registration

end ContainerKeys
