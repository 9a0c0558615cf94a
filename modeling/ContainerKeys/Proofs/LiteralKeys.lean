import ContainerKeys.Proofs.Answers
import ContainerKeys.Proofs.Comments
import ContainerKeys.Proofs.ContainerNames
import ContainerKeys.Proofs.Diagnostics
import Mathlib.Data.List.Basic

/-!
# Keys that are registered and resolved by one literal

A literal is a key in three places: as the first of two arguments of `register`, as a quoted property of an
object given to `register`, and as the argument of `resolve`. The first two leave out the empty literal and
the third does not. So a file that registers a literal and resolves it has no error there, whatever the other
files do, just if the literal is not empty. Comments beside the literal do no harm, but for one kind: where a
comment in the signs of markup stands before it, the call contributes nothing.

* `Indexer.RegistersLiteral`, `Indexer.ResolvesLiteral` — calls that spell out a literal key.
* `Indexer.exists_draft_of_registersLiteral`, `Indexer.key_ne_empty_of_ofCall` — the keys of a `register` call.
* `Indexer.outcome_ofCall_of_obscured` — calls that contribute nothing.
* `Index.mem_shown_unregistered_iff` — the errors in the diagnostics of an index.
* `literal_key_known_unless_empty` — registering and resolving one literal.
-/

namespace ContainerKeys

open Code
open FileIndex (draftsOf usagesOf)

namespace Indexer

section

variable (x : Indexer)

/-! ## Calls with literals -/

/-- The node is a call of the method on a container. -/
def CallsOnContainer (n : Node) (method : String) : Prop :=
  n.kind = .call ∧ ∃ callee, n.child? .function = some callee ∧
    callee.memberName x.source = .ok (some method) ∧ x.isContainer (callee.child? .object) = .ok true

/-- The node is a string literal with these contents. -/
def SpellsLiteral (n : Node) (literal : String) : Prop :=
  n.stringValue x.source = .ok (some literal)

/-- The call registers the literal with some value. -/
inductive RegistersLiteral (n : Node) (literal : String) : Prop
  | argument {key value : Node} {rest : List Node} (call : x.CallsOnContainer n "register")
      (arguments : n.operands = key :: value :: rest) (spelled : x.SpellsLiteral key literal)
  | property {object property key value : Node} {rest : List Node} (call : x.CallsOnContainer n "register")
      (arguments : n.operands = object :: rest) (kind : object.kind = .object)
      (member : property ∈ object.namedChildren) (pair : property.kind = .pair)
      (quoted : property.child? .key = some key) (spelled : x.SpellsLiteral key literal)
      (bound : property.child? .value = some value)

/-- The call asks for the literal, which its argument `key` spells out. -/
structure ResolvesLiteral (n key : Node) (literal : String) : Prop where
  call : x.CallsOnContainer n "resolve"
  argument : n.operands.head? = some key
  spelled : x.SpellsLiteral key literal

end

variable {x : Indexer} {n key root : Node} {literal method : String} {fs : List Finding}

/-! ## What they report -/

theorem outcome_ofCall_of_calls (calls : x.CallsOnContainer n method)
    (handled : method = "register" ∨ method = "resolve") :
    (x.ofCall n).outcome =
      if method = "register" then (x.ofRegister n.arguments).outcome else x.ofResolve n.arguments := by
  rcases calls with ⟨-, callee, function, named, container⟩
  rw [outcome_ofCall function named handled, guarded, container]
  rfl

/-- A pair with a literal key that is not empty gives a draft of that key. -/
theorem outcome_ofProperty_of_literal {property value : Node} (pair : property.kind = .pair)
    (quoted : property.child? .key = some key) (spelled : x.SpellsLiteral key literal)
    (bound : property.child? .value = some value) (filled : literal ≠ "") :
    (x.ofProperty property).outcome = .ok [.draft ⟨literal, key, value⟩] := by
  have nodes : propertyNodes property = some (some key, some value) := by
    rw [propertyNodes, pair, quoted, bound]
  have read : Node.readName (·.keyName x.source) (some key) = .ok (some literal) :=
    Declaration.keyName_of_stringValue spelled
  have kept : (some literal).filter (· ≠ "") = some literal := by simp [filled]
  rw [ofProperty, nodes]
  show (Attempt.ofExcept (Node.readName (·.keyName x.source) (some key)) >>= _).outcome = _
  rw [Attempt.outcome_bind, Attempt.outcome_ofExcept, read]
  simp only [bind, Except.bind, kept]
  rfl

/-- A call that registers a literal drafts it as a key, unless the literal is empty or the call obscured. -/
theorem exists_draft_of_registersLiteral (registers : x.RegistersLiteral n literal)
    (clear : ¬ n.Obscured 1) (filled : literal ≠ "")
    (made : (x.ofCall n).outcome = .ok fs) : ∃ d : Draft, d.key = literal ∧ Finding.draft d ∈ fs := by
  cases registers with
  | argument call arguments spelled =>
    rename_i key value rest
    have other : key.kind ≠ .object := by
      rw [Declaration.kind_of_stringValue spelled]
      decide
    have kept : (some literal).filter (· ≠ "") = some literal := by simp [filled]
    obtain ⟨read, arguments, others⟩ := Node.exists_arguments_eq_cons clear arguments
    -- there is a second argument, so something is read behind the literal
    obtain ⟨value, read, rfl⟩ : ∃ a more, read = a :: more := by
      apply List.exists_cons_of_ne_nil
      rintro rfl
      cases others
    rw [outcome_ofCall_of_calls call (.inl rfl), if_pos rfl, arguments] at made
    change Attempt.outcome (if key.kind = .object then _ else _) = _ at made
    rw [if_neg other] at made
    change (Attempt.ofExcept (key.stringValue x.source) >>= _).outcome = .ok fs at made
    rw [Attempt.outcome_bind, Attempt.outcome_ofExcept, spelled] at made
    simp only [bind, Except.bind, kept] at made
    cases made
    exact ⟨⟨literal, key, value⟩, rfl, List.mem_singleton_self _⟩
  | property call arguments kind member pair quoted spelled bound =>
    rename_i object property key value rest
    obtain ⟨read, arguments, -⟩ := Node.exists_arguments_eq_cons clear arguments
    rw [outcome_ofCall_of_calls call (.inl rfl), if_pos rfl, arguments] at made
    change Attempt.outcome (if object.kind = .object then _ else _) = _ at made
    rw [if_pos kind] at made
    rcases Attempt.outcome_gather_eq_ok made with ⟨rfl, -⟩
    refine ⟨⟨literal, key, value⟩, rfl, List.mem_flatMap.mpr ⟨property, member, ?_⟩⟩
    rw [Attempt.items_of_ok (outcome_ofProperty_of_literal pair quoted spelled bound filled)]
    exact List.mem_singleton_self _

/-- A call that resolves a literal reports it, empty or not, unless the call is obscured. -/
theorem outcome_ofCall_of_resolvesLiteral (resolves : x.ResolvesLiteral n key literal)
    (clear : ¬ n.Obscured 1) :
    (x.ofCall n).outcome = .ok [x.usageAt key literal .resolveCall] := by
  rcases resolves with ⟨call, argument, spelled⟩
  rw [← Node.head?_arguments clear] at argument
  rcases List.head?_eq_some_iff.mp argument with ⟨rest, arguments⟩
  rw [outcome_ofCall_of_calls call (.inr rfl), if_neg (by decide), arguments, ofResolve, spelled]
  rfl

/-- An obscured call contributes nothing: the comment is no literal, and no object either. -/
theorem outcome_ofCall_of_obscured (calls : x.CallsOnContainer n method)
    (handled : method = "register" ∨ method = "resolve") (obscured : n.Obscured 1) :
    (x.ofCall n).outcome = .ok [] := by
  obtain ⟨c, first, markup⟩ := obscured.exists_comment
  obtain ⟨rest, arguments⟩ := List.head?_eq_some_iff.mp first
  have nothing : c.stringValue x.source = .ok none := by
    rw [Node.stringValue, if_neg (by rw [markup]; decide)]
    rfl
  rw [outcome_ofCall_of_calls calls handled, arguments]
  split
  · change Attempt.outcome (if c.kind = .object then _ else _) = _
    rw [if_neg (by rw [markup]; decide)]
    cases rest with
    | nil => rfl
    | cons value more =>
      change (Attempt.ofExcept (c.stringValue x.source) >>= _).outcome = _
      rw [Attempt.outcome_bind, Attempt.outcome_ofExcept, nothing]
      rfl
  · rw [ofResolve, nothing]
    rfl

theorem RegistersLiteral.call (registers : x.RegistersLiteral n literal) :
    x.CallsOnContainer n "register" := by
  cases registers with
  | argument call => exact call
  | property call => exact call

theorem key_ne_empty_of_ofProperty (made : (x.ofProperty n).outcome = .ok fs) :
    ∀ d, Finding.draft d ∈ fs → d.key ≠ "" := by
  unfold ofProperty at made
  split at made
  · cases made
    simp
  · rcases Attempt.outcome_bind_eq_ok.mp made with ⟨name, -, made⟩
    split at made
    · rename_i kept _ _
      cases made
      intro d member
      cases List.mem_singleton.mp member
      simpa using (Option.filter_eq_some_iff.mp kept).2
    · cases made
      simp

theorem key_ne_empty_of_ofRegister {args : List Node} (made : (x.ofRegister args).outcome = .ok fs) :
    ∀ d, Finding.draft d ∈ fs → d.key ≠ "" := by
  unfold ofRegister at made
  split at made
  · cases made
    simp
  · split at made
    · intro d member
      rcases Attempt.mem_of_outcome_gather_eq_ok made member with ⟨property, -, here, made, found⟩
      exact key_ne_empty_of_ofProperty made d found
    · split at made
      · cases made
        simp
      · rcases Attempt.outcome_bind_eq_ok.mp made with ⟨name, -, made⟩
        split at made
        · rename_i kept
          cases made
          intro d member
          cases List.mem_singleton.mp member
          simpa using (Option.filter_eq_some_iff.mp kept).2
        · cases made
          simp

/-- No call drafts the empty key. -/
theorem key_ne_empty_of_ofCall (made : (x.ofCall n).outcome = .ok fs) :
    ∀ d, Finding.draft d ∈ fs → d.key ≠ "" := by
  unfold ofCall at made
  split at made
  · cases made
    simp
  · rcases Attempt.outcome_bind_eq_ok.mp made with ⟨method, -, made⟩
    split at made
    · rcases Attempt.outcome_bind_eq_ok.mp made with ⟨container, -, made⟩
      split at made
      · split at made
        · exact key_ne_empty_of_ofRegister made
        · intro d member
          exact absurd (uses_ofResolve made _ member) id
      · cases made
        simp
    · cases made
      simp

end Indexer

/-! ## Files -/

namespace FileIndex

variable {files : FileTree} {x : Indexer} {root n key : Node} {index : FileIndex} {literal : String}

theorem exists_registration_of_registersLiteral (indexed : (ofTree files x root).outcome = .ok index)
    (met : n.Within root) (registers : x.RegistersLiteral n literal) (clear : ¬ n.Obscured 1)
    (filled : literal ≠ "") : ∃ d ∈ index.registrations, d.key = literal := by
  rcases (Node.mem_preorder_iff none).mpr met with ⟨v, listed, rfl⟩
  rcases records_of_visit indexed listed with ⟨fs, visited, records⟩
  rw [Indexer.visit_call registers.call.1] at visited
  rcases Indexer.exists_draft_of_registersLiteral registers clear filled visited with ⟨draft, keyed, reported⟩
  rcases records.registrations draft reported with ⟨d, member, same, -⟩
  exact ⟨d, member, same.trans keyed⟩

theorem usage_of_resolvesLiteral (indexed : (ofTree files x root).outcome = .ok index)
    (met : n.Within root) (resolves : x.ResolvesLiteral n key literal) (clear : ¬ n.Obscured 1) :
    ⟨x.file, key.range x.source, literal, .resolveCall⟩ ∈ index.usages := by
  rcases (Node.mem_preorder_iff none).mpr met with ⟨v, listed, rfl⟩
  rcases records_of_visit indexed listed with ⟨fs, visited, records⟩
  rw [Indexer.visit_call resolves.call.1, Indexer.outcome_ofCall_of_resolvesLiteral resolves clear] at visited
  apply records.usages
  rw [← Except.ok.inj visited]
  exact List.mem_singleton_self _

/-- No file registers the empty key. -/
theorem key_ne_empty_of_ofTree (indexed : (ofTree files x root).outcome = .ok index) :
    ∀ d ∈ index.registrations, d.key ≠ "" := by
  rcases ofTree_eq_ok_iff.mp indexed with ⟨fs, definitions, found, defined, rfl⟩
  intro d member
  rcases (Attempt.mem_mapM_iff defined).mp member with ⟨draft, drafted, made⟩
  rw [(Indexer.define_eq_ok made).1]
  rw [Indexer.draftsOf_findings found, List.mem_flatMap] at drafted
  rcases drafted with ⟨v, listed, drafted⟩
  unfold Indexer.draftsAt at drafted
  split at drafted
  · rename_i call
    have visited := ((Indexer.findings_eq_ok found).2 v listed).2
    rw [Indexer.visit_call call] at visited
    rw [Attempt.items_of_ok visited] at drafted
    exact Indexer.key_ne_empty_of_ofCall visited draft (mem_draftsOf.mp drafted)
  · cases drafted

theorem Becomes.key_ne_empty {w : Workspace} {containers : List String} {file : Path}
    (becomes : Becomes w containers file index) : ∀ d ∈ index.registrations, d.key ≠ "" := by
  cases becomes with
  | indexed read parsed done => exact key_ne_empty_of_ofTree done
  | unreadable => simp
  | unparsed => simp
  | undecodable => simp
  | tooDeep => simp

end FileIndex

/-! ## Builds -/

/-- The diagnostics of a file hold an error about a key just if the key is used there and not registered. -/
theorem Index.mem_shown_unregistered_iff {index : Index} {report : Bool} {file : Path} {d : Diagnostic}
    {key : String} (complains : d.complaint = .unregistered key) :
    d ∈ DiagnosticTable.shown (index.diagnostics report) file ↔
      index.keys.get? key = none ∧
        ∃ u ∈ index.usages, u.file = file ∧ u.key = key ∧ d = ⟨u.file, u.range, .unregistered u.key⟩ := by
  have errors : d ∈ index.unregisteredIn file ↔ index.keys.get? key = none ∧
      ∃ u ∈ index.usages, u.file = file ∧ u.key = key ∧ d = ⟨u.file, u.range, .unregistered u.key⟩ := by
    unfold unregisteredIn
    simp only [List.mem_map, List.mem_filter, decide_eq_true_eq]
    constructor
    · rintro ⟨u, ⟨used, here, unknown⟩, rfl⟩
      cases complains
      exact ⟨unknown, u, used, here, rfl, rfl⟩
    · rintro ⟨unknown, u, used, here, rfl, rfl⟩
      exact ⟨u, ⟨used, here, unknown⟩, rfl⟩
  -- warnings are about something else
  have other : d ∉ if report then index.warningsIn file index.duplicates else [] := by
    intro warned
    have warned : d ∈ index.warningsIn file index.duplicates := by
      cases report with
      | true => exact warned
      | false => cases warned
    rcases List.mem_filterMap.mp (List.mem_filter.mp warned).1 with ⟨displaced, -, made⟩
    unfold duplicateDiagnostic? at made
    split at made
    · cases made
      cases complains
    · cases made
  have entry := index.get?_diagnostics report file
  dsimp only at entry
  generalize (if report then index.warningsIn file index.duplicates else []) = warnings at entry other
  rw [DiagnosticTable.shown, entry, ← errors]
  split
  · show d ∈ index.unregisteredIn file ++ _ ↔ _
    rw [List.mem_append, or_iff_left other]
  · rename_i silent
    show d ∈ [] ↔ _
    refine iff_of_false List.not_mem_nil ?_
    intro complaint
    rcases (errors.mp complaint).2 with ⟨u, used, here, -, -⟩
    exact silent (.inl ⟨u, used, here⟩)

section

variable {w : Workspace} {settings : Settings} {file : Path}

/-- A build knows the keys that a file found by it registers. -/
theorem has_of_registration (found : file ∈ (Build.findFiles w.files settings).value) {d : Definition}
    (registered : d ∈ (FileIndex.ofFile w settings.containerNames file).value.registrations) :
    (build w settings).value.1.keys.has d.key = true := by
  have known : lastOf? d.key ((Build.findFiles w.files settings).value.flatMap fun file =>
      (FileIndex.ofFile w settings.containerNames file).value.registrations) ≠ none := by
    intro none
    exact lastOf?_eq_none_iff.mp none d (List.mem_flatMap.mpr ⟨file, found, registered⟩) rfl
  rw [Table.has, (summarises_build w settings).get?_keys]
  exact Option.isSome_iff_ne_none.mpr known

/-- No build knows the empty key. -/
theorem get?_keys_build_empty (w : Workspace) (settings : Settings) :
    (build w settings).value.1.keys.get? "" = none := by
  rw [(summarises_build w settings).get?_keys, lastOf?_eq_none_iff]
  intro d registered
  rcases List.mem_flatMap.mp registered with ⟨file, -, registered⟩
  exact (FileIndex.becomes_ofFile w settings.containerNames file).key_ne_empty d registered

/-- A build knows the usages in a file found by it. -/
theorem mem_usages_build (found : file ∈ (Build.findFiles w.files settings).value) {u : Usage}
    (used : u ∈ (FileIndex.ofFile w settings.containerNames file).value.usages) :
    u ∈ (build w settings).value.1.usages := by
  rw [usages_build]
  exact List.mem_flatMap.mpr ⟨file, found, used⟩

/-- The tree of a file without a fault was indexed. -/
theorem FileIndex.Becomes.indexed_of_sound {containers : List String} {source : Bytes} {root : Node}
    {index : FileIndex} (becomes : Becomes w containers file index) (sound : index.fault = none)
    (read : w.files.read file = .ok source) (parsed : parse w.parser file source = .ok root) :
    (ofTree w.files ⟨file, source, containers⟩ root).outcome = .ok index := by
  cases becomes with
  | indexed read' parsed' done =>
    cases read.symm.trans read'
    cases parsed.symm.trans parsed'
    exact done
  | unreadable => cases sound
  | unparsed => cases sound
  | undecodable => cases sound
  | tooDeep => cases sound

/-- A file registers a literal and resolves it. Whatever else is in the build, the `resolve` call is a usage
of the key, unless it is obscured. If the literal is not empty and the `register` call not obscured, the
build knows the key, and no usage of it is an error anywhere; if the literal is empty, the build does not
know it, and the `resolve` call is an error. An obscured call contributes nothing. -/
theorem literal_key_known_unless_empty {source : Bytes} {root registering resolving key : Node}
    {literal : String} (found : file ∈ (Build.findFiles w.files settings).value)
    (read : w.files.read file = .ok source) (parsed : parse w.parser file source = .ok root)
    (sound : (FileIndex.ofFile w settings.containerNames file).value.fault = none)
    (met : registering.Within root)
    (registers : Indexer.RegistersLiteral ⟨file, source, settings.containerNames⟩ registering literal)
    (met' : resolving.Within root)
    (resolves : Indexer.ResolvesLiteral ⟨file, source, settings.containerNames⟩ resolving key literal) :
    let index := (build w settings).value.1
    (¬ resolving.Obscured 1 →
      (⟨file, key.range source, literal, .resolveCall⟩ : Usage) ∈ index.usages) ∧
    (literal ≠ "" → ¬ registering.Obscured 1 → index.keys.has literal = true ∧
      ∀ report other, ∀ d ∈ DiagnosticTable.shown (index.diagnostics report) other,
        d.complaint ≠ .unregistered literal) ∧
    (literal = "" → index.keys.has literal = false ∧
      (¬ resolving.Obscured 1 → ∀ report, ⟨file, key.range source, .unregistered literal⟩ ∈
        DiagnosticTable.shown (index.diagnostics report) file)) ∧
    ∀ call ∈ [registering, resolving], call.Obscured 1 → ∀ parent,
      (Visitor.visit (Indexer.keyVisitor ⟨file, source, settings.containerNames⟩) ⟨call, parent⟩).outcome =
        .ok [] := by
  intro index
  have indexed := (FileIndex.becomes_ofFile w settings.containerNames file).indexed_of_sound sound read parsed
  have used (clear : ¬ resolving.Obscured 1) :=
    mem_usages_build found (FileIndex.usage_of_resolvesLiteral indexed met' resolves clear)
  refine ⟨used, ?_, ?_, ?_⟩
  · intro filled clear
    rcases FileIndex.exists_registration_of_registersLiteral indexed met registers clear filled with
      ⟨d, registered, keyed⟩
    have known : index.keys.has literal = true := keyed ▸ has_of_registration found registered
    refine ⟨known, ?_⟩
    intro report other d listed complains
    have unknown := ((Index.mem_shown_unregistered_iff complains).mp listed).1
    rw [Table.has, unknown] at known
    cases known
  · rintro rfl
    have unknown : index.keys.get? "" = none := get?_keys_build_empty w settings
    refine ⟨by rw [Table.has, unknown]; rfl, ?_⟩
    intro clear report
    apply (Index.mem_shown_unregistered_iff rfl).mpr
    exact ⟨unknown, _, used clear, rfl, rfl, rfl⟩
  · simp only [List.forall_mem_cons]
    refine ⟨?_, ?_, by simp⟩
    · intro obscured parent
      rw [Indexer.visit_call registers.call.1]
      exact Indexer.outcome_ofCall_of_obscured registers.call (.inl rfl) obscured
    · intro obscured parent
      rw [Indexer.visit_call resolves.call.1]
      exact Indexer.outcome_ofCall_of_obscured resolves.call (.inr rfl) obscured

end

/-! ## One file -/

theorem value_findFiles_oneFile {bytes : Bytes} {tree : Node} (small : bytes.length ≤ 1000000) :
    (Build.findFiles (oneFile bytes tree).files (rootedAt ["/w"])).value = ["/w/a.js"] := by
  rw [Build.value_findFiles]
  show distinct ((Build.filesBelow (oneFile bytes tree).files _ "/w").value ++ []) = _
  rw [value_filesBelow_oneSlash small]
  rfl

/-- A program of two calls, as statements. -/
def callsInTurn (first second : Node) : Node :=
  .mk { kind := .other "program", start := first.start, stop := second.stop + 1 } [
    .mk { kind := .expressionStatement, start := first.start, stop := first.stop + 1 } [first],
    .mk { kind := .expressionStatement, start := second.start, stop := second.stop + 1 } [second]]

theorem within_callsInTurn (first second : Node) (named : first.label.named = true)
    (named' : second.label.named = true) :
    first.Within (callsInTurn first second) ∧ second.Within (callsInTurn first second) := by
  constructor
  · have inner : first.Within (.mk
        { kind := .expressionStatement, start := first.start, stop := first.stop + 1 } [first]) :=
      .single (List.mem_filter.mpr ⟨List.mem_singleton_self _, named⟩)
    exact inner.tail (List.mem_filter.mpr ⟨List.mem_cons_self, rfl⟩)
  · have inner : second.Within (.mk
        { kind := .expressionStatement, start := second.start, stop := second.stop + 1 } [second]) :=
      .single (List.mem_filter.mpr ⟨List.mem_singleton_self _, named'⟩)
    exact inner.tail (List.mem_filter.mpr ⟨List.mem_cons_of_mem _ List.mem_cons_self, rfl⟩)

/-- The bytes of a file that registers and resolves a key, in different quotes. -/
def quotedTwice : Bytes := Utf8.encode "container.register(\x7b'k':1\x7d);container.resolve(\"k\");"

/-- Its `register` call. -/
def registerQuoted : Node :=
  .mk { kind := .call, start := 0, stop := 27 } [
    .mk { kind := .memberAccess, start := 0, stop := 18, field := some .function } [
      .mk { kind := .identifier, start := 0, stop := 9, field := some .object } [],
      .mk { kind := .propertyIdentifier, start := 10, stop := 18, field := some .property } []],
    .mk { kind := .other "arguments", start := 18, stop := 27, field := some .arguments } [
      .mk { kind := .object, start := 19, stop := 26 } [
        .mk { kind := .pair, start := 20, stop := 25 } [
          .mk { kind := .string, start := 20, stop := 23, field := some .key } [],
          .mk { kind := .other "number", start := 24, stop := 25, field := some .value } []]]]]

/-- Its `resolve` call. -/
def resolveQuoted : Node :=
  .mk { kind := .call, start := 28, stop := 50 } [
    .mk { kind := .memberAccess, start := 28, stop := 45, field := some .function } [
      .mk { kind := .identifier, start := 28, stop := 37, field := some .object } [],
      .mk { kind := .propertyIdentifier, start := 38, stop := 45, field := some .property } []],
    .mk { kind := .other "arguments", start := 45, stop := 50, field := some .arguments } [
      .mk { kind := .string, start := 46, stop := 49 } []]]

theorem registers_quoted :
    Indexer.RegistersLiteral ⟨"/w/a.js", quotedTwice, ["container"]⟩ registerQuoted "k" := by
  refine .property ⟨rfl, _, rfl, ?_, ?_⟩ rfl rfl List.mem_cons_self rfl rfl ?_ rfl
  · decide +kernel
  · decide +kernel
  · unfold Indexer.SpellsLiteral
    decide +kernel

theorem resolves_quoted :
    Indexer.ResolvesLiteral ⟨"/w/a.js", quotedTwice, ["container"]⟩ resolveQuoted
      (.mk { kind := .string, start := 46, stop := 49 } []) "k" := by
  refine ⟨⟨rfl, _, rfl, ?_, ?_⟩, rfl, ?_⟩
  · decide +kernel
  · decide +kernel
  · unfold Indexer.SpellsLiteral
    decide +kernel

theorem sound_quoted :
    parse (oneFile quotedTwice (callsInTurn registerQuoted resolveQuoted)).parser "/w/a.js" quotedTwice =
        .ok (callsInTurn registerQuoted resolveQuoted) ∧
      (FileIndex.ofFile (oneFile quotedTwice (callsInTurn registerQuoted resolveQuoted)) ["container"]
        "/w/a.js").value.fault = none := by
  constructor
  · rfl
  · decide +kernel

/-- The key of the two calls is known, and nothing is wrong with it. -/
theorem literal_key_known_quoted :
    let w := oneFile quotedTwice (callsInTurn registerQuoted resolveQuoted)
    let index := (build w (rootedAt ["/w"])).value.1
    "/w/a.js" ∈ (Build.findFiles w.files (rootedAt ["/w"])).value ∧
      Indexer.RegistersLiteral ⟨"/w/a.js", quotedTwice, ["container"]⟩ registerQuoted "k" ∧
      (∃ key, Indexer.ResolvesLiteral ⟨"/w/a.js", quotedTwice, ["container"]⟩ resolveQuoted key "k" ∧
        ⟨"/w/a.js", key.range quotedTwice, "k", .resolveCall⟩ ∈ index.usages) ∧
      index.keys.has "k" = true ∧
      ∀ report other, ∀ d ∈ DiagnosticTable.shown (index.diagnostics report) other,
        d.complaint ≠ .unregistered "k" := by
  intro w index
  have small : quotedTwice.length ≤ 1000000 := by
    have length : quotedTwice.length = 51 := by decide +kernel
    omega
  have found : "/w/a.js" ∈ (Build.findFiles w.files (rootedAt ["/w"])).value := by
    rw [value_findFiles_oneFile small]
    exact List.mem_singleton_self _
  rcases within_callsInTurn registerQuoted resolveQuoted rfl rfl with ⟨met, met'⟩
  rcases literal_key_known_unless_empty found (read_oneFile _ _) sound_quoted.1 sound_quoted.2 met registers_quoted
    met' resolves_quoted with ⟨used, known, -⟩
  exact ⟨found, registers_quoted, ⟨_, resolves_quoted, used (by decide)⟩, known (by decide) (by decide)⟩

/-- The bytes of a file that registers and resolves the empty literal. -/
def emptyTwice : Bytes := Utf8.encode "container.register('', 1); container.resolve('');"

/-- Its `register` call. -/
def registerEmpty : Node :=
  .mk { kind := .call, start := 0, stop := 25 } [
    .mk { kind := .memberAccess, start := 0, stop := 18, field := some .function } [
      .mk { kind := .identifier, start := 0, stop := 9, field := some .object } [],
      .mk { kind := .propertyIdentifier, start := 10, stop := 18, field := some .property } []],
    .mk { kind := .other "arguments", start := 18, stop := 25, field := some .arguments } [
      .mk { kind := .string, start := 19, stop := 21 } [],
      .mk { kind := .other "number", start := 23, stop := 24 } []]]

/-- Its `resolve` call. -/
def resolveEmpty : Node :=
  .mk { kind := .call, start := 27, stop := 48 } [
    .mk { kind := .memberAccess, start := 27, stop := 44, field := some .function } [
      .mk { kind := .identifier, start := 27, stop := 36, field := some .object } [],
      .mk { kind := .propertyIdentifier, start := 37, stop := 44, field := some .property } []],
    .mk { kind := .other "arguments", start := 44, stop := 48, field := some .arguments } [
      .mk { kind := .string, start := 45, stop := 47 } []]]

theorem registers_empty :
    Indexer.RegistersLiteral ⟨"/w/a.js", emptyTwice, ["container"]⟩ registerEmpty "" := by
  refine .argument ⟨rfl, _, rfl, ?_, ?_⟩ rfl ?_
  · decide +kernel
  · decide +kernel
  · unfold Indexer.SpellsLiteral
    decide +kernel

theorem resolves_empty :
    Indexer.ResolvesLiteral ⟨"/w/a.js", emptyTwice, ["container"]⟩ resolveEmpty
      (.mk { kind := .string, start := 45, stop := 47 } []) "" := by
  refine ⟨⟨rfl, _, rfl, ?_, ?_⟩, rfl, ?_⟩
  · decide +kernel
  · decide +kernel
  · unfold Indexer.SpellsLiteral
    decide +kernel

theorem ofFile_empty :
    (FileIndex.ofFile (oneFile emptyTwice (callsInTurn registerEmpty resolveEmpty)) ["container"] "/w/a.js").value =
      { file := "/w/a.js", usages := [⟨"/w/a.js", ⟨⟨0, 45⟩, ⟨0, 47⟩⟩, "", .resolveCall⟩] } := by
  decide +kernel

/-- The empty literal is registered and resolved in a file without a fault, and the `resolve` call is an
error. -/
theorem empty_literal_unregistered :
    let w := oneFile emptyTwice (callsInTurn registerEmpty resolveEmpty)
    let index := (build w (rootedAt ["/w"])).value.1
    (FileIndex.ofFile w ["container"] "/w/a.js").value.fault = none ∧
      Indexer.RegistersLiteral ⟨"/w/a.js", emptyTwice, ["container"]⟩ registerEmpty "" ∧
      (∃ key, Indexer.ResolvesLiteral ⟨"/w/a.js", emptyTwice, ["container"]⟩ resolveEmpty key "") ∧
      index.keys.has "" = false ∧
      ∀ report, ⟨"/w/a.js", ⟨⟨0, 45⟩, ⟨0, 47⟩⟩, .unregistered ""⟩ ∈
        DiagnosticTable.shown (index.diagnostics report) "/w/a.js" := by
  intro w index
  have small : emptyTwice.length ≤ 1000000 := by
    have length : emptyTwice.length = 49 := by decide +kernel
    omega
  have found : "/w/a.js" ∈ (Build.findFiles w.files (rootedAt ["/w"])).value := by
    rw [value_findFiles_oneFile small]
    exact List.mem_singleton_self _
  have used : ⟨"/w/a.js", ⟨⟨0, 45⟩, ⟨0, 47⟩⟩, "", .resolveCall⟩ ∈ index.usages := by
    apply mem_usages_build found
    show _ ∈ (FileIndex.ofFile w ["container"] "/w/a.js").value.usages
    rw [ofFile_empty]
    exact List.mem_singleton_self _
  have unknown : index.keys.get? "" = none := get?_keys_build_empty w _
  refine ⟨by rw [ofFile_empty], registers_empty, ⟨_, resolves_empty⟩, by rw [Table.has, unknown]; rfl, ?_⟩
  intro report
  exact (Index.mem_shown_unregistered_iff rfl).mpr ⟨unknown, _, used, rfl, rfl, rfl⟩

end ContainerKeys
