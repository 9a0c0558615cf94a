import ContainerKeys.Proofs.Answers
import ContainerKeys.Proofs.Comments

/-!
# What a file exports

The exports and declarations of a file, listed in the order of its top-level statements, and the answer
that they give for an export name: the last export of the name, led on to the last declaration if it is a
plain name that the file declares, or else the last declaration of the name itself. An export whose name is
neither a plain name nor a string, as the keyword in `export { A as default }`, does not count.

An assignment exports if its target is `module.exports`, or a property of this or of `exports`. It is read
off the text of the target, spaces left out, and comments in the signs of markup are taken for expressions;
so what is read is what is exported as long as assignments are plainly written.

* `Declaration.exportsOf`, `Declaration.declarationsOf` — what a file exports and declares.
* `Declaration.readExportsOf` — the exports that are read off a file.
* `Declaration.PlainlyWritten` — statements off which their exports are read.
* `Declaration.Answer` — the declaration of an export, by these lists.
* `Declaration.find_eq_ok` — the search finds the answer among what is read.
* `Declaration.locate_last_export` — so the answer is found in every file that can be read.
-/

namespace ContainerKeys

/-! ## Last elements -/

/-- The last element of the list that has the property. -/
def IsLast (P : α → Prop) (l : List α) (a : α) : Prop :=
  ∃ before after, l = before ++ a :: after ∧ P a ∧ ∀ b ∈ after, ¬ P b

theorem isLast_concat {P : α → Prop} {a b : α} {l : List α} :
    IsLast P (l ++ [b]) a ↔ P b ∧ a = b ∨ ¬ P b ∧ IsLast P l a := by
  constructor
  · rintro ⟨before, after, split, holds, none⟩
    -- the new element is the one itself, or the last behind it
    rcases List.eq_nil_or_concat' after with rfl | ⟨after, last, rfl⟩
    · rcases List.append_inj' split rfl with ⟨rfl, same⟩
      cases same
      exact .inl ⟨holds, rfl⟩
    · rw [← List.cons_append, ← List.append_assoc] at split
      rcases List.append_inj' split rfl with ⟨rfl, same⟩
      cases same
      refine .inr ⟨none b (by simp), before, after, rfl, holds, ?_⟩
      intro c member
      exact none c (List.mem_append_left _ member)
  · rintro (⟨holds, rfl⟩ | ⟨fails, before, after, rfl, holds, none⟩)
    · exact ⟨l, [], rfl, holds, List.forall_mem_nil _⟩
    · refine ⟨before, after ++ [b], by rw [List.append_assoc, List.cons_append], holds, ?_⟩
      intro c member
      rcases List.mem_append.mp member with earlier | last
      · exact none c earlier
      · rw [List.mem_singleton.mp last]
        exact fails

/-- Elements without the property can be left out. -/
theorem isLast_filter {P : α → Prop} {keep : α → Bool} (kept : ∀ a, P a → keep a = true) {a : α}
    {l : List α} : IsLast P (l.filter keep) a ↔ IsLast P l a := by
  induction l using List.reverseRecOn with
  | nil => rfl
  | append_singleton l b ih =>
    rw [List.filter_append, isLast_concat]
    by_cases holds : P b
    · rw [List.filter_cons_of_pos (kept b holds), List.filter_nil, isLast_concat]
      simp [holds]
    · by_cases keeps : keep b = true
      · rw [List.filter_cons_of_pos keeps, List.filter_nil, isLast_concat, ih]
      · rw [List.filter_cons_of_neg keeps, List.filter_nil, List.append_nil, ih]
        simp [holds]

/-- The value of the last entry under a name. -/
def lastNamed? (entries : List (String × α)) (name : String) : Option α :=
  entries.reverse.findSome? fun e => if e.1 = name then some e.2 else none

theorem lastNamed?_eq_some_iff {entries : List (String × α)} {name : String} {a : α} :
    lastNamed? entries name = some a ↔ IsLast (·.1 = name) entries (name, a) := by
  induction entries using List.reverseRecOn with
  | nil => simp [lastNamed?, IsLast]
  | append_singleton entries e ih =>
    rw [isLast_concat, ← ih, lastNamed?, List.reverse_concat, List.findSome?_cons]
    by_cases named : e.1 = name
    · simp [named, Prod.ext_iff, eq_comm]
    · simp [named, lastNamed?]

theorem lastNamed?_eq_none_iff {entries : List (String × α)} {name : String} :
    lastNamed? entries name = none ↔ ∀ e ∈ entries, e.1 ≠ name := by
  simp [lastNamed?]

/-- The last entry under a name is decided by any of the entries that include those under the name. -/
theorem lastNamed?_congr {es es' : List (String × α)} {name : String} {keep : String × α → Bool}
    (kept : ∀ e, e.1 = name → keep e = true) (same : es.filter keep = es'.filter keep) :
    lastNamed? es name = lastNamed? es' name := by
  apply Option.ext
  intro a
  rw [lastNamed?_eq_some_iff, lastNamed?_eq_some_iff, ← isLast_filter kept, same, isLast_filter kept]

namespace Declaration

open Code

/-! ## Texts -/

section

variable (source : Bytes)

/-- The characters of a node; none if its bytes are no text. -/
def characters (n : Node) : List Char :=
  match n.text source with
  | .ok text => text
  | .error _ => []

/-- What is written at a node. -/
def written (n : Node) : String :=
  String.ofList (characters source n)

/-- What is written at a node, its spaces left out. -/
def writtenDensely (n : Node) : String :=
  String.ofList ((characters source n).filter (· ≠ ' '))

/-- The name that a node stands for: the contents of a string, and what is written at any other node. -/
def nameAt (n : Node) : String :=
  if n.kind = .string then String.ofList ((characters source n).drop 1).dropLast else written source n

end

variable {source : Bytes} {n : Node}

theorem characters_of_ok {text : List Char} (h : n.text source = .ok text) : characters source n = text := by
  rw [characters, h]

theorem written_of_ok {name : String} (h : n.name source = .ok name) : name = written source n := by
  rcases except_bind_eq_ok.mp h with ⟨text, read, h⟩
  cases h
  rw [written, characters_of_ok read]

theorem writtenDensely_of_ok {text : String} (h : denseText source n = .ok text) :
    text = writtenDensely source n := by
  rcases except_bind_eq_ok.mp h with ⟨text, read, h⟩
  cases h
  rw [writtenDensely, characters_of_ok read]

/-- A node of a kind that spells keys spells out its name. -/
theorem nameAt_of_ok {key : Option String} (h : n.keyName source = .ok key) :
    key = if SpellsKey n then some (nameAt source n) else none := by
  rw [keyName_eq] at h
  unfold nameAt
  split at h
  · rename_i string
    rw [Node.stringValue, if_pos string] at h
    rcases except_bind_eq_ok.mp h with ⟨text, read, h⟩
    cases h
    rw [if_pos (spellsKey_of_string string), if_pos string, characters_of_ok read]
  · rename_i other
    split at h
    · rename_i spells
      rcases except_bind_eq_ok.mp ((bind_pure_comp _ _).trans h) with ⟨name, read, h⟩
      cases h
      rw [if_pos spells, if_neg other, written_of_ok read]
    · rename_i none
      cases h
      rw [if_neg none]

/-! ## Exports and declarations of a file -/

/-- Something that is exported under a name. -/
structure Export where
  name : String
  /-- The node that the name stands for. -/
  node : Option Node
  /-- Is the name spelled out, by a plain name or a string? -/
  counts : Bool := true

/-- The nodes that spell the names which a declaration introduces, in order. -/
def nameNodes (declaration : Node) : List Node :=
  if declaration.kind ∈ ownKinds then (declaration.child? .name).toList
  else if declaration.kind ∈ variableKinds then
    declaration.namedChildren.flatMap fun d =>
      (d.child? .name).toList.filter fun name => d.kind = .declarator ∧ name.kind = .identifier
  else []

/-- The nodes of the names that a top-level statement declares. -/
def statementNames (statement : Node) : List Node :=
  if statement.kind = .exportStatement then (statement.child? .declaration).toList.flatMap nameNodes
  else if statement.kind = .expressionStatement then []
  else nameNodes statement

section

variable (source : Bytes)

/-- The exports of a clause: each is named by what stands behind `as`, or else by itself. -/
def clauseExports (clause : Node) : List Export :=
  clause.namedChildren.flatMap fun s =>
    if s.kind = .exportSpecifier then
      ((s.child? .alias).or (s.child? .name)).toList.map fun name =>
        ⟨nameAt source name, s.child? .name, SpellsKey name⟩
    else []

/-- The exports of an export statement: the names that it declares, the default, and its clauses. -/
def exportStatementExports (statement : Node) : List Export :=
  ((statement.child? .declaration).toList.flatMap nameNodes).map (fun m => ⟨written source m, some m, true⟩) ++
    (if statement.children.any (·.kind = .defaultKeyword) then
      ((statement.child? .declaration).or (statement.child? .value)).toList.map fun d =>
        ⟨defaultName, (d.child? .name).or (some d), true⟩
    else []) ++
    (statement.namedChildren.filter (·.kind = .exportClause)).flatMap (clauseExports source)

/-- The exports of a property of an object that is the default export. -/
def propertyExports (property : Node) : List Export :=
  if property.kind = .shorthandProperty then [⟨written source property, some property, true⟩]
  else if property.kind = .pair then
    (property.child? .key).toList.map fun key => ⟨nameAt source key, property.child? .value, SpellsKey key⟩
  else []

/-- The property that a member access names. -/
def propertyName? (access : Node) : Option String :=
  if access.kind = .memberAccess then
    ((access.child? .property).filter (·.kind = .propertyIdentifier)).map (written source)
  else none

/-- Is the node `module.exports`? -/
def isModuleExports (n : Node) : Bool :=
  propertyName? source n = some "exports" &&
    (n.child? .object).any fun object => object.kind = .identifier && written source object = "module"

/-- The name that is exported by an assignment to `module.exports`, `exports.X` or `module.exports.X`. -/
def targetName? (left : Node) : Option String :=
  if isModuleExports source left then some defaultName
  else
    ((left.child? .object).filter fun object =>
      isModuleExports source object || object.kind = .identifier && written source object = "exports").bind
        fun _ => propertyName? source left

/-- The name that is read off the target of an assignment, by what is written there, spaces left out. -/
def readTarget? (left : Node) : Option String :=
  if writtenDensely source left = "module.exports" then some defaultName
  else
    ((left.child? .object).filter fun object =>
      writtenDensely source object = "module.exports" ∨ writtenDensely source object = "exports").bind fun _ =>
        propertyName? source left

/-- The exports of an assignment to a target: the properties of a default object, then the value itself. -/
def assignmentExports (target : Option String) (value : Node) : List Export :=
  target.toList.flatMap fun target =>
    (if target = defaultName ∧ value.kind = .object then value.namedChildren.flatMap (propertyExports source)
      else []) ++
      [⟨target, some value, true⟩]

/-- A way to take an assignment apart. -/
structure Reading where
  /-- The expression of a statement. -/
  expression : Node → Option Node
  /-- The name that an assignment to a node exports. -/
  target : Node → Option String
  /-- The value in a node, out of its parentheses. -/
  value : Node → Option Node

/-- By the nodes, comments left out. -/
def Reading.ofNodes : Reading where
  expression statement := statement.namedChildren.find? (¬ ·.IsComment)
  target := targetName? source
  value := Node.bare?

/-- By the text of the target, plain comments left out elsewhere. -/
def Reading.ofText : Reading where
  expression statement := statement.parts.head?
  target := readTarget? source
  value := Node.unwrap

/-- The exports of an expression statement: those of an assignment, its value taken out of parentheses. -/
def expressionExports (r : Reading) (statement : Node) : List Export :=
  (r.expression statement).toList.flatMap fun expression =>
    if expression.kind = .assignment then
      (expression.child? .left).toList.flatMap fun left =>
        ((expression.child? .right).bind r.value).toList.flatMap (assignmentExports source (r.target left))
    else []

/-- The exports of a top-level statement. -/
def statementExports (r : Reading) (statement : Node) : List Export :=
  if statement.kind = .exportStatement then exportStatementExports source statement
  else if statement.kind = .expressionStatement then expressionExports source r statement
  else []

/-- What a file exports, in the order of its statements. -/
def exportsOf (root : Node) : List Export :=
  root.namedChildren.flatMap (statementExports source (.ofNodes source))

/-- The exports that are read off a file. -/
def readExportsOf (root : Node) : List Export :=
  root.namedChildren.flatMap (statementExports source (.ofText source))

/-- What a file declares, in the order of its statements. -/
def declarationsOf (root : Node) : List (String × Node) :=
  (root.namedChildren.flatMap statementNames).map fun m => (written source m, m)

end

/-! ## Plainly written statements -/

section

variable (source : Bytes)

/-- What is written at a node, spaces left out, tells whether it is `module.exports` or `exports`. -/
structure TellsTarget (n : Node) : Prop where
  whole : writtenDensely source n = "module.exports" ↔ isModuleExports source n = true
  short : writtenDensely source n = "exports" ↔ n.kind = .identifier ∧ written source n = "exports"

/-- The statement has no comment in the signs of markup where an expression is read, and the text of what it
assigns to tells what that is. -/
structure PlainlyWritten (statement : Node) : Prop where
  expression : ¬ statement.LedByMarkup
  target : ∀ expression left, statement.parts.head? = some expression → expression.child? .left = some left →
    TellsTarget source left ∧ ∀ object, left.child? .object = some object → TellsTarget source object
  value : ∀ expression right, statement.parts.head? = some expression →
    expression.child? .right = some right → ∀ p, right.Wraps p → ¬ p.Veiled

end

variable {statement : Node}

theorem readTarget?_eq (tells : TellsTarget source n)
    (tellsObject : ∀ object, n.child? .object = some object → TellsTarget source object) :
    readTarget? source n = targetName? source n := by
  unfold readTarget? targetName?
  simp only [tells.whole]
  split
  · rfl
  · cases child : n.child? .object with
    | none => rfl
    | some object =>
      have told := tellsObject object child
      simp only [Option.filter_some, told.whole, told.short]
      simp

/-- An assignment of something without parentheses is plainly written if the text of its target tells. -/
theorem plainlyWritten_of_bare {expression left object right : Node}
    (first : statement.parts.head? = some expression) (clear : expression.kind = .assignment)
    (target : expression.child? .left = some left) (child : left.child? .object = some object)
    (value : expression.child? .right = some right) (bare : right.kind ≠ .parenthesized)
    (tells : TellsTarget source left) (tellsObject : TellsTarget source object) :
    PlainlyWritten source statement where
  expression := by
    intro led
    rw [Node.LedByMarkup, first, Option.map_some, clear] at led
    cases led
  target := by
    intro e l read assigned
    cases first.symm.trans read
    cases target.symm.trans assigned
    refine ⟨tells, ?_⟩
    intro o part
    cases child.symm.trans part
    exact tellsObject
  value := by
    intro e r read assigned p wraps veiled
    cases first.symm.trans read
    cases value.symm.trans assigned
    cases wraps with
    | bare => exact bare veiled.kind
    | parens encloses => exact bare encloses.kind

/-- The exports of a plainly written statement are those that are read off it. -/
theorem PlainlyWritten.expressionExports_eq (plain : PlainlyWritten source statement) :
    expressionExports source (.ofNodes source) statement =
      expressionExports source (.ofText source) statement := by
  unfold expressionExports Reading.ofNodes Reading.ofText
  dsimp only
  rw [← Node.head?_parts_eq plain.expression]
  cases found : statement.parts.head? with
  | none => rfl
  | some expression =>
    rw [Option.toList_some, List.flatMap_singleton, List.flatMap_singleton]
    split
    · cases target : expression.child? .left with
      | none => rfl
      | some left =>
        obtain ⟨tells, tellsObject⟩ := plain.target expression left found target
        rw [Option.toList_some, List.flatMap_singleton, List.flatMap_singleton,
          readTarget?_eq tells tellsObject]
        cases value : expression.child? .right with
        | none => rfl
        | some right =>
          rw [Option.bind_some, Option.bind_some,
            Node.unwrap_eq_bare? (plain.value expression right found value)]
    · rfl

/-- So are the exports of a file whose assignments are plainly written. -/
theorem exportsOf_eq_readExportsOf {root : Node}
    (plain : ∀ statement ∈ root.namedChildren, statement.kind = .expressionStatement →
      PlainlyWritten source statement) : exportsOf source root = readExportsOf source root := by
  unfold exportsOf readExportsOf
  apply List.flatMap_congr
  intro statement member
  unfold statementExports
  split
  · rfl
  · split
    · rename_i expression
      exact (plain statement member expression).expressionExports_eq
    · rfl

/-- Exports as names with their nodes. -/
def entries (exports : List Export) : List (String × Option Node) :=
  exports.map fun e => (e.name, e.node)

/-- The exports whose names are spelled out. -/
def counted (exports : List Export) : List Export :=
  exports.filter (·.counts)

/-! ## Answers -/

/-- The name stands for the node: its last export is that node. -/
def StandsFor (exports : List Export) (name : String) (n : Node) : Prop :=
  IsLast (·.1 = name) (entries exports) (name, some n)

variable (source) in
/-- The declaration of an export among exports and declarations. -/
inductive Answer (exports : List Export) (declarations : List (String × Node)) (exportName : Option String) :
    Option Node → Prop
  /-- A plain name that is declared leads to its last declaration. -/
  | declared {n m : Node} (stands : StandsFor exports (wanted exportName) n) (plain : n.isIdentifier = true)
    (last : IsLast (·.1 = written source n) declarations (written source n, m)) :
    Answer exports declarations exportName (some m)
  /-- Anything else that is exported is itself the answer. -/
  | exported {n : Node} (stands : StandsFor exports (wanted exportName) n)
    (foreign : n.isIdentifier = true → ∀ d ∈ declarations, d.1 ≠ written source n) :
    Answer exports declarations exportName (some n)
  /-- A name that is given but not exported leads to its last declaration. -/
  | own {name : String} {m : Node} (unexported : ∀ n, ¬ StandsFor exports (wanted exportName) n)
    (given : exportName.filter (· ≠ "") = some name) (last : IsLast (·.1 = name) declarations (name, m)) :
    Answer exports declarations exportName (some m)
  | nothing (unexported : ∀ n, ¬ StandsFor exports (wanted exportName) n)
    (unknown : ∀ name, exportName.filter (· ≠ "") = some name → ∀ d ∈ declarations, d.1 ≠ name) :
    Answer exports declarations exportName none

variable {exports : List Export} {declarations : List (String × Node)} {exportName : Option String}

/-- There is exactly one answer. -/
theorem answer_iff {r : Option Node} :
    Answer source exports declarations exportName r ↔
      r = (lastNamed? (entries exports) (wanted exportName)).join.elim
        ((exportName.filter (· ≠ "")).bind (lastNamed? declarations))
        fun n => some (if n.isIdentifier then (lastNamed? declarations (written source n)).getD n else n) := by
  have stands : ∀ n, StandsFor exports (wanted exportName) n ↔
      (lastNamed? (entries exports) (wanted exportName)).join = some n := by
    intro n
    rw [StandsFor, ← lastNamed?_eq_some_iff, Option.join_eq_some_iff]
  constructor
  · intro answer
    cases answer with
    | declared exported plain last =>
      rw [(stands _).mp exported, Option.elim_some, if_pos plain, lastNamed?_eq_some_iff.mpr last, Option.getD_some]
    | exported exported foreign =>
      rename_i n
      rw [(stands _).mp exported, Option.elim_some]
      by_cases plain : n.isIdentifier = true
      · rw [if_pos plain, lastNamed?_eq_none_iff.mpr (foreign plain), Option.getD_none]
      · rw [if_neg plain]
    | own unexported given last =>
      have nothing : (lastNamed? (entries exports) (wanted exportName)).join = none :=
        Option.eq_none_iff_forall_ne_some.mpr fun n found => unexported n ((stands n).mpr found)
      rw [nothing, given]
      exact (lastNamed?_eq_some_iff.mpr last).symm
    | nothing unexported unknown =>
      have nothing : (lastNamed? (entries exports) (wanted exportName)).join = none :=
        Option.eq_none_iff_forall_ne_some.mpr fun n found => unexported n ((stands n).mpr found)
      rw [nothing, Option.elim_none]
      cases given : exportName.filter (· ≠ "") with
      | none => rfl
      | some name => exact (lastNamed?_eq_none_iff.mpr (unknown name given)).symm
  · rintro rfl
    cases found : (lastNamed? (entries exports) (wanted exportName)).join with
    | some n =>
      rw [Option.elim_some]
      by_cases plain : n.isIdentifier = true
      · rw [if_pos plain]
        cases last : lastNamed? declarations (written source n) with
        | some m => exact .declared ((stands n).mpr found) plain (lastNamed?_eq_some_iff.mp last)
        | none => exact .exported ((stands n).mpr found) fun _ => lastNamed?_eq_none_iff.mp last
      · rw [if_neg plain]
        exact .exported ((stands n).mpr found) fun h => absurd h plain
    | none =>
      have unexported : ∀ n, ¬ StandsFor exports (wanted exportName) n := by
        intro n exported
        cases found.symm.trans ((stands n).mp exported)
      rw [Option.elim_none]
      cases given : exportName.filter (· ≠ "") with
      | none => exact .nothing unexported fun name some => by cases given.symm.trans some
      | some name =>
        rw [Option.bind_some]
        cases last : lastNamed? declarations name with
        | some m => exact .own unexported given (lastNamed?_eq_some_iff.mp last)
        | none =>
          refine .nothing unexported ?_
          intro name' given'
          cases given.symm.trans given'
          exact lastNamed?_eq_none_iff.mp last

/-! ## What is read off the statements -/

/-- The exports among items. -/
def exportedIn (items : List Item) : List (String × Option Node) :=
  items.filterMap fun
    | .exported name node => some (name, node)
    | .declared .. => none

/-- The declarations among items. -/
def declaredIn (items : List Item) : List (String × Node) :=
  items.filterMap fun
    | .declared name node => some (name, node)
    | .exported .. => none

theorem lastDeclared?_eq (items : List Item) (name : String) :
    lastDeclared? items name = lastNamed? (declaredIn items) name := by
  unfold lastDeclared? lastNamed? declaredIn
  rw [← List.filterMap_reverse, ← List.head?_filterMap, ← List.head?_filterMap, List.filterMap_filterMap]
  congr 2
  funext item
  cases item with
  | declared => rfl
  | exported => rfl

theorem lastExported?_eq (items : List Item) (name : String) :
    lastExported? items name = (lastNamed? (exportedIn items) name).join := by
  unfold lastExported? lastNamed? exportedIn
  rw [← List.filterMap_reverse, ← List.head?_filterMap, ← List.head?_filterMap, List.filterMap_filterMap]
  congr 3
  funext item
  cases item with
  | declared => rfl
  | exported => rfl

variable (source) in
/-- Items are what is exported and declared. No export is asked for by an empty name. -/
structure Agrees (items : List Item) (exports : List Export) (names : List Node) : Prop where
  exported : (exportedIn items).filter (·.1 ≠ "") = (entries (counted exports)).filter (·.1 ≠ "")
  declared : declaredIn items = names.map fun m => (written source m, m)

theorem agrees_nil : Agrees source [] [] [] :=
  ⟨rfl, rfl⟩

theorem Agrees.append {items items' : List Item} {exports exports' : List Export} {names names' : List Node}
    (h : Agrees source items exports names) (h' : Agrees source items' exports' names') :
    Agrees source (items ++ items') (exports ++ exports') (names ++ names') := by
  constructor
  · have exported := h.exported
    have exported' := h'.exported
    unfold exportedIn entries counted at exported exported' ⊢
    rw [List.filterMap_append, List.filter_append, exported, exported', List.filter_append, List.map_append,
      List.filter_append]
  · have declared := h.declared
    have declared' := h'.declared
    unfold declaredIn at declared declared' ⊢
    rw [List.filterMap_append, declared, declared', List.map_append]

theorem Agrees.append_exports {items items' : List Item} {exports exports' : List Export} {names : List Node}
    (h : Agrees source items exports names) (h' : Agrees source items' exports' []) :
    Agrees source (items ++ items') (exports ++ exports') names := by
  have both := h.append h'
  rwa [List.append_nil] at both

/-- What is gathered agrees if it does for each element. -/
theorem agrees_gather {f : α → Except Utf8.Fault (List Item)} {exports : α → List Export}
    {names : α → List Node} {l : List α}
    (each : ∀ a ∈ l, ∀ items, f a = .ok items → Agrees source items (exports a) (names a))
    {items : List Item} (h : gather f l = .ok items) :
    Agrees source items (l.flatMap exports) (l.flatMap names) := by
  induction l generalizing items with
  | nil =>
    cases h
    exact agrees_nil
  | cons a rest ih =>
    rw [List.forall_mem_cons] at each
    rw [gather] at h
    rcases except_bind_eq_ok.mp h with ⟨here, first, h⟩
    rcases except_bind_eq_ok.mp h with ⟨more, later, h⟩
    cases h
    exact (each.1 here first).append (ih each.2 later)

theorem agrees_gather_exports {f : α → Except Utf8.Fault (List Item)} {exports : α → List Export} {l : List α}
    (each : ∀ a ∈ l, ∀ items, f a = .ok items → Agrees source items (exports a) [])
    {items : List Item} (h : gather f l = .ok items) : Agrees source items (l.flatMap exports) [] := by
  have all := agrees_gather each h
  rwa [List.flatMap_eq_nil_iff.mpr fun _ _ => rfl] at all

/-- A name that is read is what is written. -/
theorem named_of_ok {name : Node} {names : List (String × Node)}
    (h : (do return [(← name.name source, name)] : Except Utf8.Fault (List (String × Node))) = .ok names) :
    names = [(written source name, name)] := by
  rcases except_bind_eq_ok.mp h with ⟨text, read, h⟩
  cases h
  rw [written_of_ok read]

theorem declaratorNames_of_ok {d : Node} {names : List (String × Node)}
    (h : declaratorNames source d = .ok names) :
    names = ((d.child? .name).toList.filter fun name => d.kind = .declarator ∧ name.kind = .identifier).map
      fun m => (written source m, m) := by
  unfold declaratorNames at h
  cases child : d.child? .name with
  | none =>
    rw [child] at h
    cases h
    rfl
  | some name =>
    rw [child] at h
    dsimp only at h
    split at h
    · rename_i declares
      rw [named_of_ok h, Option.toList_some, List.filter_cons_of_pos (by simpa using declares)]
      rfl
    · rename_i other
      cases h
      rw [Option.toList_some, List.filter_cons_of_neg (by simpa using other)]
      rfl

/-- The names that a declaration introduces are what is written at their nodes. -/
theorem declaredNames_of_ok {names : List (String × Node)} (h : declaredNames source n = .ok names) :
    names = (nameNodes n).map fun m => (written source m, m) := by
  unfold nameNodes
  by_cases own : n.kind ∈ ownKinds
  · rw [declaredNames_own own] at h
    rw [if_pos own]
    cases child : n.child? .name with
    | none =>
      rw [child] at h
      cases h
      rfl
    | some name =>
      rw [child] at h
      exact named_of_ok h
  · rw [if_neg own]
    by_cases several : n.kind ∈ variableKinds
    · rw [declaredNames_variable several] at h
      rw [if_pos several, List.map_flatMap]
      exact eq_flatMap_of_gather_eq_ok (fun d _ r read => declaratorNames_of_ok read) h
    · rw [declaredNames_of_other own several] at h
      rw [if_neg several]
      cases h
      rfl

theorem agrees_exported (name : String) (node : Option Node) :
    Agrees source [.exported name node] [⟨name, node, true⟩] [] :=
  ⟨rfl, rfl⟩

/-- A name that is not spelled out is read as an empty one. -/
theorem agrees_uncounted (name : String) (node node' : Option Node) :
    Agrees source [.exported "" node] [⟨name, node', false⟩] [] :=
  ⟨rfl, rfl⟩

theorem agrees_unnamed (node : Option Node) : Agrees source [.exported "" node] [] [] :=
  ⟨rfl, rfl⟩

theorem agrees_ofClause {clause : Node} {items : List Item} (h : ofClause source clause = .ok items) :
    Agrees source items (clauseExports source clause) [] := by
  refine agrees_gather_exports ?_ h
  intro s _ items h
  dsimp only at h
  split at h
  · rename_i specifier
    rw [if_pos specifier]
    rcases except_bind_eq_ok.mp h with ⟨exported, read, h⟩
    cases h
    cases spelled : (s.child? .alias).or (s.child? .name) with
    | none =>
      rw [spelled] at read
      cases read
      exact agrees_unnamed _
    | some name =>
      rw [spelled] at read
      rw [nameAt_of_ok read]
      -- a keyword is read as no name, which is taken for an empty one
      by_cases spells : SpellsKey name
      · simp only [spells, if_true, Option.getD_some, Option.toList_some, List.map_cons, List.map_nil,
          decide_true]
        exact agrees_exported _ _
      · simp only [spells, if_false, Option.getD_none, Option.toList_some, List.map_cons, List.map_nil,
          decide_false]
        exact agrees_uncounted _ _ _
  · rename_i other
    cases h
    rw [if_neg other]
    exact agrees_nil

variable (source) in
/-- Names that are declared by an export statement are exported as well. -/
theorem agrees_declared (ms : List Node) :
    Agrees source
      ((ms.map fun m => (written source m, m)).flatMap fun (name, node) =>
        [.declared name node, .exported name (some node)])
      (ms.map fun m => ⟨written source m, some m, true⟩) ms := by
  induction ms with
  | nil => exact agrees_nil
  | cons m ms ih =>
    have one : Agrees source [.declared (written source m) m, .exported (written source m) (some m)]
        [⟨written source m, some m, true⟩] [m] := ⟨rfl, rfl⟩
    exact one.append ih

theorem agrees_ofExportedDeclaration {isDefault : Bool} {declaration : Node} {items : List Item}
    (h : ofExportedDeclaration source isDefault declaration = .ok items) :
    Agrees source items
      ((nameNodes declaration).map (fun m => ⟨written source m, some m, true⟩) ++
        if isDefault then [⟨defaultName, (declaration.child? .name).or (some declaration), true⟩] else [])
      (nameNodes declaration) := by
  rcases except_bind_eq_ok.mp h with ⟨names, read, h⟩
  rw [declaredNames_of_ok read] at h
  cases isDefault with
  | true =>
    cases h
    exact (agrees_declared source _).append_exports (agrees_exported _ _)
  | false =>
    cases h
    rw [if_neg Bool.false_ne_true, List.append_nil]
    exact agrees_declared source _

/-- The clauses of an export statement come after what else it exports. -/
theorem agrees_clauses {own : Except Utf8.Fault (List Item)} {exports : List Export} {names clauses : List Node}
    {items : List Item} (first : ∀ items, own = .ok items → Agrees source items exports names)
    (h : (do
        let items ← own
        let more ← gather (ofClause source) clauses
        return items ++ more) = .ok items) :
    Agrees source items (exports ++ clauses.flatMap (clauseExports source)) names := by
  rcases except_bind_eq_ok.mp h with ⟨items, made, h⟩
  rcases except_bind_eq_ok.mp h with ⟨more, gathered, h⟩
  cases h
  exact (first items made).append_exports
    (agrees_gather_exports (fun _ _ _ read => agrees_ofClause read) gathered)

theorem agrees_ofExport {statement : Node} {items : List Item} (h : ofExport source statement = .ok items) :
    Agrees source items (exportStatementExports source statement)
      ((statement.child? .declaration).toList.flatMap nameNodes) := by
  unfold ofExport at h
  unfold exportStatementExports
  cases declared : statement.child? .declaration with
  | some declaration =>
    rw [declared] at h
    rw [Option.toList_some, List.flatMap_singleton]
    exact agrees_clauses (fun _ made => agrees_ofExportedDeclaration made) h
  | none =>
    rw [declared] at h
    cases given : statement.child? .value with
    | some value =>
      -- a value is exported as the default only
      rw [given] at h
      dsimp only at h
      split at h
      · rename_i isDefault
        rw [if_pos isDefault]
        refine agrees_clauses ?_ h
        rintro _ ⟨⟩
        exact agrees_exported _ _
      · rename_i other
        rw [if_neg other]
        refine agrees_clauses ?_ h
        rintro _ ⟨⟩
        exact agrees_nil
    | none =>
      rw [given] at h
      rw [Option.or_none, Option.toList_none, List.map_nil, ite_self]
      refine agrees_clauses ?_ h
      rintro _ ⟨⟩
      exact agrees_nil

theorem agrees_ofProperty {items : List Item} (h : ofProperty source n = .ok items) :
    Agrees source items (propertyExports source n) [] := by
  unfold ofProperty at h
  unfold propertyExports
  split at h
  · rename_i kind
    rcases except_bind_eq_ok.mp h with ⟨name, read, h⟩
    cases h
    rw [if_pos kind, written_of_ok read]
    exact agrees_exported _ _
  · rename_i kind
    rw [if_neg (by rw [kind]; decide), if_pos kind]
    rcases except_bind_eq_ok.mp h with ⟨key, read, h⟩
    cases child : n.child? .key with
    | none =>
      rw [child] at read
      cases read
      cases h
      exact agrees_nil
    | some name =>
      rw [child] at read
      rw [nameAt_of_ok read] at h
      show Agrees source items [⟨nameAt source name, n.child? .value, SpellsKey name⟩] []
      by_cases spells : SpellsKey name
      · rw [if_pos spells] at h
        dsimp only at h
        rw [decide_eq_true spells]
        split at h
        · rename_i empty
          -- an empty key is left out, and never asked for
          cases h
          rw [empty]
          exact ⟨rfl, rfl⟩
        · cases h
          exact agrees_exported _ _
      · rw [if_neg spells] at h
        cases h
        rw [decide_eq_false spells]
        exact ⟨rfl, rfl⟩
  · rename_i shorthand pair
    cases h
    rw [if_neg shorthand, if_neg pair]
    exact agrees_nil

theorem memberName_of_ok {key : Option String} (h : n.memberName source = .ok key) :
    key = propertyName? source n := by
  unfold Node.memberName at h
  unfold propertyName?
  split at h
  · rename_i access
    rw [if_pos access]
    cases child : n.child? .property with
    | none =>
      rw [child] at h
      cases h
      rfl
    | some property =>
      rw [child] at h
      dsimp only at h
      split at h
      · rename_i kind
        rcases except_bind_eq_ok.mp h with ⟨name, read, h⟩
        cases h
        rw [written_of_ok read, Option.filter_some, if_pos (decide_eq_true kind)]
        rfl
      · rename_i kind
        cases h
        rw [Option.filter_some, if_neg (by simpa using kind)]
        rfl
  · rename_i other
    cases h
    rw [if_neg other]

theorem exportTarget_of_ok {target : Option String} (h : exportTarget source n = .ok target) :
    target = readTarget? source n := by
  unfold readTarget?
  rcases except_bind_eq_ok.mp h with ⟨text, read, h⟩
  rw [writtenDensely_of_ok read] at h
  split at h
  · rename_i whole
    cases h
    rw [if_pos whole]
  · rename_i other
    rw [if_neg other]
    cases child : n.child? .object with
    | none =>
      rw [child] at h
      cases h
      rfl
    | some object =>
      rw [child] at h
      rcases except_bind_eq_ok.mp h with ⟨textOfObject, readObject, h⟩
      rw [writtenDensely_of_ok readObject] at h
      split at h
      · rename_i exports
        rw [memberName_of_ok h, Option.filter_some, if_pos (decide_eq_true exports), Option.bind_some]
      · rename_i foreign
        cases h
        rw [Option.filter_some, if_neg (by simpa using foreign)]
        rfl

theorem agrees_ofAssignment {left : Node} {right : Option Node} {items : List Item}
    (h : ofAssignment source left right = .ok items) :
    Agrees source items
      ((right.bind (·.unwrap)).toList.flatMap (assignmentExports source (readTarget? source left))) [] := by
  rcases except_bind_eq_ok.mp h with ⟨target, read, h⟩
  rw [exportTarget_of_ok read] at h
  unfold assignmentExports
  cases bare : right.bind (·.unwrap) with
  | none =>
    rw [bare] at h
    cases exports : readTarget? source left with
    | none =>
      rw [exports] at h
      cases h
      exact agrees_nil
    | some target =>
      rw [exports] at h
      cases h
      exact agrees_nil
  | some value =>
    rw [bare] at h
    rw [Option.toList_some, List.flatMap_singleton]
    cases exports : readTarget? source left with
    | none =>
      rw [exports] at h
      cases h
      exact agrees_nil
    | some target =>
      rw [exports] at h
      rw [Option.toList_some, List.flatMap_singleton]
      dsimp only at h
      split at h
      -- the properties come first, so the object itself stays the default
      · rename_i whole
        rcases except_bind_eq_ok.mp h with ⟨properties, made, h⟩
        cases h
        rw [if_pos whole]
        exact (agrees_gather_exports (fun _ _ _ read => agrees_ofProperty read) made).append_exports
          (agrees_exported _ _)
      · rename_i other
        cases h
        rw [if_neg other]
        exact agrees_exported _ _

theorem agrees_ofExpression {statement : Node} {items : List Item}
    (h : ofExpression source statement = .ok items) :
    Agrees source items (expressionExports source (.ofText source) statement) [] := by
  unfold ofExpression at h
  unfold expressionExports Reading.ofText
  dsimp only
  cases first : statement.parts.head? with
  | none =>
    rw [first] at h
    cases h
    exact agrees_nil
  | some expression =>
    rw [first] at h
    rw [Option.toList_some, List.flatMap_singleton]
    dsimp only at h
    cases target : expression.child? .left with
    | none =>
      rw [target] at h
      cases h
      rw [Option.toList_none, List.flatMap_nil, ite_self]
      exact agrees_nil
    | some left =>
      rw [target] at h
      rw [Option.toList_some, List.flatMap_singleton]
      dsimp only at h
      split at h
      · rename_i assignment
        rw [if_pos assignment]
        exact agrees_ofAssignment h
      · rename_i other
        cases h
        rw [if_neg other]
        exact agrees_nil

variable (source) in
/-- Names that are declared by any other statement are not exported. -/
theorem agrees_names (ms : List Node) :
    Agrees source ((ms.map fun m => (written source m, m)).map fun (name, node) => .declared name node) []
      ms := by
  induction ms with
  | nil => exact agrees_nil
  | cons m ms ih =>
    have one : Agrees source [.declared (written source m) m] [] [m] := ⟨rfl, rfl⟩
    exact one.append ih

/-- What is read off a statement is what it exports and declares. -/
theorem agrees_ofStatement {statement : Node} {items : List Item}
    (h : ofStatement source statement = .ok items) :
    Agrees source items (statementExports source (.ofText source) statement) (statementNames statement) := by
  unfold ofStatement at h
  unfold statementExports statementNames
  split at h
  · rename_i kind
    rw [if_pos kind, if_pos kind]
    exact agrees_ofExport h
  · rename_i kind
    have other : statement.kind ≠ .exportStatement := by
      rw [kind]
      decide
    rw [if_neg other, if_neg other, if_pos kind, if_pos kind]
    exact agrees_ofExpression h
  · rename_i exports expression
    rcases except_bind_eq_ok.mp h with ⟨names, read, h⟩
    cases h
    rw [declaredNames_of_ok read, if_neg exports, if_neg exports, if_neg expression, if_neg expression]
    exact agrees_names source _

/-! ## Finding declarations -/

theorem wanted_ne_empty (exportName : Option String) : wanted exportName ≠ "" := by
  unfold wanted
  cases given : exportName.filter (· ≠ "") with
  | none => exact (by decide : defaultName ≠ "")
  | some name =>
    have kept := (Option.filter_eq_some_iff.mp given).2
    simpa using kept

theorem leadOn_of_ok {items : List Item} {m : Node} (h : leadOn source items n = .ok m) :
    m = if n.isIdentifier then (lastDeclared? items (written source n)).getD n else n := by
  unfold leadOn at h
  split at h
  · rename_i plain
    rcases except_bind_eq_ok.mp h with ⟨name, read, h⟩
    cases h
    rw [if_pos plain, written_of_ok read]
  · rename_i other
    cases h
    rw [if_neg other]

/-- A search that succeeds finds the answer among the exports that count. -/
theorem find_eq_ok {root : Node} {result : Option Node} (h : find source root exportName = .ok result)
    (r : Option Node) :
    Answer source (counted (readExportsOf source root)) (declarationsOf source root) exportName r ↔
      r = result := by
  unfold find at h
  rcases except_bind_eq_ok.mp h with ⟨items, read, h⟩
  have agrees : Agrees source items (readExportsOf source root) (root.namedChildren.flatMap statementNames) :=
    agrees_gather (fun _ _ _ made => agrees_ofStatement made) read
  have exported : lastExported? items (wanted exportName) =
      (lastNamed? (entries (counted (readExportsOf source root))) (wanted exportName)).join := by
    rw [lastExported?_eq, lastNamed?_congr ?_ agrees.exported]
    intro e named
    rw [named]
    exact decide_eq_true (wanted_ne_empty exportName)
  have declared : lastDeclared? items = lastNamed? (declarationsOf source root) := by
    funext name
    rw [lastDeclared?_eq, agrees.declared]
    rfl
  -- the search does with the items what the answer is by the lists
  rw [answer_iff, ← exported, ← declared]
  unfold wanted
  cases last : lastExported? items ((exportName.filter (· ≠ "")).getD defaultName) with
  | none =>
    dsimp only at h
    rw [last] at h
    cases h
    rfl
  | some n =>
    dsimp only at h
    rw [last] at h
    rcases except_bind_eq_ok.mp h with ⟨m, led, h⟩
    cases h
    rw [leadOn_of_ok led, Option.elim_some]

/-- Exports that do not count do not matter if the wanted name is not among theirs. -/
theorem answer_counted_iff (spelled : ∀ e ∈ exports, e.name = wanted exportName → e.counts = true)
    (r : Option Node) :
    Answer source (counted exports) declarations exportName r ↔
      Answer source exports declarations exportName r := by
  have same : (entries (counted exports)).filter (·.1 = wanted exportName) =
      (entries exports).filter (·.1 = wanted exportName) := by
    unfold entries counted
    rw [List.filter_map, List.filter_map, List.filter_filter]
    congr 1
    apply List.filter_congr
    intro e member
    have counts := spelled e member
    grind
  rw [answer_iff, answer_iff, lastNamed?_congr (fun _ => decide_eq_true) same]

/-- In a file that can be read, parsed and decoded, an export is located as the answer among the exports
that are read off the file and whose names are spelled out, and so among all that are read if those under the
wanted name are. If all assignments of the file are plainly written, it is the answer among all its
exports. -/
theorem locate_last_export {w : Workspace} {file : Path} {root : Node} (exportName : Option String)
    (proper : '\x00' ∉ file.toList) (loaded : w.load file = .ok (source, root))
    (readable : ∀ n, Reads source root exportName n → Readable source n) :
    ∃ result, (locate w file exportName).outcome = .ok (result.map (·.range source)) ∧
      (∀ r, Answer source (counted (readExportsOf source root)) (declarationsOf source root) exportName r ↔
        r = result) ∧
      ((∀ e ∈ readExportsOf source root, e.name = wanted exportName → e.counts = true) →
        ∀ r, Answer source (readExportsOf source root) (declarationsOf source root) exportName r ↔
          r = result) ∧
      ((∀ statement ∈ root.namedChildren, statement.kind = .expressionStatement →
          PlainlyWritten source statement) →
        (∀ e ∈ exportsOf source root, e.name = wanted exportName → e.counts = true) →
          ∀ r, Answer source (exportsOf source root) (declarationsOf source root) exportName r ↔
            r = result) := by
  rcases succeeds_find_iff.mpr readable with ⟨result, found⟩
  have among (spelled : ∀ e ∈ readExportsOf source root, e.name = wanted exportName → e.counts = true)
      (r : Option Node) :
      Answer source (readExportsOf source root) (declarationsOf source root) exportName r ↔ r = result := by
    rw [← answer_counted_iff spelled, find_eq_ok found]
  refine ⟨result, ?_, find_eq_ok found, among, ?_⟩
  · rw [outcome_locate_of_ok proper loaded, found]
    rfl
  · intro plain
    rw [exportsOf_eq_readExportsOf plain]
    exact among

/-- A file that exports a name twice, before it declares it. -/
def twiceExported : Bytes :=
  Utf8.encode "module.exports={a:1};exports.a=a;function a(){}"

/-- The name in the declaration. -/
def declaredName : Node :=
  .mk { kind := .identifier, start := 42, stop := 43, field := some .name } []

/-- The tree of the file. -/
def twiceExportedTree : Node :=
  .mk { kind := .other "program", start := 0, stop := 47 } [
    .mk { kind := .expressionStatement, start := 0, stop := 21 } [
      .mk { kind := .assignment, start := 0, stop := 20 } [
        .mk { kind := .memberAccess, start := 0, stop := 14, field := some .left } [
          .mk { kind := .identifier, start := 0, stop := 6, field := some .object } [],
          .mk { kind := .propertyIdentifier, start := 7, stop := 14, field := some .property } []],
        .mk { kind := .object, start := 15, stop := 20, field := some .right } [
          .mk { kind := .pair, start := 16, stop := 19 } [
            .mk { kind := .propertyIdentifier, start := 16, stop := 17, field := some .key } [],
            .mk { kind := .other "number", start := 18, stop := 19, field := some .value } []]]]],
    .mk { kind := .expressionStatement, start := 21, stop := 33 } [
      .mk { kind := .assignment, start := 21, stop := 32 } [
        .mk { kind := .memberAccess, start := 21, stop := 30, field := some .left } [
          .mk { kind := .identifier, start := 21, stop := 28, field := some .object } [],
          .mk { kind := .propertyIdentifier, start := 29, stop := 30, field := some .property } []],
        .mk { kind := .identifier, start := 31, stop := 32, field := some .right } []]],
    .mk { kind := .functionDeclaration, start := 33, stop := 47 } [
      declaredName,
      .mk { kind := .other "formal_parameters", start := 43, stop := 45, field := some .parameters } [],
      .mk { kind := .other "statement_block", start := 45, stop := 47 } []]]

theorem reads_twiceExported :
    (oneFile twiceExported twiceExportedTree).load "/w/a.js" = .ok (twiceExported, twiceExportedTree) ∧
      find twiceExported twiceExportedTree (some "a") = .ok (some declaredName) ∧
      (readExportsOf twiceExported twiceExportedTree).all (·.counts) = true := by
  refine ⟨?_, ?_, ?_⟩
  · decide +kernel
  · decide +kernel
  · decide +kernel

theorem plainlyWritten_twiceExported (statement : Node) (member : statement ∈ twiceExportedTree.namedChildren)
    (kind : statement.kind = .expressionStatement) : PlainlyWritten twiceExported statement := by
  rcases List.mem_cons.mp member with rfl | member
  · refine plainlyWritten_of_bare rfl rfl rfl rfl rfl (by decide) ⟨?_, ?_⟩ ⟨?_, ?_⟩
    all_goals decide +kernel
  rcases List.mem_cons.mp member with rfl | member
  · refine plainlyWritten_of_bare rfl rfl rfl rfl rfl (by decide) ⟨?_, ?_⟩ ⟨?_, ?_⟩
    all_goals decide +kernel
  · cases List.mem_singleton.mp member
    cases kind

/-- The last of the exports is the name alone, and it leads on to the declaration. -/
theorem locate_last_export_declared :
    Answer twiceExported (exportsOf twiceExported twiceExportedTree)
      (declarationsOf twiceExported twiceExportedTree) (some "a") (some declaredName) ∧
    declaredName.range twiceExported = ⟨⟨0, 42⟩, ⟨0, 43⟩⟩ ∧
    (locate (oneFile twiceExported twiceExportedTree) "/w/a.js" (some "a")).outcome =
      .ok (some (declaredName.range twiceExported)) := by
  rcases reads_twiceExported with ⟨loaded, found, spelled⟩
  have read := exportsOf_eq_readExportsOf plainlyWritten_twiceExported
  have counts : ∀ e ∈ exportsOf twiceExported twiceExportedTree,
      e.name = wanted (some "a") → e.counts = true := by
    rw [read]
    exact fun e member _ => List.all_eq_true.mp spelled e member
  have answer := (find_eq_ok found (some declaredName)).mpr rfl
  rw [← read, answer_counted_iff counts] at answer
  rcases locate_last_export (some "a") (by decide) loaded (succeeds_find_iff.mp ⟨_, found⟩) with
    ⟨result, located, -, -, answers⟩
  have same : some declaredName = result := (answers plainlyWritten_twiceExported counts _).mp answer
  refine ⟨answer, by decide +kernel, ?_⟩
  rw [located, ← same]
  rfl

/-- A file that exports its class by the keyword. -/
def exportedByKeyword : Bytes :=
  Utf8.encode "class A {}\nexport { A as default };\n"

/-- The name of the class. -/
def className : Node :=
  .mk { kind := .identifier, start := 6, stop := 7, field := some .name } []

/-- The tree of that file. -/
def exportedByKeywordTree : Node :=
  .mk { kind := .other "program", start := 0, stop := 36 } [
    .mk { kind := .classDeclaration, start := 0, stop := 10 } [
      className,
      .mk { kind := .classBody, start := 8, stop := 10 } []],
    .mk { kind := .exportStatement, start := 11, stop := 35 } [
      .mk { kind := .exportClause, start := 18, stop := 34 } [
        .mk { kind := .exportSpecifier, start := 20, stop := 32 } [
          .mk { kind := .identifier, start := 20, stop := 21, field := some .name } [],
          .mk { kind := .defaultKeyword, start := 25, stop := 32, field := some .alias, named := false } []]]]]

theorem reads_exportedByKeyword :
    (oneFile exportedByKeyword exportedByKeywordTree).load "/w/a.js" =
        .ok (exportedByKeyword, exportedByKeywordTree) ∧
      find exportedByKeyword exportedByKeywordTree none = .ok none := by
  constructor
  · decide +kernel
  · decide +kernel

theorem answer_exportedByKeyword :
    Answer exportedByKeyword (exportsOf exportedByKeyword exportedByKeywordTree)
      (declarationsOf exportedByKeyword exportedByKeywordTree) none (some className) := by
  rw [answer_iff]
  decide +kernel

/-- A class that is exported as `default` is not located. -/
theorem locate_misses_keyword :
    Answer exportedByKeyword (exportsOf exportedByKeyword exportedByKeywordTree)
      (declarationsOf exportedByKeyword exportedByKeywordTree) none (some className) ∧
    className.range exportedByKeyword = ⟨⟨0, 6⟩, ⟨0, 7⟩⟩ ∧
    (locate (oneFile exportedByKeyword exportedByKeywordTree) "/w/a.js" none).outcome = .ok none := by
  rcases reads_exportedByKeyword with ⟨loaded, unfound⟩
  refine ⟨answer_exportedByKeyword, by decide +kernel, ?_⟩
  rw [outcome_locate_of_ok (by decide) loaded, unfound]
  rfl

end Declaration

end ContainerKeys
