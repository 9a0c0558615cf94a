import ContainerKeys.Path
import ContainerKeys.Proofs.Globs
import ContainerKeys.Proofs.Pieces

/-!
# Globs and the parts of a path

The tokens `*` and `?` never take a slash. A glob without two asterisks in a row therefore matches a path part
by part. The glob of a directory name, with two asterisks on both sides of it, matches the paths that the name
is a part of, as long as no other part has a line feed in it: two asterisks never take one.

* `Glob.cuts_joinWith_iff` — a text is cut part by part.
* `Glob.accepts_iff_partwise` — globs without two asterisks in a row.
* `Glob.accepts_folder_iff` — the glob of a directory name.
* `Glob.folder_hidden_iff` — the paths that such globs match, and those that are always left out.
-/

namespace ContainerKeys

/-- The token for a character that is not part of a longer token. -/
def GlobToken.single (c : Char) : GlobToken :=
  if c = '*' then .part else if c = '?' then .one else .char c

namespace Glob

/-! ## The text of a glob -/

theorem not_mem_forwardSlashes (cs : List Char) : '\\' ∉ forwardSlashes cs := by
  intro member
  rcases List.mem_map.mp member with ⟨c, -, same⟩
  split at same
  · cases same
  · contradiction

theorem forwardSlashes_of_not_mem {cs : List Char} (free : '\\' ∉ cs) : forwardSlashes cs = cs := by
  have same : cs.map (fun c => if c = '\\' then '/' else c) = cs.map id := by
    apply List.map_congr_left
    intro c member
    have other : c ≠ '\\' := fun e => free (e ▸ member)
    exact if_neg other
  rw [forwardSlashes, same, List.map_id]

theorem not_mem_body (pattern : String) : '\\' ∉ body pattern := by
  intro member
  exact not_mem_forwardSlashes _ ((List.dropWhile_suffix _).subset member)

/-- Asterisks stay where they are. -/
theorem infix_of_infix_body {pattern : String} (h : ['*', '*'] <:+: body pattern) :
    ['*', '*'] <:+: pattern.toList := by
  have whole : ['*', '*'] <:+: forwardSlashes pattern.toList :=
    h.trans (List.dropWhile_suffix _).isInfix
  rcases List.infix_map_iff.mp whole with ⟨stars, within, same⟩
  have star {c : Char} (h : '*' = if c = '\\' then '/' else c) : c = '*' := by
    split at h
    · cases h
    · exact h.symm
  have two : stars = ['*', '*'] := by
    rcases stars with _ | ⟨a, _ | ⟨b, _ | ⟨c, rest⟩⟩⟩
    · simp at same
    · simp at same
    · simp only [List.map_cons, List.map_nil, List.cons.injEq, and_true] at same
      rw [star same.1, star same.2]
    · simp at same
  exact two ▸ within

/-- A text without slashes in it is read as it is. -/
theorem body_of_not_mem {cs : List Char} (noSlash : '/' ∉ cs) (noBackslash : '\\' ∉ cs) :
    body (String.ofList cs) = cs := by
  rw [body, String.toList_ofList, forwardSlashes_of_not_mem noBackslash]
  cases cs with
  | nil => rfl
  | cons c rest =>
    have other : c ≠ '/' := fun e => noSlash (e ▸ List.mem_cons_self)
    exact List.dropWhile_cons_of_neg (by simpa using other)

/-! ## One token for each character -/

/-- Without two asterisks in a row, each character is a token by itself. -/
theorem readTokens_of_single {text : List Char} (single : ¬ ['*', '*'] <:+: text) :
    readTokens text = text.map GlobToken.single := by
  have later {c : Char} {rest : List Char} (h : ¬ ['*', '*'] <:+: c :: rest) : ¬ ['*', '*'] <:+: rest := by
    intro within
    exact h (within.trans (List.suffix_cons c rest).isInfix)
  fun_induction readTokens text with
  | case1 => rfl
  -- the three longer tokens are written with two asterisks
  | case2 rest => exact absurd ⟨[], '/' :: rest, rfl⟩ single
  | case3 => exact absurd ⟨['/'], [], rfl⟩ single
  | case4 rest => exact absurd ⟨[], rest, rfl⟩ single
  | case5 rest _ _ ih =>
    rw [ih (later single)]
    rfl
  | case6 rest ih =>
    rw [ih (later single)]
    rfl
  | case7 c rest _ _ _ notStar notMark ih =>
    have itself : GlobToken.single c = .char c := by
      rw [GlobToken.single, if_neg notStar, if_neg notMark]
    rw [ih (later single), List.map_cons, itself]

variable {cs part : List Char}

/-- Only a slash takes a slash. -/
theorem not_mem_of_cuts_single (free : '/' ∉ cs) (h : Cuts (cs.map GlobToken.single) part) : '/' ∉ part := by
  induction cs generalizing part with
  | nil =>
    rw [cuts_nil.mp h]
    exact List.not_mem_nil
  | cons c cs ih =>
    rcases cuts_cons.mp h with ⟨piece, rest, rfl, fits, more⟩
    rw [List.mem_cons, not_or] at free
    have here : '/' ∉ piece := by
      unfold GlobToken.single at fits
      split at fits
      · exact fits
      · split at fits
        · rcases fits with ⟨d, rfl, other⟩
          simpa using Ne.symm other
        · cases fits
          simpa using free.1
    rw [List.mem_append, not_or]
    exact ⟨here, ih free.2 more⟩

/-- A text is cut part by part. -/
theorem cuts_joinWith_iff {globs : List (List Char)} (some : globs ≠ []) (free : ∀ glob ∈ globs, '/' ∉ glob)
    (path : List Char) :
    Cuts ((Text.joinWith '/' globs).map GlobToken.single) path ↔
      List.Forall₂ (fun glob part => Cuts (glob.map GlobToken.single) part) globs (Path.parts path) := by
  induction globs generalizing path with
  | nil => exact absurd rfl some
  | cons glob rest ih =>
    have noSlash := free glob List.mem_cons_self
    have joined : Text.joinWith '/' (Path.parts path) = path := Text.joinWith_splitOn path
    by_cases last : rest = []
    · subst last
      constructor
      · intro cuts
        rw [Path.parts, Text.splitOn_of_not_mem (not_mem_of_cuts_single noSlash cuts)]
        exact .cons cuts .nil
      · intro h
        rcases List.forall₂_cons_left_iff.mp h with ⟨part, others, cuts, none, split⟩
        cases none
        rw [← joined, split]
        exact cuts
    · have later := ih last fun other member => free other (List.mem_cons_of_mem glob member)
      rw [Text.joinWith_cons '/' glob last, List.map_append, List.map_cons, cuts_append]
      constructor
      · rintro ⟨front, back, rfl, cuts, more⟩
        rcases cuts_cons.mp more with ⟨piece, behind, rfl, slash, others⟩
        cases slash
        -- nothing before this slash takes one, so it ends the first part
        have split : Path.parts (front ++ '/' :: behind) = front :: Path.parts behind := by
          rw [Path.parts, Text.splitOn_append_cons, Text.splitOn_of_not_mem (not_mem_of_cuts_single noSlash cuts)]
          rfl
        exact split ▸ .cons cuts ((later behind).mp others)
      · intro h
        rcases List.forall₂_cons_left_iff.mp h with ⟨part, others, cuts, more, split⟩
        have some' : others ≠ [] := by
          rintro rfl
          exact last (List.forall₂_nil_right_iff.mp more)
        have behind : Path.parts (Text.joinWith '/' others) = others := by
          apply Text.splitOn_joinWith some'
          intro other member
          exact Text.not_mem_of_mem_splitOn (split ▸ List.mem_cons_of_mem part member)
        rw [split, Text.joinWith_cons '/' part some'] at joined
        refine ⟨part, '/' :: Text.joinWith '/' others, joined.symm, cuts, cuts_cons.mpr ?_⟩
        exact ⟨['/'], Text.joinWith '/' others, rfl, rfl, (later _).mpr (behind.symm ▸ more)⟩

theorem forall₂_congr_of_mem {α β : Type} {R S : α → β → Prop} {as : List α} {bs : List β}
    (same : ∀ a ∈ as, ∀ b, R a b ↔ S a b) : List.Forall₂ R as bs ↔ List.Forall₂ S as bs := by
  simp only [List.forall₂_iff_zip]
  refine and_congr_right fun _ => ?_
  constructor
  · intro h a b member
    exact (same a (List.of_mem_zip member).1 b).mp (h member)
  · intro h a b member
    exact (same a (List.of_mem_zip member).1 b).mpr (h member)

/-- A part of a glob, taken as a glob by itself. -/
theorem accepts_part_iff {glob : List Char} (noSlash : '/' ∉ glob) (noBackslash : '\\' ∉ glob)
    (single : ¬ ['*', '*'] <:+: glob) :
    (ofString (String.ofList glob)).accepts (String.ofList part) = true ↔
      Cuts (glob.map GlobToken.single) part := by
  rw [accepts_iff_cuts, body_of_not_mem noSlash noBackslash, readTokens_of_single single,
    String.toList_ofList]

/-- A glob without two asterisks in a row matches a path exactly if both have the same number of parts and each
part of the glob by itself matches the part of the path at its place. So all slashes of the path are those of
the glob. -/
theorem accepts_iff_partwise {pattern : String} (single : ¬ ['*', '*'] <:+: pattern.toList)
    (path : String) :
    ((ofString pattern).accepts path = true ↔
      List.Forall₂ (fun glob part => (ofString (String.ofList glob)).accepts (String.ofList part) = true)
        (Path.parts (body pattern)) (Path.parts path.toList)) ∧
    ((ofString pattern).accepts path = true → path.toList.count '/' = (body pattern).count '/') := by
  have single' : ¬ ['*', '*'] <:+: body pattern := fun stars => single (infix_of_infix_body stars)
  have alone {glob part : List Char} (member : glob ∈ Path.parts (body pattern)) :
      Cuts (glob.map GlobToken.single) part ↔
        (ofString (String.ofList glob)).accepts (String.ofList part) = true := by
    have within : glob <:+: body pattern := Text.infix_of_mem_splitOn member
    apply (accepts_part_iff (Text.not_mem_of_mem_splitOn member) ?_ ?_).symm
    · intro backslash
      exact not_mem_body pattern (within.subset backslash)
    · intro stars
      exact single' (stars.trans within)
  have some : Path.parts (body pattern) ≠ [] := Text.splitOn_ne_nil '/' _
  have free : ∀ glob ∈ Path.parts (body pattern), '/' ∉ glob := by
    intro glob member
    exact Text.not_mem_of_mem_splitOn member
  have joined : Text.joinWith '/' (Path.parts (body pattern)) = body pattern := Text.joinWith_splitOn _
  have partwise :=
    calc (ofString pattern).accepts path = true
      _ ↔ Cuts ((Text.joinWith '/' (Path.parts (body pattern))).map GlobToken.single) path.toList := by
        rw [accepts_iff_cuts, readTokens_of_single single', joined]
      _ ↔ List.Forall₂ (fun glob part => Cuts (glob.map GlobToken.single) part)
          (Path.parts (body pattern)) (Path.parts path.toList) := cuts_joinWith_iff some free path.toList
      _ ↔ List.Forall₂ (fun glob part => (ofString (String.ofList glob)).accepts (String.ofList part) = true)
          (Path.parts (body pattern)) (Path.parts path.toList) :=
        forall₂_congr_of_mem fun _ member _ => alone member
  refine ⟨partwise, fun accepted => ?_⟩
  have lengths := (partwise.mp accepted).length_eq
  rw [Path.parts, Path.parts, Text.length_splitOn, Text.length_splitOn] at lengths
  omega

/-- Wildcards in three parts; a line feed is a character like any other to them. -/
theorem accepts_iff_partwise_wildcards :
    ¬ ['*', '*'] <:+: "\\src/*/?b.*".toList ∧
      (ofString "\\src/*/?b.*").accepts "src/x\ny/ab.js" = true ∧
      List.Forall₂ (fun glob part => (ofString (String.ofList glob)).accepts (String.ofList part) = true)
        ["src".toList, "*".toList, "?b.*".toList] ["src".toList, "x\ny".toList, "ab.js".toList] := by
  have single : ¬ ['*', '*'] <:+: "\\src/*/?b.*".toList := by simp [List.infix_cons_iff]
  have accepted : (ofString "\\src/*/?b.*").accepts "src/x\ny/ab.js" = true := by decide
  exact ⟨single, accepted, (accepts_iff_partwise single _).1.mp accepted⟩

/-! ## Directory names -/

/-- A name that stands for itself in a glob. -/
structure Literal (name : List Char) : Prop where
  noSlash : '/' ∉ name
  noBackslash : '\\' ∉ name
  noStar : '*' ∉ name
  noMark : '?' ∉ name

instance (name : List Char) : Decidable (Literal name) :=
  decidable_of_iff ('/' ∉ name ∧ '\\' ∉ name ∧ '*' ∉ name ∧ '?' ∉ name)
    ⟨fun h => ⟨h.1, h.2.1, h.2.2.1, h.2.2.2⟩, fun h => ⟨h.noSlash, h.noBackslash, h.noStar, h.noMark⟩⟩

theorem readTokens_literal {name : List Char} (literal : Literal name) (rest : List Char) :
    readTokens (name ++ rest) = name.map .char ++ readTokens rest := by
  induction name with
  | nil => rfl
  | cons c name ih =>
    rcases literal with ⟨noSlash, noBackslash, noStar, noMark⟩
    rw [List.mem_cons, not_or] at noSlash noBackslash noStar noMark
    have later := ih ⟨noSlash.2, noBackslash.2, noStar.2, noMark.2⟩
    have here : readTokens (c :: (name ++ rest)) = .char c :: readTokens (name ++ rest) := by
      rw [readTokens]
      all_goals simp [Ne.symm noSlash.1, Ne.symm noStar.1, Ne.symm noMark.1]
    rw [List.cons_append, here, later]
    rfl

/-- Characters that stand for themselves leave no choice. -/
theorem cuts_map_char {name : List Char} : Cuts (name.map .char) cs ↔ cs = name := by
  induction name generalizing cs with
  | nil => exact cuts_nil
  | cons c name ih =>
    rw [List.map_cons, cuts_cons]
    constructor
    · rintro ⟨piece, rest, rfl, fits, more⟩
      cases fits
      rw [ih.mp more]
      rfl
    · rintro rfl
      exact ⟨[c], name, rfl, rfl, ih.mpr rfl⟩

/-- The directories in front of a text are whole parts. -/
theorem parts_of_fits_folders {front : List Char} (fits : GlobToken.Fits .folders front) (rest : List Char) :
    ∃ before, Path.parts (front ++ rest) = before ++ Path.parts rest ∧ ∀ part ∈ before, '\n' ∉ part := by
  rcases fits with rfl | ⟨ends, free⟩
  · exact ⟨[], rfl, nofun⟩
  · rcases List.getLast?_eq_some_iff.mp ends with ⟨dirs, rfl⟩
    refine ⟨Path.parts dirs, ?_, ?_⟩
    · rw [List.append_assoc]
      exact Text.splitOn_append_cons '/' dirs rest
    · intro part member feed
      exact free (List.mem_append_left _ ((Text.infix_of_mem_splitOn member).subset feed))

/-- What is below a name is whole parts. -/
theorem parts_of_fits_below {name back : List Char} (noSlash : '/' ∉ name)
    (fits : GlobToken.Fits .below back) :
    ∃ after, Path.parts (name ++ back) = name :: after ∧ ∀ part ∈ after, '\n' ∉ part := by
  have alone : Path.parts name = [name] := Text.splitOn_of_not_mem noSlash
  rcases fits with rfl | ⟨head, free⟩
  · exact ⟨[], by rw [List.append_nil, alone], nofun⟩
  · rcases List.head?_eq_some_iff.mp head with ⟨rest, rfl⟩
    refine ⟨Path.parts rest, ?_, ?_⟩
    · rw [Path.parts, Text.splitOn_append_cons]
      exact congrArg (· ++ Path.parts rest) alone
    · intro part member feed
      exact free (List.mem_cons_of_mem _ ((Text.infix_of_mem_splitOn member).subset feed))

/-- Parts in front of others are directories. -/
theorem exists_fits_folders {before rest : List (List Char)} (some : rest ≠ [])
    (free : ∀ part ∈ before, '\n' ∉ part) :
    ∃ front, GlobToken.Fits .folders front ∧
      Text.joinWith '/' (before ++ rest) = front ++ Text.joinWith '/' rest := by
  by_cases none : before = []
  · exact ⟨[], Or.inl rfl, by rw [none]; rfl⟩
  · have feedless : '\n' ∉ Text.joinWith '/' before := Text.not_mem_joinWith (by decide) free
    refine ⟨Text.joinWith '/' before ++ ['/'], Or.inr ⟨List.getLast?_concat, ?_⟩, ?_⟩
    · simp [feedless]
    · rw [Text.joinWith_append '/' none some, List.append_assoc]
      rfl

/-- Parts behind a name are below it. -/
theorem exists_fits_below (name : List Char) {after : List (List Char)}
    (free : ∀ part ∈ after, '\n' ∉ part) :
    ∃ back, GlobToken.Fits .below back ∧ Text.joinWith '/' (name :: after) = name ++ back := by
  by_cases none : after = []
  · exact ⟨[], Or.inl rfl, by rw [none, List.append_nil]; rfl⟩
  · have feedless : '\n' ∉ Text.joinWith '/' after := Text.not_mem_joinWith (by decide) free
    refine ⟨'/' :: Text.joinWith '/' after, Or.inr ⟨rfl, ?_⟩, Text.joinWith_cons '/' name none⟩
    simp [feedless]

/-- The tokens of the glob of a directory name. -/
theorem tokens_folder {name : String} (literal : Literal name.toList) :
    (ofString ("**/" ++ name ++ "/**")).tokens = .folders :: name.toList.map .char ++ [.below] := by
  have text : ("**/" ++ name ++ "/**").toList = '*' :: '*' :: '/' :: (name.toList ++ ['/', '*', '*']) := by
    simp
  have noBackslash : '\\' ∉ ("**/" ++ name ++ "/**").toList := by
    simp [text, literal.noBackslash]
  have read : readTokens (name.toList ++ ['/', '*', '*']) = name.toList.map .char ++ [.below] :=
    readTokens_literal literal _
  show readTokens ((forwardSlashes _).dropWhile _) = _
  rw [forwardSlashes_of_not_mem noBackslash, text, List.dropWhile_cons_of_neg (by decide), readTokens, read]
  rfl

/-- A name is a part of a path, and no other part has a line feed in it. -/
def PartOf (name path : List Char) : Prop :=
  ∃ before after, Path.parts path = before ++ name :: after ∧ ∀ part ∈ before ++ after, '\n' ∉ part

theorem PartOf.mem {name path : List Char} (h : PartOf name path) : name ∈ Path.parts path := by
  rcases h with ⟨before, after, split, -⟩
  rw [split]
  exact List.mem_append_right before List.mem_cons_self

/-- Without line feeds in a path, each part of it is one. -/
theorem partOf_of_not_mem {name path : List Char} (free : '\n' ∉ path) (h : name ∈ Path.parts path) :
    PartOf name path := by
  rcases List.append_of_mem h with ⟨before, after, split⟩
  refine ⟨before, after, split, fun part member feed => ?_⟩
  have known : part ∈ Path.parts path := by
    rw [split]
    rcases List.mem_append.mp member with early | late
    · exact List.mem_append_left _ early
    · exact List.mem_append_right _ (List.mem_cons_of_mem name late)
  exact free ((Text.infix_of_mem_splitOn known).subset feed)

/-- The glob of a directory name matches the paths that the name is a part of, line feeds apart. -/
theorem accepts_folder_iff {name : String} (literal : Literal name.toList) {path : String} :
    (ofString ("**/" ++ name ++ "/**")).accepts path = true ↔ PartOf name.toList path.toList := by
  rw [accepts, tokens_folder literal, matchTokens_iff_cuts]
  constructor
  · intro cuts
    rcases cuts_append.mp cuts with ⟨first, back, whole, cuts, below⟩
    rcases cuts_cons.mp cuts with ⟨front, middle, rfl, folders, chars⟩
    rw [cuts_map_char.mp chars, List.append_assoc] at whole
    -- both cuts are at slashes, so the name is a whole part
    rcases parts_of_fits_below literal.noSlash (cuts_singleton.mp below) with ⟨after, behind, freeAfter⟩
    rcases parts_of_fits_folders folders (name.toList ++ back) with ⟨before, split, freeBefore⟩
    refine ⟨before, after, by rw [whole, split, behind], ?_⟩
    intro part member
    rcases List.mem_append.mp member with early | late
    · exact freeBefore part early
    · exact freeAfter part late
  · rintro ⟨before, after, split, free⟩
    have joined : Text.joinWith '/' (Path.parts path.toList) = path.toList := Text.joinWith_splitOn _
    rcases exists_fits_folders (List.cons_ne_nil name.toList after)
      (fun part member => free part (List.mem_append_left _ member)) with ⟨front, folders, first⟩
    rcases exists_fits_below name.toList
      (fun part member => free part (List.mem_append_right _ member)) with ⟨back, below, second⟩
    rw [split, first, second, ← List.append_assoc] at joined
    refine cuts_append.mpr ⟨front ++ name.toList, back, joined.symm, ?_, cuts_singleton.mpr below⟩
    exact cuts_cons.mpr ⟨front, name.toList, rfl, folders, cuts_map_char.mpr rfl⟩

/-- The names of the directories that are always left out. -/
def hiddenFolders : List String :=
  ["node_modules", "dist", "out", "build", ".git", ".vscode", ".idea"]

/-- The baseline leaves out the directories of these names, with what is below them. -/
theorem ignores_baseline_iff {path : String} :
    (IgnoreRules.ofPatterns []).ignores path = true ↔
      ∃ name ∈ hiddenFolders, PartOf name.toList (forwardSlashes path.toList) := by
  have literal : ∀ name ∈ hiddenFolders, Literal name.toList := by decide
  have patterns {pattern : String} :
      pattern ∈ (IgnoreRules.ofPatterns []).patterns ↔
        ∃ name ∈ hiddenFolders, "**/" ++ name ++ "/**" = pattern := by
    rw [IgnoreRules.ofPatterns, mem_distinct, List.append_nil]
    exact List.mem_map
  rw [IgnoreRules.ignores, List.any_eq_true]
  constructor
  · rintro ⟨pattern, member, accepted⟩
    rcases patterns.mp member with ⟨name, listed, rfl⟩
    have part := (accepts_folder_iff (literal name listed)).mp accepted
    rw [String.toList_ofList] at part
    exact ⟨name, listed, part⟩
  · rintro ⟨name, listed, part⟩
    refine ⟨"**/" ++ name ++ "/**", patterns.mpr ⟨name, listed, rfl⟩, ?_⟩
    rw [accepts_folder_iff (literal name listed), String.toList_ofList]
    exact part

/-- The glob of a directory name matches exactly the paths that the name is a part of while no other part has a
line feed in it. Among paths without line feeds these are all paths that the name is a part of. The baseline
leaves out what such globs of its names match. -/
theorem folder_hidden_iff (name path : String) (literal : Literal name.toList) :
    ((ofString ("**/" ++ name ++ "/**")).accepts path = true ↔ PartOf name.toList path.toList) ∧
    ('\n' ∉ path.toList →
      ((ofString ("**/" ++ name ++ "/**")).accepts path = true ↔ name.toList ∈ Path.parts path.toList)) ∧
    ((IgnoreRules.ofPatterns []).ignores path = true ↔
      ∃ hidden ∈ hiddenFolders, PartOf hidden.toList (forwardSlashes path.toList)) := by
  have accepted : (ofString ("**/" ++ name ++ "/**")).accepts path = true ↔ PartOf name.toList path.toList :=
    accepts_folder_iff literal
  refine ⟨accepted, ?_, ignores_baseline_iff⟩
  intro free
  rw [accepted]
  exact ⟨PartOf.mem, partOf_of_not_mem free⟩

/-- A line feed in the name itself does no harm, and a path without line feeds is matched at any depth. -/
theorem folder_hidden_iff_own_line_feed :
    (Literal "x\ny".toList ∧ (ofString "**/x\ny/**").accepts "a/x\ny/b" = true) ∧
    (Literal "dist".toList ∧ '\n' ∉ "a/b/dist".toList ∧ (ofString "**/dist/**").accepts "a/b/dist" = true) := by
  have feed : Literal "x\ny".toList := by decide
  have part : PartOf "x\ny".toList "a/x\ny/b".toList := ⟨[['a']], [['b']], by decide, by decide⟩
  have plain : Literal "dist".toList := by decide
  have free : '\n' ∉ "a/b/dist".toList := by decide
  have last : "dist".toList ∈ Path.parts "a/b/dist".toList := by decide
  exact ⟨⟨feed, (folder_hidden_iff "x\ny" "a/x\ny/b" feed).1.mpr part⟩,
    plain, free, ((folder_hidden_iff "dist" "a/b/dist" plain).2.1 free).mpr last⟩

/-- A directory is not left out below one with a line feed in its name. -/
theorem folder_below_line_feed_not_hidden :
    Literal "node_modules".toList ∧ "node_modules".toList ∈ Path.parts "a\nb/node_modules".toList ∧
      (ofString "**/node_modules/**").accepts "a\nb/node_modules" = false ∧
      (IgnoreRules.ofPatterns []).ignores "a\nb/node_modules" = false := by
  decide

end Glob

end ContainerKeys
