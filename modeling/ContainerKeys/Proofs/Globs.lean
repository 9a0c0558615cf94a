import ContainerKeys.Glob
import Mathlib.Data.List.Forall2

/-!
# What a glob matches

A glob is read from left to right. Where several tokens could be read, one of them has priority. A path
matches if it can be cut into consecutive pieces, one for each token, such that each piece fits its token.

* `Glob.Reads` — the tokens of a text; `Glob.reads_iff` — they are read as such.
* `GlobToken.Fits` — the pieces that a token stands for.
* `Glob.Cuts` — a text can be cut into pieces for tokens.
* `Glob.matchTokens_iff_cuts` — the search for such a cut finds one if there is one.
* `Glob.accepts_iff_pieces` — what a glob matches.
-/

namespace ContainerKeys

/-! ## Reading tokens -/

namespace GlobToken

/-- How a token is written. -/
def spelling : GlobToken → List Char
  | .folders => ['*', '*', '/']
  | .below => ['/', '*', '*']
  | .anything => ['*', '*']
  | .part => ['*']
  | .one => ['?']
  | .char c => [c]

/-- The priority of a token; the smallest one wins. -/
def rank : GlobToken → Nat
  | .folders => 0
  | .below => 1
  | .anything => 2
  | .part => 3
  | .one => 4
  | .char _ => 5

/-- A text starts with the token and goes on with `rest`. The token `/**` stands at the end only. -/
def Starts (t : GlobToken) (text rest : List Char) : Prop :=
  text = t.spelling ++ rest ∧ (t = .below → rest = [])

/-- A text starts with the token, and no other token that it starts with has priority. -/
structure Leads (t : GlobToken) (text rest : List Char) : Prop where
  starts : t.Starts text rest
  first : ∀ (t' : GlobToken) (rest' : List Char), t'.Starts text rest' → t.rank ≤ t'.rank

/-- Tokens of the same priority at one place are the same. -/
theorem Leads.unique {t t' : GlobToken} {text rest rest' : List Char} (h : t.Leads text rest)
    (h' : t'.Leads text rest') : t = t' ∧ rest = rest' := by
  have same : t.rank = t'.rank :=
    Nat.le_antisymm (h.first t' rest' h'.starts) (h'.first t rest h.starts)
  have spelled : t.spelling ++ rest = t'.spelling ++ rest' := h.starts.1.symm.trans h'.starts.1
  have equal : t = t' := by
    cases t <;> cases t' <;> simp_all [rank, spelling]
  subst equal
  exact ⟨rfl, List.append_cancel_left spelled⟩

theorem Leads.ne_nil {t : GlobToken} {text rest : List Char} (h : t.Leads text rest) : text ≠ [] := by
  rw [h.starts.1]
  cases t <;> simp [spelling]

end GlobToken

namespace Glob

/-- The tokens of a text from left to right. -/
inductive Reads : List Char → List GlobToken → Prop
  | nil : Reads [] []
  | cons {text rest : List Char} {t : GlobToken} {ts : List GlobToken} (here : t.Leads text rest)
      (more : Reads rest ts) : Reads text (t :: ts)

theorem Reads.unique {text : List Char} {ts ts' : List GlobToken} (h : Reads text ts)
    (h' : Reads text ts') : ts = ts' := by
  induction h generalizing ts' with
  | nil =>
    cases h' with
    | nil => rfl
    | cons here => exact absurd rfl here.ne_nil
  | cons here more ih =>
    cases h' with
    | nil => exact absurd rfl here.ne_nil
    | cons here' more' =>
      rcases here.unique here' with ⟨rfl, rfl⟩
      rw [ih more']

/-- Reading a text takes the token with priority at each place. -/
theorem reads_readTokens (text : List Char) : Reads text (readTokens text) := by
  fun_induction readTokens text with
  | case1 => exact .nil
  | case2 rest ih => exact .cons ⟨⟨rfl, nofun⟩, fun t rest' _ => Nat.zero_le t.rank⟩ ih
  | case3 =>
    refine .cons ⟨⟨rfl, fun _ => rfl⟩, fun t rest' starts => ?_⟩ .nil
    cases t <;> simp_all [GlobToken.rank, GlobToken.Starts, GlobToken.spelling]
  | case4 rest _ ih =>
    refine .cons ⟨⟨rfl, nofun⟩, fun t rest' starts => ?_⟩ ih
    cases t <;> simp_all [GlobToken.rank, GlobToken.Starts, GlobToken.spelling]
  | case5 rest _ _ ih =>
    refine .cons ⟨⟨rfl, nofun⟩, fun t rest' starts => ?_⟩ ih
    cases t <;> simp_all [GlobToken.rank, GlobToken.Starts, GlobToken.spelling]
  | case6 rest ih =>
    refine .cons ⟨⟨rfl, nofun⟩, fun t rest' starts => ?_⟩ ih
    cases t <;> simp_all [GlobToken.rank, GlobToken.Starts, GlobToken.spelling]
  | case7 c rest _ _ _ _ _ ih =>
    refine .cons ⟨⟨rfl, nofun⟩, fun t rest' starts => ?_⟩ ih
    cases t <;> simp_all [GlobToken.rank, GlobToken.Starts, GlobToken.spelling]

theorem reads_iff {text : List Char} {ts : List GlobToken} : Reads text ts ↔ readTokens text = ts :=
  ⟨fun h => (reads_readTokens text).unique h, fun h => h ▸ reads_readTokens text⟩

example : readTokens "a/**/***/b/**".toList =
    [.char 'a', .char '/', .folders, .anything, .part, .char '/', .char 'b', .below] := by
  decide

end Glob

/-! ## Pieces -/

/-- The pieces of a path that a token stands for. -/
def GlobToken.Fits : GlobToken → List Char → Prop
  | .folders, piece => piece = [] ∨ piece.getLast? = some '/' ∧ '\n' ∉ piece
  | .below, piece => piece = [] ∨ piece.head? = some '/' ∧ '\n' ∉ piece
  | .anything, piece => '\n' ∉ piece
  | .part, piece => '/' ∉ piece
  | .one, piece => ∃ c, piece = [c] ∧ c ≠ '/'
  | .char c, piece => piece = [c]

namespace Glob

/-- A text can be cut into consecutive pieces, one for each token. -/
def Cuts (ts : List GlobToken) (cs : List Char) : Prop :=
  ∃ pieces, List.Forall₂ GlobToken.Fits ts pieces ∧ pieces.flatten = cs

variable {t : GlobToken} {ts us : List GlobToken} {cs : List Char}

@[simp] theorem cuts_nil : Cuts [] cs ↔ cs = [] := by
  constructor
  · rintro ⟨pieces, fits, rfl⟩
    cases fits
    rfl
  · rintro rfl
    exact ⟨[], .nil, rfl⟩

/-- The first token takes the first piece. -/
theorem cuts_cons : Cuts (t :: ts) cs ↔ ∃ piece rest, cs = piece ++ rest ∧ t.Fits piece ∧ Cuts ts rest := by
  constructor
  · rintro ⟨pieces, fits, rfl⟩
    cases fits with
    | cons here more => exact ⟨_, _, List.flatten_cons, here, _, more, rfl⟩
  · rintro ⟨piece, rest, rfl, here, pieces, more, rfl⟩
    exact ⟨piece :: pieces, .cons here more, List.flatten_cons⟩

theorem cuts_singleton : Cuts [t] cs ↔ t.Fits cs := by
  rw [cuts_cons]
  constructor
  · rintro ⟨piece, rest, rfl, fits, none⟩
    rwa [cuts_nil.mp none, List.append_nil]
  · intro fits
    exact ⟨cs, [], (List.append_nil cs).symm, fits, cuts_nil.mpr rfl⟩

theorem cuts_append :
    Cuts (ts ++ us) cs ↔ ∃ front back, cs = front ++ back ∧ Cuts ts front ∧ Cuts us back := by
  induction ts generalizing cs with
  | nil => simp
  | cons t ts ih =>
    simp only [List.cons_append, cuts_cons, ih]
    constructor
    · rintro ⟨piece, rest, rfl, here, front, back, rfl, first, second⟩
      exact ⟨piece ++ front, back, (List.append_assoc ..).symm, ⟨piece, front, rfl, here, first⟩, second⟩
    · rintro ⟨front, back, rfl, ⟨piece, rest, rfl, here, first⟩, second⟩
      exact ⟨piece, rest ++ back, List.append_assoc .., here, rest, back, rfl, first, second⟩

/-! ## Searching for pieces -/

variable {next : List Char → Bool}

/-- The shortest run is tried first, and then one character more each time. -/
theorem takesRun_iff {a : Char} :
    takesRun (· ≠ a) next cs = true ↔ ∃ piece rest, cs = piece ++ rest ∧ a ∉ piece ∧ next rest = true := by
  induction cs with
  | nil => simp [takesRun]
  | cons c cs ih =>
    rw [takesRun, Bool.or_eq_true, Bool.and_eq_true, decide_eq_true_eq, ih]
    constructor
    · rintro (now | ⟨other, piece, rest, rfl, free, later⟩)
      · exact ⟨[], c :: cs, rfl, List.not_mem_nil, now⟩
      · exact ⟨c :: piece, rest, rfl, by simp [Ne.symm other, free], later⟩
    · rintro ⟨piece, rest, split, free, later⟩
      cases piece with
      | nil => exact Or.inl (split ▸ later)
      | cons d piece =>
        cases split
        rw [List.mem_cons, not_or] at free
        exact Or.inr ⟨Ne.symm free.1, piece, rest, rfl, free.2, later⟩

/-- Each slash up to the first line feed may be the last one of the piece. -/
theorem takesFolders_iff :
    takesFolders next cs = true ↔
      ∃ piece rest, cs = piece ++ rest ∧ (piece.getLast? = some '/' ∧ '\n' ∉ piece) ∧ next rest = true := by
  induction cs with
  | nil => simp [takesFolders]
  | cons c cs ih =>
    simp only [takesFolders, Bool.or_eq_true, Bool.and_eq_true, decide_eq_true_eq, ih]
    constructor
    · rintro (⟨rfl, now⟩ | ⟨other, piece, rest, rfl, ⟨ends, free⟩, later⟩)
      · exact ⟨['/'], cs, rfl, ⟨rfl, by decide⟩, now⟩
      · refine ⟨c :: piece, rest, rfl, ⟨?_, ?_⟩, later⟩
        · rw [List.getLast?_cons, ends]
          rfl
        · simp [Ne.symm other, free]
    · rintro ⟨piece, rest, split, ⟨ends, free⟩, later⟩
      cases piece with
      | nil => cases ends
      | cons d piece =>
        cases split
        rw [List.mem_cons, not_or] at free
        cases piece with
        | nil => exact Or.inl ⟨by simpa using ends, later⟩
        | cons e piece =>
          exact Or.inr ⟨Ne.symm free.1, e :: piece, rest, rfl, ⟨by simpa using ends, free.2⟩, later⟩

/-- A piece that may be left out. -/
theorem exists_piece_or_nil {P : List Char → Prop} :
    (∃ piece rest, cs = piece ++ rest ∧ (piece = [] ∨ P piece) ∧ next rest = true) ↔
      next cs = true ∨ ∃ piece rest, cs = piece ++ rest ∧ P piece ∧ next rest = true := by
  constructor
  · rintro ⟨piece, rest, rfl, rfl | fits, later⟩
    · exact Or.inl later
    · exact Or.inr ⟨piece, rest, rfl, fits, later⟩
  · rintro (now | ⟨piece, rest, split, fits, later⟩)
    · exact ⟨[], cs, rfl, Or.inl rfl, now⟩
    · exact ⟨piece, rest, split, Or.inr fits, later⟩

/-- A token is looked for in every piece that fits it. -/
theorem takes_iff :
    takes next cs t = true ↔ ∃ piece rest, cs = piece ++ rest ∧ t.Fits piece ∧ next rest = true := by
  cases t with
  | folders =>
    simp only [takes, GlobToken.Fits, Bool.or_eq_true, takesFolders_iff, exists_piece_or_nil]
  | below =>
    simp only [takes, GlobToken.Fits, Bool.or_eq_true, exists_piece_or_nil]
    refine or_congr_right ?_
    constructor
    · intro h
      split at h
      · rename_i cs
        rcases takesRun_iff.mp h with ⟨piece, rest, rfl, free, later⟩
        exact ⟨'/' :: piece, rest, rfl, ⟨rfl, by simp [free]⟩, later⟩
      · cases h
    · rintro ⟨piece, rest, rfl, ⟨head, free⟩, later⟩
      rcases List.head?_eq_some_iff.mp head with ⟨piece, rfl⟩
      rw [List.mem_cons, not_or] at free
      exact takesRun_iff.mpr ⟨piece, rest, rfl, free.2, later⟩
  | anything => exact takesRun_iff
  | part => exact takesRun_iff
  | one =>
    cases cs with
    | nil => simp [takes, GlobToken.Fits]
    | cons c cs =>
      simp only [takes, GlobToken.Fits, Bool.and_eq_true, decide_eq_true_eq]
      constructor
      · rintro ⟨other, later⟩
        exact ⟨[c], cs, rfl, ⟨c, rfl, other⟩, later⟩
      · rintro ⟨piece, rest, split, ⟨d, rfl, other⟩, later⟩
        cases split
        exact ⟨other, later⟩
  | char a =>
    cases cs with
    | nil => simp [takes, GlobToken.Fits]
    | cons c cs =>
      simp only [takes, GlobToken.Fits, Bool.and_eq_true, decide_eq_true_eq]
      constructor
      · rintro ⟨rfl, later⟩
        exact ⟨[c], cs, rfl, rfl, later⟩
      · rintro ⟨piece, rest, split, rfl, later⟩
        cases split
        exact ⟨rfl, later⟩

/-- The search finds a cut if there is one. -/
theorem matchTokens_iff_cuts : matchTokens ts cs = true ↔ Cuts ts cs := by
  induction ts generalizing cs with
  | nil => simp [matchTokens]
  | cons t ts ih => simp only [matchTokens, takes_iff, ih, cuts_cons]

/-! ## Whole globs -/

/-- The text that the tokens of a glob are read from: backslashes count as slashes, and leading slashes are
dropped. -/
def body (pattern : String) : List Char :=
  (forwardSlashes pattern.toList).dropWhile (· = '/')

theorem accepts_iff_cuts {pattern path : String} :
    (ofString pattern).accepts path = true ↔ Cuts (readTokens (body pattern)) path.toList :=
  matchTokens_iff_cuts

/-- A glob matches a path exactly if the path can be cut into consecutive pieces, one for each token that is
read off the glob, such that each piece fits its token. -/
theorem accepts_iff_pieces (pattern path : String) :
    (ofString pattern).accepts path = true ↔
      ∃ tokens pieces, Reads (body pattern) tokens ∧ List.Forall₂ GlobToken.Fits tokens pieces ∧
        pieces.flatten = path.toList := by
  rw [accepts_iff_cuts]
  constructor
  · rintro ⟨pieces, fits, whole⟩
    exact ⟨readTokens (body pattern), pieces, reads_readTokens _, fits, whole⟩
  · rintro ⟨tokens, pieces, reads, fits, whole⟩
    rw [reads_iff.mp reads]
    exact ⟨pieces, fits, whole⟩

end Glob

end ContainerKeys
