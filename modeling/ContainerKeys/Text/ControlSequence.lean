/-!
# Control sequences

A terminal takes a control sequence as a command and shows nothing of it: an escape character and an
opening bracket, parameters, intermediate characters and one final character. Where text goes to no
terminal, the sequences are dropped.

* `Text.dropSequences` — the text without its control sequences.
-/

namespace ContainerKeys.Text

/-- The parameters of a sequence: digits and `:;<=>?`. -/
def isParameter (c : Char) : Bool :=
  '0' ≤ c && c ≤ '?'

/-- The characters between the parameters and the final character: the space and `!` to `/`. -/
def isIntermediate (c : Char) : Bool :=
  ' ' ≤ c && c ≤ '/'

/-- The characters that a sequence may end in: `@` to `~`. -/
def isFinal (c : Char) : Bool :=
  '@' ≤ c && c ≤ '~'

/-- What stands after a sequence whose parameters begin here; none if it is not completed. -/
def afterSequence? (cs : List Char) : Option (List Char) :=
  match (cs.dropWhile isParameter).dropWhile isIntermediate with
  | c :: rest => if isFinal c then some rest else none
  | [] => none

theorem length_afterSequence?_le {cs rest : List Char} (h : afterSequence? cs = some rest) :
    rest.length ≤ cs.length := by
  unfold afterSequence? at h
  split at h
  · next c tail heq =>
    have hsuffix := (List.dropWhile_suffix isIntermediate (l := cs.dropWhile isParameter)).trans
      (List.dropWhile_suffix isParameter (l := cs))
    have := hsuffix.length_le
    rw [heq] at this
    simp only [List.length_cons] at this
    split at h
    · cases h
      omega
    · cases h
  · cases h

/-- The text without its control sequences. -/
def dropSequences : List Char → List Char
  | [] => []
  | c :: rest =>
    if c = '\x1b' ∧ rest.head? = some '[' then
      match _h : afterSequence? rest.tail with
      | some after => dropSequences after
      | none => c :: dropSequences rest
    else c :: dropSequences rest
termination_by cs => cs.length
decreasing_by
  all_goals simp only [List.length_cons]
  · have := length_afterSequence?_le _h
    simp only [List.length_tail] at this
    omega
  all_goals omega

end ContainerKeys.Text
