/-!
# JSON values

Objects keep their fields in order. Whole numbers are exact; any other number keeps its spelling.
-/

namespace ContainerKeys

/-- A JSON value. -/
inductive Json where
  | null
  | bool (b : Bool)
  | int (n : Int)
  /-- A number with a fraction or an exponent, not a number, or an infinity, as it is spelled. -/
  | real (spelling : String)
  | str (s : String)
  | arr (items : List Json)
  | obj (fields : List (String × Json))

namespace Json

instance : Inhabited Json := ⟨.null⟩

/-- The value of a field of an object. -/
def field? (j : Json) (name : String) : Option Json :=
  match j with
  | .obj fields => (fields.find? fun f => f.1 = name).map Prod.snd
  | _ => none

/-- The text of a string. -/
def str? : Json → Option String
  | .str s => some s
  | _ => none

/-- The whole number. -/
def int? : Json → Option Int
  | .int n => some n
  | _ => none

/-- The truth value. -/
def bool? : Json → Option Bool
  | .bool b => some b
  | _ => none

/-- The items of an array. -/
def arr? : Json → Option (List Json)
  | .arr items => some items
  | _ => none

/-- A text, or null for none. -/
def ofText? : Option String → Json
  | some s => .str s
  | none => .null

end Json

end ContainerKeys
