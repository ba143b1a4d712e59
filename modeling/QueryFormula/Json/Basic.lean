/-!
# JSON values

A number is kept as its text, since JSON gives numbers no size.  The members of
an object stand in the order of the text, repeated names included.

One value has no counterpart among sequences of characters: a text whose escapes
name one half of a surrogate pair only.  Such a text, and an object with such a
name, is `unpaired`: well formed, but of no further use.
-/

namespace QueryFormula

/-- A JSON value. -/
inductive Json where
  | null
  | boolean (value : Bool)
  | number (text : String)
  | string (text : String)
  | array (items : List Json)
  | object (members : List (String × Json))
  | unpaired

namespace Json

/-- An integer. -/
def ofInt (n : Int) : Json :=
  .number (String.ofList ((if n < 0 then ['-'] else []) ++ Nat.toDigits 10 n.natAbs))

/-- A list of values. -/
def ofList {α : Type} (f : α → Json) (xs : List α) : Json :=
  .array (xs.map f)

/-- A value that may be missing; `null` stands for one that is. -/
def ofOption {α : Type} (f : α → Json) : Option α → Json
  | some x => f x
  | none => .null

end Json

end QueryFormula
