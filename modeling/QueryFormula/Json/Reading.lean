import QueryFormula.Json.Basic
import QueryFormula.Json.Text

/-!
# Reading JSON

`Json.read` accepts the texts of the JSON grammar and nothing behind them.
Objects may repeat names; a number is accepted whatever its size.
-/

namespace QueryFormula.Json

/-- The characters that may stand between the tokens of a JSON text. -/
def isGap (c : Char) : Bool :=
  c = ' ' || c = '\n' || c = '\t' || c = '\r'

/-- The text from its first token on. -/
def skipGap (cs : List Char) : List Char :=
  cs.dropWhile isGap

theorem skipGap_length_le (cs : List Char) : (skipGap cs).length ≤ cs.length :=
  (List.dropWhile_sublist isGap).length_le

/-- The digits at the front of a text, and what follows them. -/
def splitDigits (cs : List Char) : List Char × List Char :=
  (cs.takeWhile Char.isDigit, cs.dropWhile Char.isDigit)

/-- The whole part of a number; a zero is not followed by digits. -/
def splitWhole : List Char → List Char × List Char
  | '0' :: rest => (['0'], rest)
  | cs => splitDigits cs

/-- A point with digits behind it. -/
def splitFraction : List Char → List Char × List Char
  | '.' :: rest =>
    match splitDigits rest with
    | ([], _) => ([], '.' :: rest)
    | (digits, after) => ('.' :: digits, after)
  | cs => ([], cs)

/-- An exponent with its mark. -/
def splitExponent : List Char → List Char × List Char
  | [] => ([], [])
  | mark :: rest =>
    if mark = 'e' ∨ mark = 'E' then
      let (sign, tail) := match rest with
        | '+' :: tail => (['+'], tail)
        | '-' :: tail => (['-'], tail)
        | tail => ([], tail)
      match splitDigits tail with
      | ([], _) => ([], mark :: rest)
      | (digits, after) => (mark :: (sign ++ digits), after)
    else ([], mark :: rest)

/-- The number behind its sign, and what follows it. -/
def splitMagnitude (cs : List Char) : List Char × List Char :=
  let (whole, rest) := splitWhole cs
  let (fraction, rest) := splitFraction rest
  let (exponent, rest) := splitExponent rest
  (whole ++ fraction ++ exponent, rest)

/-- A number, and what follows it. -/
def splitNumber : List Char → List Char × List Char
  | '-' :: rest =>
    match splitWhole rest with
    | ([], _) => ([], '-' :: rest)
    | _ => ('-' :: (splitMagnitude rest).1, (splitMagnitude rest).2)
  | cs =>
    match splitWhole cs with
    | ([], _) => ([], cs)
    | _ => splitMagnitude cs

/-- A number at the front of a text. -/
def readNumber (cs : List Char) : Option (Parsed Char Json cs.length) :=
  let (text, rest) := splitNumber cs
  if h : rest.length < cs.length then some ⟨number (String.ofList text), rest, h⟩ else none

/-- A way to read a value off a text of fewer than `bound` characters. -/
abbrev Reader (bound : Nat) :=
  (cs : List Char) → cs.length < bound → Option (Parsed Char Json cs.length)

/-- The items of an array, one at least, and its closing bracket. -/
def readItems {bound : Nat} (item : Reader bound) (cs : List Char) (within : cs.length < bound) :
    Option (Parsed Char (List Json) cs.length) := do
  let first ← item cs within
  match _h : skipGap first.rest with
  | ']' :: rest =>
    some ⟨[first.value], rest, by
      have := first.shorter; have := skipGap_length_le first.rest
      rw [_h, List.length_cons] at this; omega⟩
  | ',' :: rest =>
    have shorter : (skipGap rest).length < cs.length := by
      have := first.shorter; have := skipGap_length_le first.rest
      have := skipGap_length_le rest; simp only [_h, List.length_cons] at *; omega
    let others ← readItems item (skipGap rest) (Nat.lt_trans shorter within)
    some ((others.map (first.value :: ·)).widen (Nat.le_of_lt shorter))
  | _ => none
termination_by cs.length
decreasing_by exact shorter

/-- The name of a member, its colon, and what follows the colon; `none` inside
stands for a name with an unpaired surrogate. -/
def readName : (cs : List Char) → Option (Parsed Char (Option String) cs.length)
  | '"' :: rest => do
    let name ← readText rest
    match _h : skipGap name.rest with
    | ':' :: after =>
      some ⟨name.value, skipGap after, by
        have := name.shorter; have := skipGap_length_le name.rest
        have := skipGap_length_le after; simp only [_h, List.length_cons] at *; omega⟩
    | _ => none
  | _ => none

/-- A member in front of the others; an object with a name that is no text is
`none`. -/
def consMember (name : Option String) (value : Json) (others : Option (List (String × Json))) :
    Option (List (String × Json)) :=
  match name, others with
  | some name, some others => some ((name, value) :: others)
  | _, _ => none

/-- The members of an object, one at least, and its closing brace. -/
def readMembers {bound : Nat} (item : Reader bound) (cs : List Char) (within : cs.length < bound) :
    Option (Parsed Char (Option (List (String × Json))) cs.length) := do
  let name ← readName cs
  let first ← item name.rest (Nat.lt_trans name.shorter within)
  match _h : skipGap first.rest with
  | '}' :: rest =>
    some ⟨consMember name.value first.value (some []), rest, by
      have := name.shorter; have := first.shorter; have := skipGap_length_le first.rest
      simp only [_h, List.length_cons] at *; omega⟩
  | ',' :: rest =>
    have shorter : (skipGap rest).length < cs.length := by
      have := name.shorter; have := first.shorter; have := skipGap_length_le first.rest
      have := skipGap_length_le rest; simp only [_h, List.length_cons] at *; omega
    let others ← readMembers item (skipGap rest) (Nat.lt_trans shorter within)
    some ((others.map (consMember name.value first.value)).widen (Nat.le_of_lt shorter))
  | _ => none
termination_by cs.length
decreasing_by exact shorter

/-- The object with these members. -/
def ofMembers? : Option (List (String × Json)) → Json
  | some members => object members
  | none => unpaired

/-- The string with this text. -/
def ofText? : Option String → Json
  | some text => string text
  | none => unpaired

/-- A value at the front of a text that begins with no gap. -/
def readValue (cs : List Char) : Option (Parsed Char Json cs.length) :=
  match cs with
  | 'n' :: 'u' :: 'l' :: 'l' :: rest => some ⟨null, rest, by simp only [List.length_cons]; omega⟩
  | 't' :: 'r' :: 'u' :: 'e' :: rest =>
    some ⟨boolean true, rest, by simp only [List.length_cons]; omega⟩
  | 'f' :: 'a' :: 'l' :: 's' :: 'e' :: rest =>
    some ⟨boolean false, rest, by simp only [List.length_cons]; omega⟩
  | '"' :: rest => (readText rest).map fun text => (text.map ofText?).widen (Nat.le_succ _)
  | '[' :: rest =>
    match _h : skipGap rest with
    | ']' :: after =>
      some ⟨array [], after, by
        have := skipGap_length_le rest; simp only [_h, List.length_cons] at *; omega⟩
    | _ =>
      (readItems (fun inner _ => readValue inner) (skipGap rest) (Nat.lt_succ_self _)).map
        fun items => (items.map array).widen (by
          have := skipGap_length_le rest; simp only [List.length_cons]; omega)
  | '{' :: rest =>
    match _h : skipGap rest with
    | '}' :: after =>
      some ⟨object [], after, by
        have := skipGap_length_le rest; simp only [_h, List.length_cons] at *; omega⟩
    | _ =>
      (readMembers (fun inner _ => readValue inner) (skipGap rest) (Nat.lt_succ_self _)).map
        fun members => (members.map ofMembers?).widen (by
          have := skipGap_length_le rest; simp only [List.length_cons]; omega)
  | cs => readNumber cs
termination_by cs.length
decreasing_by
  all_goals
    have := skipGap_length_le rest
    simp only [List.length_cons]
    omega

/-- The value that a text writes. -/
def read (text : String) : Option Json := do
  let value ← readValue (skipGap text.toList)
  if skipGap value.rest = [] then some value.value else none

end QueryFormula.Json
