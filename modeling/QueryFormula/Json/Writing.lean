import QueryFormula.Json.Basic

/-!
# Writing JSON

`Json.compact` writes a value without blanks, `Json.pretty` with one member or
item a line and two blanks for each level.  Both are built from functions that
put the text of a value in front of a given text.

Of the characters of a string, the quote, the backslash and those below U+0020
are escaped.
-/

namespace QueryFormula.Json

/-- One hexadecimal digit. -/
def hexDigit (n : Nat) : Char :=
  Nat.digitChar n

/-- A character inside a string. -/
def escape (c : Char) : List Char :=
  if c = '"' then ['\\', '"']
  else if c = '\\' then ['\\', '\\']
  else if c = '\x08' then ['\\', 'b']
  else if c = '\x0c' then ['\\', 'f']
  else if c = '\n' then ['\\', 'n']
  else if c = '\r' then ['\\', 'r']
  else if c = '\t' then ['\\', 't']
  else if c.toNat < 32 then ['\\', 'u', '0', '0', hexDigit (c.toNat / 16), hexDigit (c.toNat % 16)]
  else [c]

/-- A string in quotes, before `rest`. -/
def quote (text : List Char) (rest : List Char) : List Char :=
  '"' :: (text.flatMap escape ++ '"' :: rest)

mutual

/-- A value without blanks, before `rest`. -/
def write : Json → List Char → List Char
  | null, rest => 'n' :: 'u' :: 'l' :: 'l' :: rest
  | boolean true, rest => 't' :: 'r' :: 'u' :: 'e' :: rest
  | boolean false, rest => 'f' :: 'a' :: 'l' :: 's' :: 'e' :: rest
  | number text, rest => text.toList ++ rest
  | string text, rest => quote text.toList rest
  | array items, rest => '[' :: writeItems items (']' :: rest)
  | object members, rest => '{' :: writeMembers members ('}' :: rest)
  | unpaired, rest => 'n' :: 'u' :: 'l' :: 'l' :: rest

/-- Values with commas between them, before `rest`. -/
def writeItems : List Json → List Char → List Char
  | [], rest => rest
  | [x], rest => write x rest
  | x :: y :: more, rest => write x (',' :: writeItems (y :: more) rest)

/-- Members with commas between them, before `rest`. -/
def writeMembers : List (String × Json) → List Char → List Char
  | [], rest => rest
  | [(name, x)], rest => quote name.toList (':' :: write x rest)
  | (name, x) :: y :: more, rest =>
    quote name.toList (':' :: write x (',' :: writeMembers (y :: more) rest))

end

/-- The text of a value, without blanks. -/
def compact (value : Json) : String :=
  String.ofList (write value [])

/-- A new line, indented, before `rest`. -/
def newLine (level : Nat) (rest : List Char) : List Char :=
  '\n' :: (List.replicate (2 * level) ' ' ++ rest)

mutual

/-- A value whose lines are indented by `level`, before `rest`. -/
def writePretty (level : Nat) : Json → List Char → List Char
  | array [], rest => '[' :: ']' :: rest
  | array (x :: more), rest =>
    '[' :: newLine (level + 1)
      (writePretty (level + 1) x (prettyItems level more (newLine level (']' :: rest))))
  | object [], rest => '{' :: '}' :: rest
  | object ((name, x) :: more), rest =>
    '{' :: newLine (level + 1) (quote name.toList (':' :: ' ' ::
      writePretty (level + 1) x (prettyMembers level more (newLine level ('}' :: rest)))))
  | null, rest => write null rest
  | boolean b, rest => write (boolean b) rest
  | number text, rest => write (number text) rest
  | string text, rest => write (string text) rest
  | unpaired, rest => write unpaired rest

/-- Further items of an array at `level`, each behind a comma. -/
def prettyItems (level : Nat) : List Json → List Char → List Char
  | [], rest => rest
  | x :: more, rest =>
    ',' :: newLine (level + 1) (writePretty (level + 1) x (prettyItems level more rest))

/-- Further members of an object at `level`, each behind a comma. -/
def prettyMembers (level : Nat) : List (String × Json) → List Char → List Char
  | [], rest => rest
  | (name, x) :: more, rest =>
    ',' :: newLine (level + 1) (quote name.toList (':' :: ' ' ::
      writePretty (level + 1) x (prettyMembers level more rest)))

end

/-- The text of a value, one item or member a line. -/
def pretty (value : Json) : String :=
  String.ofList (writePretty 0 value [])

end QueryFormula.Json
