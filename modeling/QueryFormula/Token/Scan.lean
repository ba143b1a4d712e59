import QueryFormula.Text.Blank
import QueryFormula.Text.Letter
import QueryFormula.Token.Bracketed
import QueryFormula.Token.Numeral
import QueryFormula.Token.Quoted

/-!
# One lexeme

`scan` looks at a text that begins with no blank and either takes one token off
its front or refuses to.  A refusal says which characters the fault covers and
how many of them are passed over, so that scanning can go on behind it.

`scan_token_append` and `scan_refused_append` say that no character is lost
either way.
-/

namespace QueryFormula

/-- What is found at the front of a text. -/
inductive Lexeme where
  /-- A token, its characters and what follows them. -/
  | token (kind : TokenClass) (text rest : List Char)
  /-- A fault, the characters it covers, those passed over, and what follows
  the latter. -/
  | refused (fault : LexFault) (covered passed rest : List Char)

/-- An operator written with signs, its characters and what follows them. -/
def symbol? : List Char → Option (Operator × List Char × List Char)
  | ',' :: rest => some (.comma, [','], rest)
  | '(' :: rest => some (.openParenthesis, ['('], rest)
  | ')' :: rest => some (.closeParenthesis, [')'], rest)
  | '+' :: rest => some (.plus, ['+'], rest)
  | '-' :: rest => some (.minus, ['-'], rest)
  | '*' :: rest => some (.star, ['*'], rest)
  | '/' :: rest => some (.slash, ['/'], rest)
  | '=' :: rest => some (.equal, ['='], rest)
  | '!' :: '=' :: rest => some (.notEqual, ['!', '='], rest)
  | '<' :: '=' :: rest => some (.lessEqual, ['<', '='], rest)
  | '<' :: rest => some (.less, ['<'], rest)
  | '>' :: '=' :: rest => some (.greaterEqual, ['>', '='], rest)
  | '>' :: rest => some (.greater, ['>'], rest)
  | _ => none

/-- A character that a bare name continues with. -/
def isWordChar (c : Char) : Bool :=
  isLetter c || isNumeric c || c = '_' || c = '.'

/-- The class of a bare word; the keywords are written in any case. -/
def wordKind (text : List Char) : TokenClass :=
  match String.ofList (text.map Char.toLower) with
  | "and" => .operator .and
  | "or" => .operator .or
  | "not" => .operator .not
  | "true" => .literal (.boolean true)
  | "false" => .literal (.boolean false)
  | _ => .identifier

/-- A bare name or keyword, whose first character is known to be of a word. -/
def scanWord (c : Char) (rest : List Char) : Lexeme :=
  let text := c :: rest.takeWhile isWordChar
  .token (wordKind text) text (rest.dropWhile isWordChar)

/-- A string behind its opening quote. -/
def scanString (quote : Char) (rest : List Char) : Lexeme :=
  match Quoted.split quote rest with
  | some (body, rest) =>
    .token (.literal (.text (String.ofList (Quoted.decode body)))) (quote :: (body ++ [quote])) rest
  | none => .refused .unclosedString (quote :: rest) (quote :: rest) []

/-- A name behind its opening bracket. -/
def scanBracketed (rest : List Char) : Lexeme :=
  match Bracketed.extent rest with
  | .closed body rest => .token .identifier ('[' :: (body ++ [']'])) rest
  | .reopened body rest => .refused .nestedBracket ('[' :: (body ++ ['['])) ('[' :: body) rest
  | .unclosed => .refused .unclosedBracket ('[' :: rest) ('[' :: rest) []

/-- A number, at whose front a digit stands, or a point and a digit. -/
def scanNumber (cs : List Char) : Lexeme :=
  let (numeral, rest) := Numeral.split cs
  match numeral.value? with
  | some value => .token (.literal value) numeral.chars rest
  | none =>
    .refused (.invalidNumber (String.ofList numeral.chars)) numeral.chars numeral.chars rest

/-- A number begins with a digit, or with a point and a digit. -/
def beginsNumber : List Char → Bool
  | '.' :: d :: _ => d.isDigit
  | c :: _ => c.isDigit
  | [] => false

/-- Look at a text that begins with `c`, which is no blank. -/
def scan (c : Char) (rest : List Char) : Lexeme :=
  match symbol? (c :: rest) with
  | some (op, text, rest) => .token (.operator op) text rest
  | none =>
    if c = '"' ∨ c = '\'' then scanString c rest
    else if c = '[' then scanBracketed rest
    else if beginsNumber (c :: rest) then scanNumber (c :: rest)
    else if isLetter c || c = '_' then scanWord c rest
    else .refused (.invalidCharacter c) [c] [] (c :: rest)

theorem symbol?_append {cs text rest : List Char} {op : Operator}
    (h : symbol? cs = some (op, text, rest)) : text ++ rest = cs ∧ text ≠ [] := by
  unfold symbol? at h
  split at h <;> cases h <;> simp

theorem Numeral.chars_ne_nil_of_beginsNumber {cs : List Char} (h : beginsNumber cs = true) :
    (Numeral.split cs).1.chars ≠ [] := by
  match cs, h with
  | c :: rest, h =>
    by_cases hc : c.isDigit = true
    · simp [Numeral.chars, Numeral.split, isDecimalDigit_of_isDigit hc]
    · unfold beginsNumber at h
      split at h
      · rename_i d tail heq
        cases heq
        have hpoint : isDecimalDigit '.' = false := rfl
        simp [Numeral.chars, Numeral.split, hpoint, Numeral.splitFraction,
          isDecimalDigit_of_isDigit h, Numeral.fractionChars]
      · rename_i heq
        cases heq
        exact absurd h hc
      · cases h

/-- A token begins the text it is taken off, and is not empty. -/
theorem scan_token_append {c : Char} {cs text rest : List Char} {kind : TokenClass}
    (h : scan c cs = .token kind text rest) : text ++ rest = c :: cs ∧ text ≠ [] := by
  unfold scan at h
  split at h
  · rename_i hs
    cases h
    exact symbol?_append hs
  · split at h
    · unfold scanString at h
      split at h <;> cases h
      rename_i hs
      simp [Quoted.split_append hs]
    · split at h
      · rename_i hc
        unfold scanBracketed at h
        split at h <;> cases h
        rename_i hs
        simp [Bracketed.extent_closed_append hs, hc]
      · split at h
        · rename_i hn
          unfold scanNumber at h
          have happend := Numeral.split_append (c :: cs)
          have hne := Numeral.chars_ne_nil_of_beginsNumber hn
          dsimp only at h
          split at h <;> cases h
          exact ⟨happend, hne⟩
        · split at h
          · unfold scanWord at h
            cases h
            simp [List.takeWhile_append_dropWhile]
          · cases h

/-- The characters passed over at a fault begin the text. -/
theorem scan_refused_append {c : Char} {cs covered passed rest : List Char} {fault : LexFault}
    (h : scan c cs = .refused fault covered passed rest) : passed ++ rest = c :: cs := by
  unfold scan at h
  split at h
  · cases h
  · split at h
    · unfold scanString at h
      split at h <;> cases h
      simp
    · split at h
      · rename_i hc
        unfold scanBracketed at h
        split at h <;> cases h
        · rename_i hs
          simp [(Bracketed.extent_reopened_append hs).1, hc]
        · simp [hc]
      · split at h
        · unfold scanNumber at h
          have happend := Numeral.split_append (c :: cs)
          dsimp only at h
          split at h <;> cases h
          exact happend
        · split at h
          · cases h
          · cases h
            rfl

end QueryFormula
