import QueryFormula.Parsed
import QueryFormula.Text.Hex

/-!
# Reading a JSON string

A string is read in two steps: `readCodes` turns its characters and escapes into
code points, among which a `\u` escape may put a surrogate, and `joinSurrogates`
makes characters of them, if every surrogate has its partner beside it.
-/

namespace QueryFormula.Json

/-- What an escape other than `\u` stands for. -/
def simpleEscape? : Char → Option Char
  | '"' => some '"'
  | '\\' => some '\\'
  | '/' => some '/'
  | 'b' => some '\x08'
  | 'f' => some '\x0c'
  | 'n' => some '\n'
  | 'r' => some '\r'
  | 't' => some '\t'
  | _ => none

/-- The code points up to the closing quote, and what follows the quote.
Characters below U+0020 must be escaped. -/
def readCodes : List Char → Option (List Nat × List Char)
  | [] => none
  | '"' :: rest => some ([], rest)
  | '\\' :: 'u' :: a :: b :: c :: d :: rest =>
    match hexNumber? a b c d with
    | some code => (readCodes rest).map fun (codes, rest) => (code :: codes, rest)
    | none => none
  | '\\' :: e :: rest =>
    match simpleEscape? e with
    | some c => (readCodes rest).map fun (codes, rest) => (c.toNat :: codes, rest)
    | none => none
  | c :: rest =>
    if c = '\\' || c.toNat < 32 then none
    else (readCodes rest).map fun (codes, rest) => (c.toNat :: codes, rest)

/-- The first half of a surrogate pair. -/
def isHighSurrogate (code : Nat) : Bool :=
  0xD800 ≤ code && code < 0xDC00

/-- The second half of a surrogate pair. -/
def isLowSurrogate (code : Nat) : Bool :=
  0xDC00 ≤ code && code < 0xE000

/-- The code point of a surrogate pair. -/
def surrogatePair (high low : Nat) : Nat :=
  0x10000 + (high - 0xD800) * 0x400 + (low - 0xDC00)

/-- The characters of some code points, unless a surrogate stands alone. -/
def joinSurrogates : List Nat → Option (List Char)
  | [] => some []
  | high :: low :: rest =>
    if isHighSurrogate high && isLowSurrogate low then do
      pure ((← scalar? (surrogatePair high low)) :: (← joinSurrogates rest))
    else do
      pure ((← scalar? high) :: (← joinSurrogates (low :: rest)))
  | [code] => (scalar? code).map ([·])

theorem readCodes_shorter {cs rest : List Char} {codes : List Nat}
    (h : readCodes cs = some (codes, rest)) : rest.length < cs.length := by
  fun_induction readCodes cs generalizing codes rest with
  | case1 => cases h
  | case2 => cases h; simp
  | case3 a b c d tail code hcode ih =>
    obtain ⟨⟨b, r⟩, hb, heq⟩ := Option.map_eq_some_iff.mp h
    cases heq
    have := ih hb
    simp only [List.length_cons]
    omega
  | case4 => cases h
  | case5 e tail _ c hc ih =>
    obtain ⟨⟨b, r⟩, hb, heq⟩ := Option.map_eq_some_iff.mp h
    cases heq
    have := ih hb
    simp only [List.length_cons]
    omega
  | case6 => cases h
  | case7 => cases h
  | case8 c tail _ _ _ _ ih =>
    obtain ⟨⟨b, r⟩, hb, heq⟩ := Option.map_eq_some_iff.mp h
    cases heq
    have := ih hb
    simp only [List.length_cons]
    omega

/-- The text of a string behind its opening quote; `none` inside stands for a
text with an unpaired surrogate. -/
def readText (cs : List Char) : Option (Parsed Char (Option String) cs.length) :=
  match h : readCodes cs with
  | some (codes, rest) =>
    some ⟨(joinSurrogates codes).map String.ofList, rest, readCodes_shorter h⟩
  | none => none

end QueryFormula.Json
