import QueryFormula.Text.Hex
import QueryFormula.Token.Basic

/-!
# Quoted strings

A string runs to the next quote of its own kind that no backslash precedes.
Where it ends and what it means are two questions: `Quoted.split` skips the
character behind each backslash, and `Quoted.decode` reads the escapes of the
text between the quotes.
-/

namespace QueryFormula.Quoted

/-- The text up to the closing quote, and what follows the quote. -/
def split (quote : Char) : List Char → Option (List Char × List Char)
  | [] => none
  | c :: rest =>
    if c = quote then some ([], rest)
    else if c = '\\' then
      match rest with
      | [] => none
      | escaped :: rest => (split quote rest).map fun (body, rest) => (c :: escaped :: body, rest)
    else (split quote rest).map fun (body, rest) => (c :: body, rest)

/-- The character that four hexadecimal digits name. -/
def hexScalar? (a b c d : Char) : Option Char :=
  (hexNumber? a b c d).bind scalar?

/-- What a character means behind a backslash. -/
def unescape : Char → Char
  | 'n' => '\n'
  | 't' => '\t'
  | 'r' => '\r'
  | 'b' => '\x08'
  | 'f' => '\x0c'
  | 'v' => '\x0b'
  | '0' => '\x00'
  | c => c

/-- The meaning of the text between the quotes.  A `\u` that four digits do not
follow, or that names no character, stands for the letter. -/
def decode : List Char → List Char
  | '\\' :: 'u' :: a :: b :: c :: d :: rest =>
    match hexScalar? a b c d with
    | some named => named :: decode rest
    | none => 'u' :: decode (a :: b :: c :: d :: rest)
  | '\\' :: c :: rest => unescape c :: decode rest
  | c :: rest => c :: decode rest
  | [] => []

/-! ### What stands between the quotes -/

variable {quote : Char} {cs body rest : List Char}

/-- What can stand between two quotes: no quote of their kind, unless a backslash takes it along. -/
inductive IsBody (quote : Char) : List Char → Prop
  | nil : IsBody quote []
  | plain {c : Char} {cs : List Char} (hquote : c ≠ quote) (hbackslash : c ≠ '\\')
      (others : IsBody quote cs) : IsBody quote (c :: cs)
  | escaped {c : Char} {cs : List Char} (hquote : '\\' ≠ quote) (others : IsBody quote cs) :
      IsBody quote ('\\' :: c :: cs)

theorem IsBody.split_eq (h : IsBody quote body) (rest : List Char) :
    split quote (body ++ quote :: rest) = some (body, rest) := by
  induction h with
  | nil =>
      rw [List.nil_append, split.eq_def]
      simp only [if_true]
  | plain hquote hbackslash _ ih =>
      rw [List.cons_append, split.eq_def]
      simp only [if_neg hquote, if_neg hbackslash, ih, Option.map_some]
  | escaped hquote _ ih =>
      rw [List.cons_append, List.cons_append, split.eq_def]
      simp only [if_neg hquote, if_true, ih, Option.map_some]

theorem isBody_of_split (h : split quote cs = some (body, rest)) :
    IsBody quote body ∧ body ++ quote :: rest = cs := by
  fun_induction split quote cs generalizing body rest with
  | case1 => cases h
  | case2 =>
      cases h
      exact ⟨.nil, rfl⟩
  | case3 => cases h
  | case4 escaped tail hquote ih =>
      obtain ⟨⟨inner, after⟩, hinner, heq⟩ := Option.map_eq_some_iff.mp h
      cases heq
      obtain ⟨hbody, rfl⟩ := ih hinner
      exact ⟨.escaped hquote hbody, rfl⟩
  | case5 c tail hquote hplain ih =>
      obtain ⟨⟨inner, after⟩, hinner, heq⟩ := Option.map_eq_some_iff.mp h
      cases heq
      obtain ⟨hbody, rfl⟩ := ih hinner
      exact ⟨.plain hquote hplain hbody, rfl⟩

/-- **Splitting** finds a body and the quote behind it. -/
theorem split_eq_some_iff :
    split quote cs = some (body, rest) ↔ IsBody quote body ∧ body ++ quote :: rest = cs := by
  constructor
  · exact isBody_of_split
  · rintro ⟨hbody, rfl⟩
    exact hbody.split_eq rest

/-- Splitting keeps every character. -/
theorem split_append (h : split quote cs = some (body, rest)) : body ++ quote :: rest = cs :=
  (split_eq_some_iff.mp h).2

/-- What follows the closing quote does not matter. -/
theorem split_closed (h : split quote cs = some (body, rest)) (rest' : List Char) :
    split quote (body ++ quote :: rest') = some (body, rest') :=
  (split_eq_some_iff.mp h).1.split_eq rest'

end QueryFormula.Quoted
