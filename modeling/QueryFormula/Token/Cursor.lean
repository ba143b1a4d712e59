import QueryFormula.Token.Scan

/-!
# Scanning a source

A `Cursor` is a place in a source.  `Cursor.next` passes over blanks and takes
one token, or reports a fault and still moves past what it passed over.
`tokenize` takes tokens up to the end or to the first fault.
-/

namespace QueryFormula

/-- A place in a source: the bytes before it, and the characters from it on. -/
structure Cursor where
  offset : Nat
  rest : List Char
deriving DecidableEq, Repr

namespace Cursor

/-- The beginning of a source. -/
def ofText (source : String) : Cursor :=
  ⟨0, source.toList⟩

/-- The next token, `none` at the end of the source, and the place after it. -/
def next (cursor : Cursor) : Except LexError (Option Token) × Cursor :=
  let (blank, rest) := splitBlank cursor.rest
  let start := cursor.offset + byteLength blank
  match rest with
  | [] => (.ok none, ⟨start, []⟩)
  | c :: rest =>
    match scan c rest with
    | .token kind text rest =>
      let stop := start + byteLength text
      (.ok (some ⟨kind, String.ofList text, ⟨start, stop⟩⟩), ⟨stop, rest⟩)
    | .refused fault covered passed rest =>
      (.error ⟨fault, ⟨start, start + byteLength covered⟩⟩, ⟨start + byteLength passed, rest⟩)

/-- A token shortens what is left of the source. -/
theorem rest_length_lt_of_next {cursor cursor' : Cursor} {token : Token}
    (h : cursor.next = (.ok (some token), cursor')) :
    cursor'.rest.length < cursor.rest.length := by
  unfold next at h
  have hsplit := congrArg List.length (splitBlank_append cursor.rest)
  generalize splitBlank cursor.rest = parts at h hsplit
  obtain ⟨blank, rest⟩ := parts
  dsimp only at h hsplit
  split at h
  · cases h
  · rename_i c tail
    split at h
    · rename_i hscan
      obtain ⟨happend, hne⟩ := scan_token_append hscan
      have hlen := congrArg List.length happend
      have hpos := List.length_pos_iff.mpr hne
      cases h
      simp only [List.length_append, List.length_cons] at hsplit hlen ⊢
      omega
    · cases h

end Cursor

/-- The tokens of a source up to its end or its first fault. -/
structure Scanned where
  tokens : List Token
  error : Option LexError

namespace Scanned

/-- One token more at the front. -/
def cons (token : Token) (others : Scanned) : Scanned :=
  ⟨token :: others.tokens, others.error⟩

end Scanned

/-- The tokens from a place on. -/
def Cursor.tokens (cursor : Cursor) : Scanned :=
  match _h : cursor.next with
  | (.ok (some token), cursor) => cursor.tokens.cons token
  | (.ok none, _) => ⟨[], none⟩
  | (.error error, _) => ⟨[], some error⟩
termination_by cursor.rest.length
decreasing_by exact Cursor.rest_length_lt_of_next _h

/-- The tokens of a source. -/
def tokenize (source : String) : Scanned :=
  (Cursor.ofText source).tokens

end QueryFormula
