import QueryFormula.Proofs.Compile
import QueryFormula.Proofs.Token.Scans

/-!
# Any name can be written

A name in brackets, with a backslash before each bracket and each backslash in it
(`Bracketed.quote`), is one token that writes this name, whatever characters the name
holds.  As a formula it is a reference to that name (`readTree_quote`).
-/

namespace QueryFormula

namespace Bracketed

/-- A character as it is written between brackets. -/
def escapeChar (c : Char) : List Char :=
  if c = '[' ∨ c = ']' ∨ c = '\\' then ['\\', c] else [c]

/-- Characters as they are written between brackets. -/
def escape (cs : List Char) : List Char :=
  cs.flatMap escapeChar

/-- A name in brackets. -/
def quote (name : String) : String :=
  String.ofList ('[' :: (escape name.toList ++ [']']))

theorem unescape_escapeChar (c : Char) (rest : List Char) :
    unescape (escapeChar c ++ rest) = c :: unescape rest := by
  unfold escapeChar
  split
  · rw [List.cons_append, List.cons_append, List.nil_append, unescape]
  · rename_i hplain
    simp only [not_or] at hplain
    rw [List.singleton_append, unescape.eq_4]
    · exact fun hescape _ => absurd hescape hplain.2.2
    · exact fun _ _ hescape => absurd hescape hplain.2.2

/-- Escaped characters can stand between brackets. -/
theorem isBody_escape (cs : List Char) : IsBody (escape cs) := by
  induction cs with
  | nil => exact .nil
  | cons c cs ih =>
      rw [escape, List.flatMap_cons, escapeChar]
      split
      · exact .escaped ih
      · rename_i hplain
        simp only [not_or] at hplain
        exact .plain hplain.2.1 hplain.1 hplain.2.2 ih

/-- Escapes are undone. -/
theorem unescape_escape (cs : List Char) : unescape (escape cs) = cs := by
  induction cs with
  | nil => rfl
  | cons c cs ih =>
      rw [escape, List.flatMap_cons, unescape_escapeChar]
      exact congrArg (List.cons c) ih

/-- A name in brackets writes the name. -/
theorem name_quote (n : String) : name (quote n) = n := by
  have hstrip : strip ('[' :: (escape n.toList ++ [']'])) = escape n.toList := by
    simp [strip]
  rw [name, quote, String.toList_ofList, hstrip, unescape_escape, String.ofList_toList]

end Bracketed

open Bracketed

/-! ### One token -/

/-- The token of a name in brackets, at the beginning of a source. -/
def quotedToken (name : String) : Token :=
  ⟨.identifier, quote name, ⟨0, byteLength (quote name).toList⟩⟩

/-- **A name in brackets** is one token. -/
theorem tokenize_quote (n : String) : tokenize (quote n) = ⟨[quotedToken n], none⟩ := by
  have hscan : scan '[' (escape n.toList ++ [']']) =
      .token .identifier ('[' :: (escape n.toList ++ [']'])) [] := by
    change scanBracketed _ = _
    rw [scanBracketed, extent_eq_closed_iff.mpr ⟨isBody_escape _, rfl⟩]
  have hbracket : isBlank '[' = false := by decide
  rw [quotedToken, quote, tokenize_of_scan hbracket hscan, String.toList_ofList]
  simp [lexedToken]

/-! ### One reference -/

/-- A token that is a name, as a formula. -/
def Grammar.Phrase.ofName (token : Token) (is : token.kind = .identifier) :
    Phrase .disjunction :=
  Phrase.ofSigned (.chain signed_ne_primary (.name token is) .nil)

/-- **A name in brackets, as a formula,** refers to a column of this name. -/
theorem readTree_quote (n : String) :
    readTree (quote n) =
      .ok (.reference .dimension n (some ⟨0, byteLength (quote n).toList⟩)) := by
  have hbracketed : (quotedToken n).isBracketed = true := by
    simp [Token.isBracketed, quotedToken, quote]
  have htree : Grammar.name (quotedToken n) =
      .reference .dimension n (some ⟨0, byteLength (quote n).toList⟩) := by
    rw [Grammar.name, hbracketed]
    simp only [quotedToken, name_quote, if_true]
  have hparse := parse_of_phrase (quote n) (Grammar.Phrase.ofName (quotedToken n) rfl)
    (Nat.zero_le _)
  rw [readTree_eq_ok_iff, tokenize_quote, ← htree]
  exact ⟨rfl, hparse⟩

end QueryFormula
