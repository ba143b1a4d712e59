import QueryFormula.Json.Text
import QueryFormula.Json.Writing

/-!
# Strings are read as they are written

Each character is read back from its escape (`readCodes_escape`), whatever stands behind it.
The code points of a text hold no surrogate, so they are joined to that text.
-/

namespace QueryFormula.Json

/-- A control character is read from its two digits. -/
theorem hexNumber?_hexDigit :
    ∀ n < 32, hexNumber? '0' '0' (hexDigit (n / 16)) (hexDigit (n % 16)) = some n := by
  decide

/-- A character that needs no escape stands for itself. -/
theorem readCodes_plain {c : Char} (hquote : c ≠ '"') (hbackslash : c ≠ '\\')
    (hprinted : ¬c.toNat < 32) (cs : List Char) :
    readCodes (c :: cs) = (readCodes cs).map fun (codes, rest) => (c.toNat :: codes, rest) := by
  have hescaped : (decide (c = '\\') || decide (c.toNat < 32)) = false := by
    rw [decide_eq_false hbackslash, decide_eq_false hprinted]
    rfl
  rw [readCodes.eq_5 c cs hquote (fun _ _ _ _ _ h _ => hbackslash h)
    (fun _ _ h _ => hbackslash h), hescaped]
  rfl

/-- A character is read back from its escape. -/
theorem readCodes_escape (c : Char) (cs : List Char) :
    readCodes (escape c ++ cs) =
      (readCodes cs).map fun (codes, rest) => (c.toNat :: codes, rest) := by
  by_cases hnamed : c ∈ ['"', '\\', '\x08', '\x0c', '\n', '\r', '\t']
  · simp only [List.mem_cons, List.not_mem_nil, or_false] at hnamed
    rcases hnamed with rfl | rfl | rfl | rfl | rfl | rfl | rfl <;> rfl
  · simp only [List.mem_cons, List.not_mem_nil, or_false, not_or] at hnamed
    obtain ⟨hquote, hbackslash, hbackspace, hfeed, hline, hreturn, htab⟩ := hnamed
    rw [escape, if_neg hquote, if_neg hbackslash, if_neg hbackspace, if_neg hfeed, if_neg hline,
      if_neg hreturn, if_neg htab]
    split
    · rename_i hcontrol
      simp only [List.cons_append, List.nil_append]
      rw [readCodes, hexNumber?_hexDigit c.toNat hcontrol]
    · rename_i hprinted
      exact readCodes_plain hquote hbackslash hprinted cs

/-- A text is read back up to its closing quote. -/
theorem readCodes_text (text rest : List Char) :
    readCodes (text.flatMap escape ++ '"' :: rest) = some (text.map Char.toNat, rest) := by
  induction text with
  | nil => rfl
  | cons c text ih =>
      rw [List.flatMap_cons, List.append_assoc, readCodes_escape, ih]
      rfl

theorem scalar?_toNat (c : Char) : scalar? c.toNat = some c := by
  have hvalid : c.toNat.isValidChar := c.valid
  have hc := Char.ofNat_toNat c
  rw [Char.ofNat, dif_pos hvalid] at hc
  rw [scalar?, dif_pos hvalid, hc]

theorem isHighSurrogate_toNat (c : Char) : isHighSurrogate c.toNat = false := by
  have hvalid : c.toNat.isValidChar := c.valid
  rw [isHighSurrogate, Bool.and_eq_false_iff, decide_eq_false_iff_not, decide_eq_false_iff_not]
  unfold Nat.isValidChar at hvalid
  omega

/-- The code points of a text are joined to the text. -/
theorem joinSurrogates_text (text : List Char) :
    joinSurrogates (text.map Char.toNat) = some text := by
  induction text with
  | nil => rfl
  | cons c text ih =>
      cases text with
      | nil => simp [joinSurrogates, scalar?_toNat]
      | cons d text =>
          rw [List.map_cons, List.map_cons, joinSurrogates, isHighSurrogate_toNat,
            ← List.map_cons, ih, scalar?_toNat]
          rfl

end QueryFormula.Json
