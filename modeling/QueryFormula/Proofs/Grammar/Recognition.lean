import QueryFormula.Proofs.Grammar.Completeness

/-!
# Formulas are the phrases of the grammar

`parse` accepts a token list just when a phrase of the loosest level derives it
within the limit of nesting, and yields the tree of that phrase.  A list that is
derived, but needs more levels than there are, is refused for its depth.
-/

namespace QueryFormula

open Grammar

/-- **Soundness.**  What is parsed is derived by a phrase that fits. -/
theorem exists_phrase_of_parse {source : String} {tokens : List Token} {tree : Expr}
    (h : parse source tokens = .ok tree) :
    ∃ phrase : Phrase .disjunction,
      phrase.tokens = tokens ∧ phrase.tree = tree ∧ phrase.need ≤ depthLimit := by
  unfold parse Parser.formula Parser.expression Parser.ofSource at h
  cases hread : Level.disjunction.read (byteLength source.toList) tokens 0 with
  | error failure => simp [hread] at h
  | ok parsed =>
      obtain ⟨phrase, hphrase⟩ := Level.read_sound _ _ _ _ (Nat.zero_le _) parsed hread
      simp only [hread] at h
      cases hrest : parsed.rest with
      | cons token rest => simp [hrest] at h
      | nil =>
          simp only [hrest, Except.ok.injEq] at h
          refine ⟨phrase, ?_, hphrase.tree_eq.trans h, ?_⟩
          · simpa [hrest] using hphrase.tokens_eq.symm
          · simpa using hphrase.fits

/-- **Completeness.**  What is derived is read to its end. -/
theorem Grammar.Phrase.yields_disjunction (phrase : Phrase .disjunction) (ending : Nat) :
    Yields (Level.disjunction.read ending phrase.tokens 0) 0 phrase.need phrase.tree [] :=
  phrase.isRead ending (List.append_nil _).symm (stopsAt_nil _) (Nat.zero_le _)

theorem parse_of_phrase (source : String) (phrase : Phrase .disjunction)
    (h : phrase.need ≤ depthLimit) : parse source phrase.tokens = .ok phrase.tree := by
  obtain ⟨_, hread⟩ :=
    (phrase.yields_disjunction (byteLength source.toList)).found (by simpa using h)
  simp [parse, Parser.formula, Parser.expression, Parser.ofSource, hread]

theorem parse_too_deep (source : String) (phrase : Phrase .disjunction)
    (h : depthLimit < phrase.need) :
    ∃ error, parse source phrase.tokens = .error error ∧ error.fault = .tooDeep := by
  obtain ⟨failure, hread, hfault⟩ :=
    (phrase.yields_disjunction (byteLength source.toList)).tooDeep (by simpa using h)
  exact ⟨failure.error, by
    simp [parse, Parser.formula, Parser.expression, Parser.ofSource, hread], hfault⟩

/-- What derives a list that is parsed stands for the tree. -/
theorem Grammar.Phrase.tree_eq_of_parse {source : String} {tree : Expr}
    (phrase : Phrase .disjunction) (h : parse source phrase.tokens = .ok tree) :
    phrase.tree = tree := by
  by_cases hneed : phrase.need ≤ depthLimit
  · exact Except.ok.inj ((parse_of_phrase source phrase hneed).symm.trans h)
  · obtain ⟨error, herror, -⟩ := parse_too_deep source phrase (Nat.lt_of_not_le hneed)
    cases herror.symm.trans h

/-- **The parser accepts exactly its grammar.**  A token list is parsed to a tree
just when a phrase within 64 levels of nesting derives the list and stands for
the tree; a phrase that needs more levels makes the list too deep. -/
theorem parse_iff_phrase (source : String) (tokens : List Token) :
    (∀ tree, parse source tokens = .ok tree ↔
      ∃ phrase : Phrase .disjunction,
        phrase.tokens = tokens ∧ phrase.tree = tree ∧ phrase.need ≤ 64) ∧
    (∀ phrase : Phrase .disjunction, phrase.tokens = tokens → 64 < phrase.need →
      ∃ error, parse source tokens = .error error ∧
        error.fault.message = "Expression is too deeply nested") := by
  refine ⟨fun tree => ⟨exists_phrase_of_parse, ?_⟩, ?_⟩
  · rintro ⟨phrase, rfl, rfl, h⟩
    exact parse_of_phrase source phrase h
  · rintro phrase rfl h
    obtain ⟨error, herror, hfault⟩ := parse_too_deep source phrase h
    exact ⟨error, herror, by rw [hfault]; rfl⟩

theorem Grammar.signed_ne_primary : Level.signed ≠ .primary := by
  decide

theorem Grammar.disjunction_ne_primary : Level.disjunction ≠ .primary := by
  decide

/-- A truth value behind so many signs. -/
def Grammar.signedTimes : Nat → Phrase .signed
  | 0 => .chain (by decide)
      (.literal ⟨.literal (.boolean true), "true", ⟨0, 4⟩⟩ (.boolean true) rfl) .nil
  | n + 1 => .signed ⟨⟨.operator .plus, "+", ⟨0, 1⟩⟩, .plus, rfl, by decide⟩ (signedTimes n)

/-- A signed expression as a formula. -/
def Grammar.Phrase.ofSigned (phrase : Phrase .signed) : Phrase .disjunction :=
  .chain (by decide) (.chain (by decide) (.chain (by decide) (.chain (by decide)
    (.chain (by decide) (.chain (by decide) phrase .nil) .nil) .nil) .nil) .nil) .nil

/-- Sixty-four signs are within the limit and one more is not. -/
theorem parse_signs :
    parse "" (signedTimes 64).ofSigned.tokens = .ok (signedTimes 64).ofSigned.tree ∧
    64 < (signedTimes 65).ofSigned.need ∧
    ∃ error, parse "" (signedTimes 65).ofSigned.tokens = .error error ∧
      error.fault.message = "Expression is too deeply nested" :=
  ⟨((parse_iff_phrase "" _).1 _).mpr ⟨_, rfl, rfl, by decide⟩, by decide,
    (parse_iff_phrase "" _).2 _ rfl (by decide)⟩

end QueryFormula
