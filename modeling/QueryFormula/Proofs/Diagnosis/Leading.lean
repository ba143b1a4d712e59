import QueryFormula.Command.Request
import QueryFormula.Proofs.Diagnosis.Features
import QueryFormula.Proofs.Diagnosis.Unmatched
import QueryFormula.Proofs.Places.Origins
import QueryFormula.Proofs.Places.SameTexts

/-!
# Blanks in front of a formula

Blanks in front of a source move its tokens and do nothing else.  So every stage does with
the moved tokens what it did before, and a diagnosis is the same with its place moved by the
bytes of the blanks (`Draft.diagnose_behind`).

A request cuts the blanks off before the diagnosis, and does not count them again: it answers
the same whatever blanks are put in front of the expression, and the places in the answer are
those in the expression without them (`Request.check_behind`).
-/

namespace QueryFormula

variable {blank : List Char}

/-! ### The same, further on -/

/-- The error, this many bytes further on. -/
def CompileError.shift (bytes : Nat) : CompileError → CompileError
  | lex e => lex (e.shift bytes)
  | parse e => parse { e with span := e.span.shift bytes }
  | resolution e => resolution (e.relocate (.shift bytes))

/-- The problem, this many bytes further on. -/
def Diagnostic.shift (bytes : Nat) (d : Diagnostic) : Diagnostic :=
  { d with span := d.span.map (Span.shift bytes) }

namespace CompileError

@[simp] theorem message_shift (bytes : Nat) (e : CompileError) :
    (e.shift bytes).message = e.message := by
  cases e with
  | lex e => rfl
  | parse e => rfl
  | resolution e => exact e.message_setSpan _

@[simp] theorem span_shift (bytes : Nat) (e : CompileError) :
    (e.shift bytes).span = e.span.map (Span.shift bytes) := by
  cases e with
  | lex e => rfl
  | parse e => rfl
  | resolution e => exact e.span_setSpan _

end CompileError

/-! ### Each stage -/

/-- **Scanning.**  Blanks in front move what is scanned. -/
theorem tokenize_behind (hblank : AreBlank blank) (source : String) :
    tokenize (String.ofList blank ++ source) = (tokenize source).shift (byteLength blank) := by
  have htext : (String.ofList blank ++ source).toList = blank ++ source.toList := by
    rw [String.toList_append, String.toList_ofList]
  have hskip := Cursor.tokens_congr (Cursor.next_append 0 hblank source.toList)
  rw [tokenize, Cursor.ofText, htext, hskip]
  exact Cursor.tokens_shift (byteLength blank) 0 source.toList

theorem byteLength_behind (source : String) :
    byteLength (String.ofList blank ++ source).toList =
      byteLength source.toList + byteLength blank := by
  rw [String.toList_append, String.toList_ofList, byteLength_append, Nat.add_comm]

/-- An error at the end of a source is one at the end of the longer source. -/
theorem ParseError.Placed.relocate_shift {tokens : List Token} {ending : Nat} {error : ParseError}
    (h : error.Placed tokens ending) (bytes : Nat) :
    error.relocate (.shift bytes) (ending + bytes) =
      { error with span := error.span.shift bytes } := by
  unfold ParseError.Placed at h
  unfold ParseError.relocate
  split at h
  · rename_i hend
    rw [if_pos hend, h]
    rfl
  · rename_i hend
    rw [if_neg hend]
    rfl

/-- **Reading.** -/
theorem readTree_behind (hblank : AreBlank blank) (source : String) :
    readTree (String.ofList blank ++ source) =
      ((readTree source).map (Expr.relocate (.shift (byteLength blank)))).mapError
        (CompileError.shift (byteLength blank)) := by
  have htokens := tokenize_behind hblank source
  cases herror : (tokenize source).error with
  | some error =>
      simp only [readTree, htokens, Scanned.shift, herror, Option.map_some]
      rfl
  | none =>
      have hmoved := parse_relocate (.shift (byteLength blank)) source
        (String.ofList blank ++ source) (tokenize source).tokens
      rw [byteLength_behind, Token.relocate_shift] at hmoved
      simp only [readTree, htokens, Scanned.shift, herror, Option.map_none]
      obtain ⟨tree, hread, hbehind⟩ | ⟨error, hread, hplaced, hbehind⟩ := hmoved
      · rw [hread, hbehind]
        rfl
      · rw [hread, hbehind, hplaced.relocate_shift]
        rfl

/-- **Compilation.** -/
theorem compile_behind {σ : Type} [Lookup σ] (hblank : AreBlank blank) (context : Context σ)
    (source : String) :
    compile context (String.ofList blank ++ source) =
      ((compile context source).map (Expr.relocate (.shift (byteLength blank)))).mapError
        (CompileError.shift (byteLength blank)) := by
  have hread := readTree_behind hblank source
  cases htree : readTree source with
  | error error =>
      rw [htree] at hread
      simp only [compile, htree, hread]
      rfl
  | ok tree =>
      rw [htree] at hread
      rw [compile_of_readTree hread, compile_of_readTree htree, context.resolve_relocate]
      cases context.resolve tree with
      | error error => rfl
      | ok bound => exact congrArg Except.ok (compareConditions_relocate _ bound)

/-- **The call check and the balance.** -/
theorem uncalledFunction?_shift (bytes : Nat) (tokens : List Token) :
    uncalledFunction? (tokens.map (Token.shift bytes)) =
      (uncalledFunction? tokens).map (Token.shift bytes) := by
  fun_induction uncalledFunction? tokens with
  | case1 token next rest huncalled =>
      rw [List.map_cons, List.map_cons, uncalledFunction?]
      exact if_pos huncalled
  | case2 token next rest hcalled ih =>
      rw [List.map_cons, List.map_cons, uncalledFunction?, ← ih]
      exact if_neg hcalled
  | case3 tokens hshort =>
      cases tokens with
      | nil => rfl
      | cons token tokens =>
          cases tokens with
          | nil => rfl
          | cons next rest => exact (hshort token next rest rfl).elim

theorem tokenProblem?_shift (bytes : Nat) (scanned : Scanned) :
    tokenProblem? (scanned.shift bytes) = (tokenProblem? scanned).map (Diagnostic.shift bytes) := by
  unfold tokenProblem? Scanned.shift
  cases scanned.error with
  | some error => rfl
  | none =>
      simp only [Option.map_none, uncalledFunction?_shift, balance_shift]
      cases uncalledFunction? scanned.tokens with
      | some token => rfl
      | none =>
          simp only [Option.map_none]
          split <;> rfl

theorem operators_relocate (r : Relocation) (e : Expr) :
    (e.relocate r).operators = e.operators := by
  induction e with
  | literal v o => rw [Expr.relocate_literal, operators_leaf rfl rfl, operators_leaf rfl rfl]
  | reference k n o =>
      rw [Expr.relocate_reference, operators_leaf rfl rfl, operators_leaf rfl rfl]
  | bound t o => rw [Expr.relocate_bound, operators_leaf rfl rfl, operators_leaf rfl rfl]
  | clause op xs o ih =>
      rw [Expr.relocate_clause, operators_clause, operators_clause, List.flatMap_map]
      exact congrArg (op :: ·) (List.flatMap_congr ih)
  | options es o ih =>
      rw [Expr.relocate_options, operators_options, operators_options, List.flatMap_map]
      exact List.flatMap_congr ih
  | pairs ps o ih =>
      rw [Expr.relocate_pairs, operators_pairs, operators_pairs, List.flatMap_map]
      refine List.flatMap_congr fun p hp => ?_
      rw [(ih p hp).1, (ih p hp).2]

/-- **The validator** looks at no place. -/
theorem ofFeatures_relocate (features : Option (List String)) (r : Relocation)
    (inquiry : Inquiry) :
    Validator.ofFeatures features { inquiry with clause := inquiry.clause.relocate r } =
      Validator.ofFeatures features inquiry := by
  have hfirst : firstOffence features inquiry.mode (inquiry.clause.relocate r) =
      firstOffence features inquiry.mode inquiry.clause := by
    rw [findsFirst, findsFirst, operators_relocate]
  simp only [Validator.ofFeatures, Expr.isOptions_relocate, Expr.isPairs_relocate, hfirst]
  rfl

namespace Draft

section Schemas

variable {σ : Type}

/-- The formula with blanks in front of it. -/
def behind (blank : List Char) (draft : Draft σ) : Draft σ :=
  { draft with source := String.ofList blank ++ draft.source }

variable [Lookup σ]

theorem inquiry_behind (hblank : AreBlank blank) (draft : Draft σ) :
    (draft.behind blank).inquiry =
      (draft.inquiry.map fun inquiry =>
        { inquiry with clause := inquiry.clause.relocate (.shift (byteLength blank)) }).mapError
        (Diagnostic.shift (byteLength blank)) := by
  simp only [inquiry, behind, tokenize_behind hblank, tokenProblem?_shift,
    compile_behind hblank]
  cases tokenProblem? (tokenize draft.source) with
  | some problem => rfl
  | none =>
      cases compile draft.context draft.source with
      | ok clause => rfl
      | error error =>
          simp only [Option.map_none, Except.map, Except.mapError, CompileError.message_shift,
            CompileError.span_shift]
          rfl

/-- The validator reports no place. -/
theorem problemOf?_shift (bytes : Nat) (verdict : Verdict) :
    (problemOf? verdict).map (Diagnostic.shift bytes) = problemOf? verdict := by
  cases verdict with
  | valid => rfl
  | failed reason => rfl
  | problem issue =>
      simp only [problemOf?, Option.map_some]
      split <;> rfl

/-- **A diagnosis moves with the blanks.** -/
theorem diagnose_behind (hblank : AreBlank blank) (draft : Draft σ)
    (nonempty : draft.source ≠ "") (features : Option (List String)) :
    (draft.behind blank).diagnose (some (.ofFeatures features)) =
      (draft.diagnose (some (.ofFeatures features))).map
        (Diagnostic.shift (byteLength blank)) := by
  have hbehind : (draft.behind blank).source ≠ "" := by
    intro hempty
    have hparts := congrArg String.toList hempty
    simp only [behind, String.toList_append, String.toList_empty, List.append_eq_nil_iff] at hparts
    exact nonempty (String.toList_inj.mp hparts.2)
  rw [diagnose, diagnose, if_neg hbehind, if_neg nonempty, inquiry_behind hblank]
  cases draft.inquiry with
  | error problem => rfl
  | ok inquiry =>
      simp only [Except.map, Except.mapError, Option.bind_some, ofFeatures_relocate,
        problemOf?_shift]

end Schemas

end Draft

/-! ### Requests -/

theorem trim_behind (hblank : AreBlank blank) (text : String) :
    trim (String.ofList blank ++ text) = trim text := by
  rw [trim, trim, String.toList_append, String.toList_ofList, trimChars,
    List.dropWhile_append_of_pos hblank]
  rfl

namespace Request

/-- **Places in an answer.**  Blanks in front of the expression make no difference to the
answer, although they move everything: with them the diagnosis of the source, were they not
cut off, would be the same with its place moved by their bytes. -/
theorem check_behind (hblank : AreBlank blank) (request : Request) :
    { request with expression := String.ofList blank ++ request.expression }.check =
        request.check ∧
      (request.source ≠ "" →
        (do
          let context ← request.context
          let draft : Draft := ⟨request.source, context, request.index⟩
          pure ((draft.behind blank).diagnose (some (.ofFeatures context.features)))) =
        request.check.map (Option.map (Diagnostic.shift (byteLength blank)))) := by
  refine ⟨?_, fun nonempty => ?_⟩
  · simp only [check, source, trim_behind hblank]
    rfl
  · simp only [check]
    cases request.context with
    | error error => rfl
    | ok context =>
        refine congrArg Except.ok ?_
        exact Draft.diagnose_behind hblank ⟨request.source, context, request.index⟩ nonempty _

/-- A formula with a sign that no formula has. -/
def strangeSign : Request where
  expression := "1 ? 2"
  mode := ""
  schemaText := none
  stage := 0
  name := none
  index := none

/-- Behind two blanks the sign is reported where it was, and a diagnosis that counts them finds
it two bytes further on. -/
theorem check_behind_strangeSign :
    AreBlank "  ".toList ∧ strangeSign.source ≠ "" ∧
      { strangeSign with expression := "  1 ? 2" }.check = strangeSign.check ∧
      (do
        let context ← strangeSign.context
        let draft : Draft := ⟨strangeSign.source, context, strangeSign.index⟩
        pure ((draft.behind "  ".toList).diagnose (some (.ofFeatures context.features)))) =
        .ok (some (.plain "Invalid character: ?" (some ⟨4, 5⟩))) := by
  have hblank : AreBlank "  ".toList := by
    rw [AreBlank, ← List.all_eq_true]
    decide +kernel
  have hsource : strangeSign.source ≠ "" := by decide +kernel
  have hcheck : strangeSign.check = .ok (some (.plain "Invalid character: ?" (some ⟨2, 3⟩))) := by
    obtain ⟨answer, hanswer, hsame⟩ := exists_ok_of_any
      (show strangeSign.check.toOption.any
        (· == some (.plain "Invalid character: ?" (some ⟨2, 3⟩))) = true by decide +kernel)
    rw [hanswer, beq_iff_eq.mp hsame]
  obtain ⟨hsame, hmoved⟩ := check_behind hblank strangeSign
  refine ⟨hblank, hsource, hsame, (hmoved hsource).trans ?_⟩
  rw [hcheck]
  rfl

/-- The place in an answer is none in the expression as it was given: with two blanks in front
of it, it is not two bytes further on. -/
theorem check_strangeSign :
    ∃ problem : Diagnostic, problem.span = some ⟨2, 3⟩ ∧
      strangeSign.check.toOption = some (some problem) ∧
      { strangeSign with expression := "  1 ? 2" }.check.toOption = some (some problem) ∧
      { strangeSign with expression := "  1 ? 2" }.check.toOption ≠
        some (some (problem.shift (byteLength "  ".toList))) := by
  refine ⟨.plain "Invalid character: ?" (some ⟨2, 3⟩), rfl, ?_⟩
  decide +kernel

end Request

end QueryFormula
