import QueryFormula.Proofs.Decimal.Integer
import QueryFormula.Proofs.Resolution.Success
import QueryFormula.Proofs.Token.BracketedName
import QueryFormula.Proofs.Token.Concatenation

/-!
# Integers go through exactly

An integer of 64 bits, behind as many minus signs as the nesting limit lets through, compiles
to the clause `value` around the integer itself (`compile_integer`), however it is written.
The signs and the number are tokens one by one, each sign turns the decimal round, and what
the literal is wrapped in checks nothing but the number of its operands.

The smallest integer of 64 bits is only reached in this way: without its sign it is too large.
-/

namespace QueryFormula

open Grammar

/-! ### Reading -/

/-- Minus signs and the characters of a number. -/
def negatedNumeral (signs : Nat) (numeral : Numeral) : String :=
  String.ofList (List.replicate signs '-' ++ numeral.chars)

/-- **Scanning.**  Every sign is a token, and the number is the last one. -/
theorem tokenize_integer (signs leading m places : Nat) (hm : m < coefficientBound) :
    ∃ run number x, run.length = signs ∧ (∀ token ∈ run, token.operator? = some .minus) ∧
      number.kind = .literal (.number x) ∧ x.IsInteger m ∧
      tokenize (negatedNumeral signs (.integral leading m places)) = ⟨run ++ [number], none⟩ := by
  obtain ⟨c, cs, x, hchars, hc, hscan, hinteger⟩ := scan_integral leading m places hm
  obtain ⟨run, hlength, hrun, htokens⟩ :=
    Cursor.tokens_signs '-' (by decide) (fun _ => rfl) signs 0 (c :: cs)
  have hblank : isBlank c = false := by
    refine Bool.eq_false_iff.mpr fun hblank => ?_
    have hdigit := of_isBlank (p := fun d => !d.isDigit) (by decide +kernel) hblank
    simp [hc] at hdigit
  have hnothing : AreBlank [] := List.forall_mem_nil _
  have hnext := Cursor.next_token (0 + signs * '-'.utf8Size) hnothing hblank hscan
  rw [List.nil_append] at hnext
  refine ⟨run,
    lexedToken (.literal (.number x)) (c :: cs) (0 + signs * '-'.utf8Size + byteLength []), x,
    hlength, hrun, rfl, hinteger, ?_⟩
  rw [tokenize, Cursor.ofText, negatedNumeral, String.toList_ofList, hchars, htokens,
    Cursor.tokens_of_next_token hnext, Cursor.tokens_end]
  rfl

/-- **Reading.**  Each sign turns the integer round. -/
theorem exists_signed {run : List Token} {number : Token} {x : Decimal} {n : Int}
    (hrun : ∀ token ∈ run, token.operator? = some .minus)
    (hkind : number.kind = .literal (.number x)) (hx : x.IsInteger n) :
    ∃ (phrase : Phrase .signed) (y : Decimal) (o : Option Span),
      phrase.tokens = run ++ [number] ∧ phrase.need = run.length ∧
        phrase.tree = .literal (.number y) o ∧ y.IsInteger ((-1) ^ run.length * n) := by
  induction run with
  | nil =>
      refine ⟨.chain signed_ne_primary (.literal number _ hkind) .nil, x, _, rfl, rfl, rfl, ?_⟩
      simpa using hx
  | cons token run ih =>
      obtain ⟨htoken, hothers⟩ := List.forall_mem_cons.mp hrun
      obtain ⟨phrase, y, o, htokens, hneed, htree, hy⟩ := ih hothers
      let sign : OperatorToken [.plus, .minus] := ⟨token, .minus, htoken, by decide⟩
      have hround : (-1) ^ (token :: run).length * n = -((-1) ^ run.length * n) := by
        rw [List.length_cons, Int.pow_succ, Int.mul_neg_one, Int.neg_mul]
      refine ⟨.signed sign phrase, y.negate, signOrigin token.span (.literal (.number y) o),
        ?_, ?_, ?_, ?_⟩
      · rw [Phrase.tokens, htokens]
        rfl
      · rw [Phrase.need, hneed, List.length_cons, Nat.add_comm]
      · rw [Phrase.tree, htree]
        rfl
      · rw [hround]
        exact hy.negate

section Signed

variable (phrase : Phrase .signed)

@[simp] theorem tokens_ofSigned : phrase.ofSigned.tokens = phrase.tokens := by
  simp only [Phrase.ofSigned, Phrase.tokens, Links.tokens, List.append_nil]
  rfl

@[simp] theorem need_ofSigned : phrase.ofSigned.need = phrase.need := by
  simp only [Phrase.ofSigned, Phrase.need, Links.need, Nat.max_zero]
  rfl

@[simp] theorem tree_ofSigned : phrase.ofSigned.tree = phrase.tree := rfl

end Signed

theorem readTree_integer (signs leading m places : Nat) (hm : m < coefficientBound)
    (hsigns : signs ≤ depthLimit) :
    ∃ y o, readTree (negatedNumeral signs (.integral leading m places)) =
      .ok (.literal (.number y) o) ∧ y.IsInteger ((-1) ^ signs * m) := by
  obtain ⟨run, number, x, rfl, hrun, hkind, hx, htokenize⟩ :=
    tokenize_integer signs leading m places hm
  obtain ⟨phrase, y, o, htokens, hneed, htree, hy⟩ := exists_signed hrun hkind hx
  have hfits : phrase.ofSigned.need ≤ depthLimit := by
    rw [need_ofSigned, hneed]
    exact hsigns
  have hparse := parse_of_phrase (negatedNumeral run.length (.integral leading m places))
    phrase.ofSigned hfits
  rw [tokens_ofSigned, tree_ofSigned, htokens, htree] at hparse
  refine ⟨y, o, ?_, hy⟩
  rw [readTree_eq_ok_iff, htokenize]
  exact ⟨rfl, hparse⟩

/-! ### The clause -/

/-- **A number** compiles to the clause `value` around it, where a column is defined. -/
theorem compile_number {σ : Type} [Lookup σ] {context : Context σ}
    (hmode : context.mode = .expression) {source : String} {y : Decimal} {o : Option Span}
    (h : readTree source = .ok (.literal (.number y) o)) :
    compile context source = .ok (.clause "value" [.literal (.number y) o] o) := by
  have hnormal : normalForm (.literal (.number y) o) =
      .clause "value" [.literal (.number y) o] o := by
    cases o <;> rfl
  have hresolve : context.resolve (.literal (.number y) o) =
      .ok (.clause "value" [.literal (.number y) o] o) := by
    rw [Context.resolve, hnormal, hmode]
    rfl
  refine compile_eq_ok_iff.mpr ⟨_, _, h, hresolve, ?_⟩
  cases o <;> rfl

/-- An integer is written as usual. -/
theorem ofInt_eq_number (n : Int) : Json.ofInt n = .number (toString n) := by
  cases n with
  | ofNat m => rfl
  | negSucc m =>
      have hsign : toString (Int.negSucc m) = "-" ++ String.ofList (Nat.toDigits 10 (m + 1)) := rfl
      rw [Json.ofInt, if_pos (Int.negSucc_lt_zero m), String.ofList_append, hsign]
      rfl

/-- The text of the clause holds the integer and neither a point nor an exponent. -/
theorem json_value {y : Decimal} {n : Int} (h : y.int64? = some n) (o place : Option Span) :
    (Expr.clause "value" [.literal (.number y) o] place).json =
      "[\"value\"," ++ toString n ++ "]" := by
  have hnumber : (Expr.literal (.number y) o).toJson = .number (toString n) := by
    rw [Expr.toJson, Literal.toJson, Json.ofDecimal, h]
    exact ofInt_eq_number n
  have hitems : (Expr.clause "value" [.literal (.number y) o] place).toJson =
      .array [.string "value", .number (toString n)] := by
    rw [Expr.toJson, Expr.toJsonAll, Expr.toJsonAll, hnumber]
  refine String.toList_inj.mp ?_
  rw [Expr.json, hitems, Json.compact, String.toList_ofList, String.toList_append,
    String.toList_append]
  simp only [Json.write, Json.writeItems]
  rfl

/-- Without its sign an integer of 64 bits is one that a decimal holds. -/
theorem natAbs_lt_coefficientBound {n : Int} (hmin : Int64.minValue.toInt ≤ n)
    (hmax : n ≤ Int64.maxValue.toInt) : n.natAbs < coefficientBound := by
  have hleast : Int64.minValue.toInt = -9223372036854775808 := by decide
  have hmost : Int64.maxValue.toInt = 9223372036854775807 := by decide
  have hbound : coefficientBound = 79228162514264337593543950336 := by decide
  omega

/-- **Integers go through exactly.**  Any number of zeros in front, zeros behind a point and up
to sixty-four minus signs lead to the integer that they write, if it is one of 64 bits. -/
theorem compile_integer {σ : Type} [Lookup σ] (signs leading m places : Nat) (hsigns : signs ≤ 64)
    (hmin : Int64.minValue.toInt ≤ (-1) ^ signs * (m : Int))
    (hmax : (-1) ^ signs * (m : Int) ≤ Int64.maxValue.toInt) (stage : Nat)
    (ownName : Option String) (schema : Option σ) :
    (compile ⟨.expression, stage, ownName, schema⟩
      (negatedNumeral signs (.integral leading m places))).map Expr.json =
        .ok ("[\"value\"," ++ toString ((-1) ^ signs * (m : Int)) ++ "]") := by
  have hm : m < coefficientBound := by
    have habs : ((-1) ^ signs * (m : Int)).natAbs = m := by
      rw [Int.natAbs_mul, Int.natAbs_pow, Int.natAbs_neg, Int.natAbs_one, Nat.one_pow, Nat.one_mul,
        Int.natAbs_natCast]
    rw [← habs]
    exact natAbs_lt_coefficientBound hmin hmax
  obtain ⟨y, o, hread, hy⟩ := readTree_integer signs leading m places hm hsigns
  have hmode : (⟨.expression, stage, ownName, schema⟩ : Context σ).mode = .expression := rfl
  rw [compile_number hmode hread]
  exact congrArg Except.ok (json_value (hy.int64? hmin hmax) o o)

/-- The smallest integer: its digits alone are too large, and a decimal has no place for all of
the zeros behind the point. -/
theorem compile_integer_smallest :
    Int64.maxValue.toInt < 9223372036854775808 ∧
      (compile (⟨.expression, 0, none, none⟩ : Context)
        "-009223372036854775808.00000000000000000000000000000000").map Expr.json =
          .ok "[\"value\",-9223372036854775808]" := by
  have hwritten : negatedNumeral 1 (.integral 2 9223372036854775808 32) =
      "-009223372036854775808.00000000000000000000000000000000" := by
    decide +kernel
  refine ⟨by decide, ?_⟩
  rw [← hwritten]
  exact compile_integer 1 2 9223372036854775808 32 (by decide) (by decide) (by decide) 0 none none

end QueryFormula
