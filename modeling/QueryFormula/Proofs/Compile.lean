import QueryFormula.Compile
import QueryFormula.Proofs.Grammar.Recognition

/-!
# The stages of a compilation

A source compiles just when each stage succeeds on what the one before it made.
-/

namespace QueryFormula

theorem mapError_eq_ok_iff {ε ε' α : Type} {f : ε → ε'} {result : Except ε α} {a : α} :
    result.mapError f = .ok a ↔ result = .ok a := by
  cases result with
  | error e =>
      constructor
      · intro h
        cases h
      · intro h
        cases h
  | ok b =>
      constructor
      · intro h
        cases h
        rfl
      · intro h
        cases h
        rfl

theorem readTree_eq_ok_iff {source : String} {tree : Expr} :
    readTree source = .ok tree ↔
      (tokenize source).error = none ∧ parse source (tokenize source).tokens = .ok tree := by
  unfold readTree
  cases herror : (tokenize source).error with
  | none => simp [herror, mapError_eq_ok_iff]
  | some error => simp [herror]

section Contexts

variable {σ : Type} [Lookup σ]

/-- A source that is read compiles as its tree resolves. -/
theorem compile_of_readTree {context : Context σ} {source : String} {tree : Expr}
    (h : readTree source = .ok tree) :
    compile context source =
      ((context.resolve tree).mapError .resolution).map compareConditions := by
  rw [compile, h]
  change (context.resolve tree).mapError CompileError.resolution >>= _ = _
  cases context.resolve tree <;> rfl

/-- A source whose tokens are no formula is refused for that, in every context. -/
theorem compile_of_parse_error {source : String} {error : ParseError}
    (herror : (tokenize source).error = none)
    (h : parse source (tokenize source).tokens = .error error) (context : Context σ) :
    compile context source = .error (.parse error) := by
  have hread : readTree source = .error (.parse error) := by
    simp only [readTree, herror, h]
    rfl
  rw [compile, hread]
  rfl

theorem compile_eq_ok_iff {context : Context σ} {source : String} {clause : Expr} :
    compile context source = .ok clause ↔
      ∃ tree bound, readTree source = .ok tree ∧ context.resolve tree = .ok bound ∧
        compareConditions bound = clause := by
  unfold compile
  simp only [bind_eq_ok_iff, mapError_eq_ok_iff, pure_eq_ok_iff, exists_and_left]

end Contexts

end QueryFormula
