import QueryFormula.Proofs.Expr.Names
import QueryFormula.Proofs.Grammar.RawTree
import QueryFormula.Proofs.NormalForm.Arrangement
import QueryFormula.Proofs.NormalForm.Negation

/-!
# The normal form writes no names

The names of a normal form are names of the tree: each step moves, drops or groups
operands and adds at most truth values (`EveryName.normalForm`).  None of them is
bound, as the grammar writes unbound names only (`everyName_of_readTree`).
-/

namespace QueryFormula

open QueryFormula.Expr

/-! ### Each step -/

theorem holdsOfWritten_everyName (P : String → Prop) (Q : BoundRef → Prop) :
    HoldsOfWritten (EveryName P Q) where
  noOptions := by simp [noOptions]
  setting := by simp [ofBool]
  cases := by simp
  default := by simp

/-- Settings and groups hold no name of their own. -/
theorem Arranges.addsNoName {g : ClauseStep} (hg : Arranges g) : AddsNoName g := by
  intro P Q op xs o hxs
  obtain ⟨ys, hys, hnames⟩ := hg (holdsOfWritten_everyName P Q) op xs o hxs
  exact hys ▸ (everyName_clause op ys o).mpr hnames

theorem addsNoName_shortenNegation : AddsNoName shortenNegation := fun _ _ _ _ o hxs =>
  shortenNegation_of_operands (fun f ys => (everyName_clause f ys o).mpr)
    (fun f ys p => (everyName_clause f ys p).mp) hxs

/-! ### The whole normal form -/

/-- **The names of a normal form** are names of the tree. -/
theorem Expr.EveryName.normalForm {P : String → Prop} {Q : BoundRef → Prop} {e : Expr}
    (h : EveryName P Q e) : EveryName P Q (normalForm e) := by
  have hspelled : EveryName P Q (spellOutShorthands e) :=
    h.bottomUp arranges_optionsOfShorthand.addsNoName
  have hfolded : EveryName P Q (foldNegations _) :=
    hspelled.bottomUp addsNoName_shortenNegation
  have harranged : EveryName P Q (arrange _) := hfolded.bottomUp arranges_arrangeClause.addsNoName
  rw [normalForm_eq]
  unfold wrapLiteral
  split
  · exact (everyName_clause _ _ _).mpr (List.forall_mem_singleton.mpr harranged)
  · exact harranged

/-! ### What is parsed -/

/-- The grammar writes no bound name. -/
theorem Expr.Written.everyName {e : Expr} (h : e.Written) :
    EveryName (fun _ => True) (fun _ => False) e := by
  induction h with
  | literal v place => exact everyName_literal v _
  | name n place => exact (everyName_reference _ n _).mpr trivial
  | clause place _ ih => exact (everyName_clause _ _ _).mpr ih

/-- No name of a tree that is parsed is bound. -/
theorem everyName_of_readTree {source : String} {tree : Expr} (h : readTree source = .ok tree) :
    EveryName (fun _ => True) (fun _ => False) tree :=
  (written_of_readTree h).everyName

end QueryFormula
