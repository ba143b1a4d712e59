import QueryFormula.Main
import QueryFormula.Proofs.Diagnosis.Leading
import QueryFormula.Proofs.Expr.Written
import QueryFormula.Proofs.Grammar.Course
import QueryFormula.Proofs.Grammar.Height
import QueryFormula.Proofs.Grammar.Value
import QueryFormula.Proofs.NormalForm.Leaves
import QueryFormula.Proofs.NormalForm.Meaning
import QueryFormula.Proofs.NormalForm.Repeated
import QueryFormula.Proofs.NormalForm.Shape
import QueryFormula.Proofs.Places.Origins
import QueryFormula.Proofs.Places.SameTexts
import QueryFormula.Proofs.Resolution.Columns
import QueryFormula.Proofs.Resolution.Conditions
import QueryFormula.Proofs.Resolution.FillIn
import QueryFormula.Proofs.Resolution.Fixpoint
import QueryFormula.Proofs.Resolution.Folding
import QueryFormula.Proofs.Resolution.Integers
import QueryFormula.Proofs.Resolution.Spelling
import QueryFormula.Proofs.Resolution.Widening
import QueryFormula.Proofs.Schema.RoundTrip
import QueryFormula.Proofs.Token.QuotedString
