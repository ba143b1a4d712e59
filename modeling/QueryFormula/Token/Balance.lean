import QueryFormula.Token.Basic

/-!
# Balance of parentheses

The opening parentheses among some tokens less the closing ones, wherever they
stand.
-/

namespace QueryFormula

/-- What a token adds to the balance. -/
def Token.weight (t : Token) : Int :=
  match t.operator? with
  | some .openParenthesis => 1
  | some .closeParenthesis => -1
  | _ => 0

/-- Opening less closing parentheses. -/
def parenthesisBalance : List Token → Int
  | [] => 0
  | token :: rest => token.weight + parenthesisBalance rest

@[simp] theorem parenthesisBalance_nil : parenthesisBalance [] = 0 := rfl

@[simp] theorem parenthesisBalance_cons (token : Token) (rest : List Token) :
    parenthesisBalance (token :: rest) = token.weight + parenthesisBalance rest := rfl

theorem parenthesisBalance_append (as bs : List Token) :
    parenthesisBalance (as ++ bs) = parenthesisBalance as + parenthesisBalance bs := by
  induction as with
  | nil => simp [parenthesisBalance]
  | cons a as ih => simp [parenthesisBalance, ih, Int.add_assoc]

end QueryFormula
