import QueryFormula.Compile
import QueryFormula.Diagnosis.Verdict
import QueryFormula.Token.Balance

/-!
# Diagnosing a formula that is being edited

The first problem of a source, in the words that an editor shows.  Cheap checks
on the tokens come first: a function without its parentheses, parentheses that
do not match.  Then the source is compiled, and what comes out is put to the
validator.
-/

namespace QueryFormula

/-- A problem to show to the user. -/
structure Diagnostic where
  message : String
  /-- Worded by the validator. -/
  friendly : Bool
  span : Option Span
deriving DecidableEq, Repr

/-- A formula and what it is edited for. -/
structure Draft (σ : Type := Schema) where
  source : String
  context : Context σ
  /-- The place of the expression within its stage. -/
  index : Option Nat

/-- Parentheses that are too few on one side. -/
def balanceMessage (balance : Int) : String :=
  if 0 < balance then
    if balance = 1 then "Expecting a closing parenthesis"
    else "Expecting " ++ String.ofList (Nat.toDigits 10 balance.natAbs) ++ " closing parentheses"
  else if balance = -1 then "Expecting an opening parenthesis"
  else "Expecting " ++ String.ofList (Nat.toDigits 10 balance.natAbs) ++ " opening parentheses"

/-- A bare name that means a function with arguments. -/
def Token.wantsArguments (token : Token) : Bool :=
  token.kind = .identifier && !token.isBracketed &&
    (functionNamed? token.text).any fun s => !s.parameters.isEmpty

/-- The first function with arguments that is followed by a token other than an
opening parenthesis. -/
def uncalledFunction? : List Token → Option Token
  | token :: next :: rest =>
    if token.wantsArguments && !next.isOperator .openParenthesis then some token
    else uncalledFunction? (next :: rest)
  | _ => none

/-- A problem that no validator has worded. -/
def Diagnostic.plain (message : String) (span : Option Span) : Diagnostic :=
  ⟨message, false, span⟩

/-- What is reported where the validator has nothing to say to users. -/
def Diagnostic.invalid : Diagnostic :=
  .plain "Invalid expression" none

/-- The problems that tokens alone show. -/
def tokenProblem? (tokenized : Scanned) : Option Diagnostic :=
  match tokenized.error with
  | some e => some (.plain e.fault.message (some e.span))
  | none =>
    match uncalledFunction? tokenized.tokens with
    | some token =>
      some (.plain ("Expecting an opening parenthesis after function " ++ token.text)
        (some token.span))
    | none =>
      let balance := parenthesisBalance tokenized.tokens
      if balance = 0 then none else some (.plain (balanceMessage balance) none)

namespace Draft

variable {σ : Type} [Lookup σ]

/-- The question to the validator, or the problem that comes before it. -/
def inquiry (draft : Draft σ) : Except Diagnostic Inquiry :=
  match tokenProblem? (tokenize draft.source) with
  | some problem => .error problem
  | none =>
    match compile draft.context draft.source with
    | .ok clause => .ok ⟨draft.context.stage, draft.context.mode, clause, draft.index⟩
    | .error e => .error (.plain e.message e.span)

/-- The problem that a verdict stands for. -/
def problemOf? : Verdict → Option Diagnostic
  | .valid => none
  | .problem issue => some (if issue.friendly then ⟨issue.message, true, none⟩ else .invalid)
  | .failed _ => some .invalid

/-- The first problem of a formula.  The empty source has none. -/
def diagnose (draft : Draft σ) (validator : Option Validator) : Option Diagnostic :=
  if draft.source = "" then none
  else
    match draft.inquiry with
    | .error problem => some problem
    | .ok inquiry => validator.bind fun ask => problemOf? (ask inquiry)

end Draft

end QueryFormula
