import QueryFormula.Proofs.Diagnosis.Agreement
import QueryFormula.Proofs.Grammar.Parentheses
import QueryFormula.Proofs.Token.Concatenation

/-!
# Parentheses that are left over

A source whose parentheses match as far as the balance goes, put behind some opening
parentheses or in front of some closing ones, is reported by their number
(`diagnose_unmatched`).  The scanner takes a run of parentheses one by one
(`Cursor.tokens_signs`) and leaves the tokens beside it as they were, no function is less
called than before, and the balance adds up; so the earlier checks have nothing to say and
compilation is not reached.
-/

namespace QueryFormula

/-- A text of nothing but one sign. -/
def signs (sign : Char) (count : Nat) : String :=
  String.ofList (List.replicate count sign)

/-! ### Functions stay called -/

section Calls

variable {token : Token} {tokens run : List Token}

/-- An operator is no function. -/
theorem wantsArguments_of_operator? {op : Operator} (h : token.operator? = some op) :
    token.wantsArguments = false := by
  refine Bool.eq_false_iff.mpr fun hwants => ?_
  have hkind := (Token.wantsArguments_iff.mp hwants).1
  rw [Token.operator?, hkind] at h
  cases h

theorem CallsFunctions.cons (h : CallsFunctions tokens) (htoken : token.wantsArguments = false) :
    CallsFunctions (token :: tokens) := by
  cases tokens with
  | nil => exact uncalledFunction?_eq_none_iff.mp rfl
  | cons next tokens =>
      refine callsFunctions_cons_cons.mpr ⟨fun hwants => ?_, h⟩
      rw [htoken] at hwants
      cases hwants

/-- Tokens that are no functions may stand in front. -/
theorem CallsFunctions.behind (h : CallsFunctions tokens)
    (hrun : ∀ token ∈ run, token.wantsArguments = false) : CallsFunctions (run ++ tokens) := by
  induction run with
  | nil => exact h
  | cons sign run ih =>
      obtain ⟨hsign, hothers⟩ := List.forall_mem_cons.mp hrun
      exact (ih hothers).cons hsign

/-- They may stand behind, unless the last token in front of them lacks its call. -/
theorem CallsFunctions.before (h : CallsFunctions tokens)
    (hlast : ∀ last ∈ tokens.getLast?, last.wantsArguments = false)
    (hrun : ∀ token ∈ run, token.wantsArguments = false) : CallsFunctions (tokens ++ run) := by
  have hcalls : CallsFunctions run := by
    have hnone : CallsFunctions [] := uncalledFunction?_eq_none_iff.mp rfl
    simpa using hnone.behind hrun
  induction tokens with
  | nil => exact hcalls
  | cons token tokens ih =>
      cases tokens with
      | nil => exact hcalls.cons (hlast token rfl)
      | cons next tokens =>
          obtain ⟨hfirst, hothers⟩ := callsFunctions_cons_cons.mp h
          exact callsFunctions_cons_cons.mpr ⟨hfirst, ih hothers hlast⟩

/-- What is called does not depend on where the tokens stand. -/
theorem CallsFunctions.shift (h : CallsFunctions tokens) (bytes : Nat) :
    CallsFunctions (tokens.map (Token.shift bytes)) := by
  induction tokens with
  | nil => exact h
  | cons token tokens ih =>
      cases tokens with
      | nil => exact uncalledFunction?_eq_none_iff.mp rfl
      | cons next tokens =>
          obtain ⟨hfirst, hothers⟩ := callsFunctions_cons_cons.mp h
          exact callsFunctions_cons_cons.mpr ⟨hfirst, ih hothers⟩

end Calls

/-! ### The balance -/

section Balance

variable {tokens run : List Token}

theorem balance_shift (bytes : Nat) (tokens : List Token) :
    parenthesisBalance (tokens.map (Token.shift bytes)) = parenthesisBalance tokens := by
  induction tokens with
  | nil => rfl
  | cons token tokens ih =>
      rw [List.map_cons, parenthesisBalance_cons, parenthesisBalance_cons, ih]
      rfl

/-- Tokens of one weight. -/
theorem balance_run {weight : Int} (h : ∀ token ∈ run, token.weight = weight) :
    parenthesisBalance run = run.length * weight := by
  induction run with
  | nil => exact (Int.zero_mul weight).symm
  | cons token run ih =>
      obtain ⟨htoken, hothers⟩ := List.forall_mem_cons.mp h
      rw [parenthesisBalance_cons, htoken, ih hothers, List.length_cons, Int.natCast_succ,
        Int.add_mul, Int.one_mul, Int.add_comm]

theorem AreOpening.balance (h : AreOpening run) : parenthesisBalance run = run.length := by
  have hweight : ∀ token ∈ run, token.weight = 1 := fun token htoken => by
    rw [Token.weight, h token htoken]
  rw [balance_run hweight, Int.mul_one]

theorem AreClosing.balance (h : AreClosing run) : parenthesisBalance run = -run.length := by
  have hweight : ∀ token ∈ run, token.weight = -1 := fun token htoken => by
    rw [Token.weight, h token htoken]
  rw [balance_run hweight, Int.mul_neg, Int.mul_one]

end Balance

/-! ### What is reported -/

/-- So many parentheses on one side that have no partner on the other. -/
theorem balanceMessage_opening {count : Nat} (hcount : 0 < count) :
    balanceMessage count = if count = 1 then "Expecting a closing parenthesis"
      else s!"Expecting {count} closing parentheses" := by
  rw [balanceMessage, if_pos (by omega)]
  by_cases hone : count = 1
  · rw [if_pos hone, if_pos (by omega)]
  · rw [if_neg hone, if_neg (by omega)]
    rfl

theorem balanceMessage_closing {count : Nat} (hcount : 0 < count) :
    balanceMessage (-count) = if count = 1 then "Expecting an opening parenthesis"
      else s!"Expecting {count} opening parentheses" := by
  rw [balanceMessage, if_neg (by omega)]
  by_cases hone : count = 1
  · rw [if_pos hone, if_pos (by omega)]
  · rw [if_neg hone, if_neg (by omega), Int.natAbs_neg, Int.natAbs_natCast]
    rfl

/-- The balance is what is reported of tokens that show no other problem. -/
theorem tokenProblem?_of_balance {tokens : List Token} {balance : Int}
    (hcalls : CallsFunctions tokens) (hbalance : parenthesisBalance tokens = balance)
    (hne : balance ≠ 0) :
    tokenProblem? ⟨tokens, none⟩ = some (.plain (balanceMessage balance) none) := by
  simp only [tokenProblem?, uncalledFunction?_eq_none_iff.mpr hcalls, hbalance, if_neg hne]

/-- A problem of the tokens is the answer, whoever else would be asked. -/
theorem Draft.diagnose_of_tokenProblem? {σ : Type} [Lookup σ] {draft : Draft σ}
    {problem : Diagnostic} (nonempty : draft.source ≠ "")
    (h : tokenProblem? (tokenize draft.source) = some problem) (validator : Option Validator) : draft.diagnose validator = some problem := by
  simp only [diagnose, if_neg nonempty, inquiry, h]

section Unmatched

variable {σ : Type} [Lookup σ] {source : String} {count : Nat} {draft : Draft σ}

theorem signs_ne_empty (sign : Char) (hcount : 0 < count) : signs sign count ≠ "" := by
  intro h
  have hlength := congrArg (fun text => text.toList.length) h
  simp [signs] at hlength
  omega

/-- Opening parentheses in front of a source in order. -/
theorem diagnose_opening (hcount : 0 < count) (herror : (tokenize source).error = none)
    (hcalls : CallsFunctions (tokenize source).tokens)
    (hbalance : parenthesisBalance (tokenize source).tokens = 0)
    (hdraft : draft.source = signs '(' count ++ source) (validator : Option Validator) :
    draft.diagnose validator = some (.plain (balanceMessage count) none) := by
  obtain ⟨run, hlength, hrun, htokens⟩ :=
    Cursor.tokens_signs '(' rfl (fun _ => rfl) count 0 source.toList
  have hscanned : tokenize draft.source =
      ⟨run ++ (tokenize source).tokens.map (.shift (count * '('.utf8Size)), none⟩ := by
    rw [hdraft, tokenize, Cursor.ofText, String.toList_append, signs, String.toList_ofList,
      htokens, Cursor.tokens_shift, Scanned.behind, Scanned.shift]
    change Scanned.mk _ ((tokenize source).error.map _) = _
    rw [herror]
    rfl
  have hcalled : CallsFunctions
      (run ++ (tokenize source).tokens.map (.shift (count * '('.utf8Size))) :=
    (hcalls.shift _).behind fun token htoken => wantsArguments_of_operator? (hrun token htoken)
  have hopen : parenthesisBalance
      (run ++ (tokenize source).tokens.map (.shift (count * '('.utf8Size))) = count := by
    rw [parenthesisBalance_append, balance_shift, hbalance, AreOpening.balance hrun, hlength,
      Int.add_zero]
  refine Draft.diagnose_of_tokenProblem? ?_ ?_ validator
  · rw [hdraft]
    exact fun h => signs_ne_empty '(' hcount (String.append_eq_empty_iff.mp h).1
  · rw [hscanned]
    exact tokenProblem?_of_balance hcalled hopen (by omega)

/-- Closing parentheses behind a source in order whose last token needs no call. -/
theorem diagnose_closing (hcount : 0 < count) (herror : (tokenize source).error = none)
    (hcalls : CallsFunctions (tokenize source).tokens)
    (hbalance : parenthesisBalance (tokenize source).tokens = 0)
    (hlast : ∀ last ∈ (tokenize source).tokens.getLast?, last.wantsArguments = false)
    (hdraft : draft.source = source ++ signs ')' count) (validator : Option Validator) :
    draft.diagnose validator = some (.plain (balanceMessage (-count)) none) := by
  obtain ⟨run, hlength, hrun, htokens⟩ :=
    Cursor.tokens_signs ')' rfl (fun _ => rfl) count (0 + byteLength source.toList) []
  have hends : EndsLexeme (List.replicate count ')') := by
    intro c hc
    obtain rfl := List.eq_of_mem_replicate (List.mem_of_mem_head? hc)
    exact endsLexeme_of_isSeparator rfl
  have hscanned : tokenize draft.source = ⟨(tokenize source).tokens ++ run, none⟩ := by
    rw [List.append_nil, Cursor.tokens_end] at htokens
    rw [hdraft, tokenize, Cursor.ofText, String.toList_append, signs, String.toList_ofList,
      (scans_of_error_eq_none herror).tokens_append hends, htokens]
    simp only [Scanned.behind, List.append_nil]
    rfl
  have hcalled : CallsFunctions ((tokenize source).tokens ++ run) :=
    hcalls.before hlast fun token htoken => wantsArguments_of_operator? (hrun token htoken)
  have hopen : parenthesisBalance ((tokenize source).tokens ++ run) = -count := by
    rw [parenthesisBalance_append, hbalance, AreClosing.balance hrun, hlength, Int.zero_add]
  refine Draft.diagnose_of_tokenProblem? ?_ ?_ validator
  · rw [hdraft]
    exact fun h => signs_ne_empty ')' hcount (String.append_eq_empty_iff.mp h).2
  · rw [hscanned]
    exact tokenProblem?_of_balance hcalled hopen (by omega)

/-- **Parentheses that are left over** are counted.  Behind so many opening ones a source
without a fault, whose functions are called and whose parentheses match, is reported to lack
as many closing ones; and in front of so many closing ones, if its last token needs no call,
to lack as many opening ones.  Neither depends on what the source is written for, nor on the
validator. -/
theorem diagnose_unmatched (source : String) (count : Nat) (hcount : 0 < count)
    (herror : (tokenize source).error = none)
    (hcalls : CallsFunctions (tokenize source).tokens)
    (hbalance : parenthesisBalance (tokenize source).tokens = 0) (context : Context σ)
    (index : Option Nat) (validator : Option Validator) :
    Draft.diagnose ⟨signs '(' count ++ source, context, index⟩ validator =
      some {
        message := if count = 1 then "Expecting a closing parenthesis"
          else s!"Expecting {count} closing parentheses"
        friendly := false
        span := none } ∧
    ((∀ last ∈ (tokenize source).tokens.getLast?, last.kind = .identifier →
        last.isBracketed = false → ∀ s, functionNamed? last.text = some s → s.parameters = []) →
      Draft.diagnose ⟨source ++ signs ')' count, context, index⟩ validator =
        some {
          message := if count = 1 then "Expecting an opening parenthesis"
            else s!"Expecting {count} opening parentheses"
          friendly := false
          span := none }) := by
  constructor
  · rw [diagnose_opening hcount herror hcalls hbalance rfl validator,
      balanceMessage_opening hcount]
    rfl
  · intro hlast
    have hcalled : ∀ last ∈ (tokenize source).tokens.getLast?, last.wantsArguments = false := by
      intro last hmem
      refine Bool.eq_false_iff.mpr fun hwants => ?_
      obtain ⟨hkind, hbare, s, hs, hparameters⟩ := Token.wantsArguments_iff.mp hwants
      exact hparameters (hlast last hmem hkind hbare s hs)
    rw [diagnose_closing hcount herror hcalls hbalance hcalled rfl validator,
      balanceMessage_closing hcount]
    rfl

end Unmatched

/-- A filter with parentheses in a name and in a string, which do not count, that ends with
a function without arguments. -/
def untilNow : String :=
  "contains([Na(me], \")\") AND ([Total] + 1) > now"

/-- Three parentheses too many in front of the filter and one behind it, for a validator that
would fail. -/
theorem diagnose_unmatched_untilNow :
    (tokenize untilNow).error = none ∧ CallsFunctions (tokenize untilNow).tokens ∧
      parenthesisBalance (tokenize untilNow).tokens = 0 ∧
      Draft.diagnose ⟨signs '(' 3 ++ untilNow, nullFilter.context, none⟩
        (some fun _ => .failed "out of order") =
        some ⟨"Expecting 3 closing parentheses", false, none⟩ ∧
      Draft.diagnose ⟨untilNow ++ signs ')' 1, nullFilter.context, none⟩
        (some fun _ => .failed "out of order") =
        some ⟨"Expecting an opening parenthesis", false, none⟩ := by
  have herror : (tokenize untilNow).error = none := by decide +kernel
  have hcalls : CallsFunctions (tokenize untilNow).tokens :=
    uncalledFunction?_eq_none_iff.mp (by decide +kernel)
  have hbalance : parenthesisBalance (tokenize untilNow).tokens = 0 := by decide +kernel
  have hnow : (tokenize untilNow).tokens.getLast?.all
      (fun last => (functionNamed? last.text).all (·.parameters.isEmpty)) = true := by
    decide +kernel
  have hlast : ∀ last ∈ (tokenize untilNow).tokens.getLast?, last.kind = .identifier →
      last.isBracketed = false → ∀ s, functionNamed? last.text = some s →
        s.parameters = [] := by
    intro last hmem _ _ s hs
    rw [Option.mem_def.mp hmem, Option.all_some, hs, Option.all_some] at hnow
    exact List.isEmpty_iff.mp hnow
  have hopening := diagnose_unmatched untilNow 3 (by decide) herror hcalls hbalance
    nullFilter.context none (some fun _ => .failed "out of order")
  have hclosing := diagnose_unmatched untilNow 1 (by decide) herror hcalls hbalance
    nullFilter.context none (some fun _ => .failed "out of order")
  exact ⟨herror, hcalls, hbalance, hopening.1, hclosing.2 hlast⟩

end QueryFormula
