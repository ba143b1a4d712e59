import QueryFormula.Proofs.Grammar.FirstError
import QueryFormula.Proofs.Places.Laid
import QueryFormula.Proofs.Places.Relocation

/-!
# Reading tokens at other places

The grammar looks at the class and the text of a token and copies its place.  So tokens whose
places have been moved are read to the same trees at the new places and refused with the same
errors there (`Level.tracks`).  An error lies at one of the tokens, or at the end of the
source where the source ends too early (`ParseError.Placed`).
-/

namespace QueryFormula

/-- The token at another place. -/
def Token.relocate (r : Relocation) (token : Token) : Token :=
  { token with span := r.span token.span }

namespace Token

variable (r : Relocation) (token : Token)

@[simp] theorem text_relocate : (token.relocate r).text = token.text := rfl

@[simp] theorem span_relocate : (token.relocate r).span = r.span token.span := rfl

@[simp] theorem isOperator_relocate (op : Operator) :
    (token.relocate r).isOperator op = token.isOperator op := rfl

end Token

/-- The source ends before what is missing. -/
def ParseFault.isAtEnd : ParseFault → Bool
  | unexpectedEnd | unclosedCall none => true
  | _ => false

namespace ParseError

/-- The error lies at the end of the source, or at one of the tokens. -/
def Placed (tokens : List Token) (ending : Nat) (error : ParseError) : Prop :=
  if error.fault.isAtEnd then error.span = Grammar.endSpan ending
  else ∃ token ∈ tokens, error.span = token.span

/-- The error in tokens at other places, in a source of another length. -/
def relocate (r : Relocation) (ending : Nat) (error : ParseError) : ParseError :=
  { error with
    span := if error.fault.isAtEnd then Grammar.endSpan ending else r.span error.span }

end ParseError

namespace Grammar

/-! ### What the rules build -/

section Nodes

variable (r : Relocation)

theorem isChainOf_relocate (left : Expr) (op : Operator) :
    isChainOf (left.relocate r) op = isChainOf left op := by
  cases left <;> simp [isChainOf]

theorem cover?_relocate (a b : Option Span) :
    Span.cover? (a.map r.span) (b.map r.span) = (Span.cover? a b).map r.span := by
  cases a <;> cases b <;> simp [Span.cover?, r.span_cover]

theorem binary_relocate (left : Expr) (op : Operator) (right : Expr) :
    binary (left.relocate r) op (right.relocate r) = (binary left op right).relocate r := by
  simp [binary, cover?_relocate]

theorem appendOperand_of_operator? {left : Expr} (h : left.operator? = none) (op : Operator)
    (right : Expr) : appendOperand left op right = binary left op right := by
  cases left <;> first | rfl | cases h

theorem appendOperand_relocate (left : Expr) (op : Operator) (right : Expr) :
    appendOperand (left.relocate r) op (right.relocate r) =
      (appendOperand left op right).relocate r := by
  cases left with
  | clause f xs o =>
      have hbinary := binary_relocate r (.clause f xs o) op right
      have hchain := isChainOf_relocate r (.clause f xs o) op
      rw [Expr.relocate_clause] at hbinary hchain ⊢
      rw [appendOperand, appendOperand, hchain, hbinary, right.origin_relocate, cover?_relocate]
      split <;> simp
  | _ =>
      rw [appendOperand_of_operator? (by simp [Expr.operator?]), appendOperand_of_operator? rfl,
        binary_relocate]

theorem eq_literal_of_relocate {e : Expr} {v : Literal} {o : Option Span}
    (h : e.relocate r = .literal v o) : ∃ p, e = .literal v p := by
  cases e with
  | literal w p =>
      rw [Expr.relocate_literal] at h
      cases h
      exact ⟨p, rfl⟩
  | _ => simp at h

theorem unary_relocate (op : Operator) (sign : Span) (operand : Expr) :
    unary op (r.span sign) (operand.relocate r) = (unary op sign operand).relocate r := by
  have horigin : signOrigin (r.span sign) (operand.relocate r) =
      (signOrigin sign operand).map r.span := by
    rw [signOrigin, signOrigin, operand.origin_relocate]
    cases operand.origin <;> simp [r.span_cover]
  fun_cases unary op sign operand with
  | case1 | case2 =>
      rw [Expr.relocate_literal] at horigin ⊢
      rw [unary, horigin, Expr.relocate_literal]
  | case3 =>
      rename_i hnumber hfloat
      rw [unary.eq_3, horigin, Expr.relocate_clause]
      · rfl
      · intro x o hop hoperand
        obtain ⟨p, hliteral⟩ := eq_literal_of_relocate r hoperand
        exact hnumber x p hop hliteral
      · intro x o hop hoperand
        obtain ⟨p, hliteral⟩ := eq_literal_of_relocate r hoperand
        exact hfloat x p hop hliteral

theorem call_relocate (name closing : Token) (xs : List Expr) :
    call (name.relocate r) (xs.map (Expr.relocate r)) (r.span closing.span) =
      (call name xs closing.span).relocate r := by
  simp [call, r.span_cover]

theorem name_relocate (token : Token) :
    name (token.relocate r) = (name token).relocate r := by
  rw [name, name, Expr.relocate_reference]
  rfl

end Nodes

/-! ### Readings side by side -/

section Tracks

variable {r : Relocation} {tokens : List Token} {ending ending' : Nat}

/-- The second result is the first at other places, and an error of the first has its place;
what is left of the tokens are tokens. -/
inductive Tracks (r : Relocation) (tokens : List Token) (ending ending' : Nat) {α : Type}
    (act : α → α) :
    Except ParseError (α × List Token) → Except ParseError (α × List Token) → Prop
  | found {value : α} {rest : List Token} (within : rest ⊆ tokens) :
      Tracks r tokens ending ending' act (.ok (value, rest))
        (.ok (act value, rest.map (Token.relocate r)))
  | refused {error : ParseError} (placed : error.Placed tokens ending) :
      Tracks r tokens ending ending' act (.error error) (.error (error.relocate r ending'))

namespace Tracks

variable {α β : Type} {act : α → α} {act' : β → β} {ts : List Token} {token : Token}

/-- An error at a token. -/
theorem atToken (htoken : token ∈ tokens) {fault : ParseFault} (hfault : fault.isAtEnd = false) :
    Tracks r tokens ending ending' act (.error ⟨fault, token.span⟩)
      (.error ⟨fault, r.span token.span⟩) := by
  have hplaced : ParseError.Placed tokens ending ⟨fault, token.span⟩ := by
    rw [ParseError.Placed, if_neg (by rw [hfault]; decide)]
    exact ⟨token, htoken, rfl⟩
  have hmoved : ParseError.relocate r ending' ⟨fault, token.span⟩ =
      ⟨fault, r.span token.span⟩ := by
    rw [ParseError.relocate, if_neg (by rw [hfault]; decide)]
  exact hmoved ▸ refused hplaced

/-- An error at the end of the source. -/
theorem atEnd {fault : ParseFault} (hfault : fault.isAtEnd = true) :
    Tracks r tokens ending ending' act (.error ⟨fault, endSpan ending⟩)
      (.error ⟨fault, endSpan ending'⟩) := by
  have hplaced : ParseError.Placed tokens ending ⟨fault, endSpan ending⟩ := by
    rw [ParseError.Placed, if_pos hfault]
  have hmoved : ParseError.relocate r ending' ⟨fault, endSpan ending⟩ =
      ⟨fault, endSpan ending'⟩ := by
    rw [ParseError.relocate, if_pos hfault]
  exact hmoved ▸ refused hplaced

/-- One reading behind another. -/
theorem andThen {first first' : Reader α} {next next' : α → Reader β} {ts' : List Token}
    (hfirst : Tracks r tokens ending ending' act (first ts) (first' ts'))
    (hnext : ∀ value rest, first ts = .ok (value, rest) → rest ⊆ tokens →
      Tracks r tokens ending ending' act' (next value rest)
        (next' (act value) (rest.map (Token.relocate r)))) :
    Tracks r tokens ending ending' act' (first.andThen next ts) (first'.andThen next' ts') := by
  unfold Reader.andThen
  generalize first ts = result at hfirst hnext
  generalize first' ts' = result' at hfirst
  cases hfirst with
  | found within => exact hnext _ _ rfl within
  | refused placed => exact .refused placed

theorem deeper (htoken : token ∈ tokens) {depth : Nat} {inner inner' : Nat → Reader α}
    {ts' : List Token}
    (h : Tracks r tokens ending ending' act (inner (depth + 1) ts) (inner' (depth + 1) ts')) :
    Tracks r tokens ending ending' act (Reader.deeper token.span depth inner ts)
      (Reader.deeper (r.span token.span) depth inner' ts') := by
  unfold Reader.deeper
  split
  · exact atToken htoken rfl
  · exact h

/-- The next token is one of these operators, or nothing is read. -/
theorem followed {ops : List Operator} {value : α} {next next' : Operator → Token → Reader α}
    (hts : ts ⊆ tokens)
    (hnext : ∀ op token rest, ts = token :: rest →
      Tracks r tokens ending ending' act (next op token rest)
        (next' op (token.relocate r) (rest.map (Token.relocate r)))) :
    Tracks r tokens ending ending' act (Reader.followed ops value next ts)
      (Reader.followed ops (act value) next' (ts.map (Token.relocate r))) := by
  cases ts with
  | nil => exact .found hts
  | cons token rest =>
      have hop : operatorAmong? ops (token.relocate r) = operatorAmong? ops token := rfl
      rw [List.map_cons, Reader.followed, Reader.followed, hop]
      cases operatorAmong? ops token with
      | none => exact .found hts
      | some op => exact hnext op token rest rfl

theorem closed {missing missing' : ParseError} {wrong wrong' : Token → ParseError}
    {value value' : Token → α} (hts : ts ⊆ tokens)
    (hmissing : Tracks r tokens ending ending' act (.error missing) (.error missing'))
    (hwrong : ∀ token ∈ tokens, Tracks r tokens ending ending' act (.error (wrong token))
      (.error (wrong' (token.relocate r))))
    (hvalue : ∀ token, value' (token.relocate r) = act (value token)) :
    Tracks r tokens ending ending' act (Reader.closed missing wrong value ts)
      (Reader.closed missing' wrong' value' (ts.map (Token.relocate r))) := by
  cases ts with
  | nil => exact hmissing
  | cons token rest =>
      obtain ⟨htoken, hrest⟩ := List.cons_subset.mp hts
      rw [List.map_cons, Reader.closed, Reader.closed, Token.isOperator_relocate]
      split
      · rw [hvalue]
        exact .found hrest
      · exact hwrong token htoken

end Tracks

variable (r tokens ending ending') in
/-- The level reads all lists of fewer than `bound` of the tokens at other places too. -/
def TracksBelow (bound : Nat) (level : Level) : Prop :=
  ∀ ts : List Token, ts.length < bound → ts ⊆ tokens → ∀ depth,
    Tracks r tokens ending ending' (Expr.relocate r) (level.reader ending depth ts)
      (level.reader ending' depth (ts.map (Token.relocate r)))

variable {bound depth : Nat} {ts : List Token}

theorem tracks_tail {level : Level}
    (operand : TracksBelow r tokens ending ending' bound level.tighter) (ts : List Token)
    (within : ts.length ≤ bound) (hts : ts ⊆ tokens) (depth : Nat) (left : Expr) :
    Tracks r tokens ending ending' (Expr.relocate r) (tailReader ending level depth left ts)
      (tailReader ending' level depth (left.relocate r) (ts.map (Token.relocate r))) := by
  rw [tailReader_eq ending, tailReader_eq ending']
  refine .followed hts fun op token rest htokens => ?_
  obtain ⟨htoken, hrest⟩ := List.cons_subset.mp (htokens ▸ hts)
  have hless : rest.length < ts.length := by simp [htokens]
  rw [isChainOf_relocate]
  split
  · exact .atToken htoken rfl
  · refine .andThen (operand rest (by omega) hrest _) fun right rest' hread hrest' => ?_
    have hshorter := level.tighter.reader_shortens ending _ _ _ _ hread
    rw [appendOperand_relocate]
    exact tracks_tail operand rest' (by omega) hrest' _ _
termination_by ts.length

theorem tracks_chain {level : Level} (hjoiners : level.joiners ≠ []) (hts : ts ⊆ tokens)
    (operand : TracksBelow r tokens ending ending' (ts.length + 1) level.tighter) :
    Tracks r tokens ending ending' (Expr.relocate r) (level.reader ending depth ts)
      (level.reader ending' depth (ts.map (Token.relocate r))) := by
  rw [reader_chain ending hjoiners, reader_chain ending' hjoiners]
  refine .andThen (operand ts (Nat.lt_succ_self _) hts depth) fun first rest hread hrest => ?_
  have hshorter := level.tighter.reader_shortens ending _ _ _ _ hread
  exact tracks_tail operand rest (by omega) hrest depth first

theorem tracks_comparison
    (left : Tracks r tokens ending ending' (Expr.relocate r) (Level.sum.reader ending depth ts)
      (Level.sum.reader ending' depth (ts.map (Token.relocate r))))
    (right : TracksBelow r tokens ending ending' ts.length .sum) :
    Tracks r tokens ending ending' (Expr.relocate r) (Level.comparison.reader ending depth ts)
      (Level.comparison.reader ending' depth (ts.map (Token.relocate r))) := by
  rw [reader_comparison ending, reader_comparison ending']
  refine .andThen left fun left rest hread hrest => ?_
  have hshorter := Level.sum.reader_shortens ending _ _ _ _ hread
  refine .followed hrest fun op token rest' htokens => ?_
  obtain ⟨-, hrest'⟩ := List.cons_subset.mp (htokens ▸ hrest)
  have hless : rest'.length < rest.length := by simp [htokens]
  refine .andThen (right rest' (by omega) hrest' depth)
    fun right rest'' _ hrest'' => ?_
  rw [binary_relocate]
  exact .found hrest''

theorem tracks_arguments (argument : TracksBelow r tokens ending ending' bound .disjunction)
    (ts : List Token) (within : ts.length < bound) (hts : ts ⊆ tokens) (depth : Nat) :
    Tracks r tokens ending ending' (List.map (Expr.relocate r))
      (argumentsReader ending depth ts)
      (argumentsReader ending' depth (ts.map (Token.relocate r))) := by
  rw [argumentsReader_eq ending, argumentsReader_eq ending']
  refine .andThen (argument ts within hts depth) fun first rest hread hrest => ?_
  have hshorter := Level.disjunction.reader_shortens ending _ _ _ _ hread
  refine .followed hrest fun _ token rest' htokens => ?_
  obtain ⟨-, hrest'⟩ := List.cons_subset.mp (htokens ▸ hrest)
  have hless : rest'.length < rest.length := by simp [htokens]
  exact .andThen (tracks_arguments argument rest' (by omega) hrest' depth)
    fun others rest'' _ hrest'' => .found hrest''
termination_by ts.length

/-- A sign or a `not`, and its operand one level deeper. -/
theorem tracks_sign {level : Level} {token : Token} {rest : List Token} {op : Operator}
    (hread : level.reader ending depth (token :: rest) =
      (Reader.deeper token.span depth (level.reader ending)).andThen
        (fun operand => .done (unary op token.span operand)) rest)
    (hread' : level.reader ending' depth (token.relocate r :: rest.map (Token.relocate r)) =
      (Reader.deeper (r.span token.span) depth (level.reader ending')).andThen
        (fun operand => .done (unary op (r.span token.span) operand))
        (rest.map (Token.relocate r)))
    (htoken : token ∈ tokens)
    (operand : Tracks r tokens ending ending' (Expr.relocate r)
      (level.reader ending (depth + 1) rest)
      (level.reader ending' (depth + 1) (rest.map (Token.relocate r)))) :
    Tracks r tokens ending ending' (Expr.relocate r) (level.reader ending depth (token :: rest))
      (level.reader ending' depth ((token :: rest).map (Token.relocate r))) := by
  rw [List.map_cons, hread, hread']
  refine .andThen (.deeper htoken operand) fun value rest' _ hrest' => ?_
  rw [unary_relocate]
  exact .found hrest'

/-- Nothing is there, or something of which the same is known at another place. -/
theorem forall_head_relocate {kind : Token → Prop} {ts : List Token}
    (hkind : ∀ token, kind token → kind (token.relocate r)) (h : ∀ token ∈ ts.head?, kind token) :
    ∀ token ∈ (ts.map (Token.relocate r)).head?, kind token := by
  rw [List.head?_map]
  intro token htoken
  obtain ⟨old, hold, rfl⟩ := Option.map_eq_some_iff.mp htoken
  exact hkind old (h old hold)

theorem tracks_group {token : Token} {rest : List Token}
    (hkind : token.kind = .operator .openParenthesis) (htoken : token ∈ tokens)
    (inner : ∀ d, Tracks r tokens ending ending' (Expr.relocate r)
      (Level.disjunction.reader ending d rest)
      (Level.disjunction.reader ending' d (rest.map (Token.relocate r)))) :
    Tracks r tokens ending ending' (Expr.relocate r)
      (Level.primary.reader ending depth (token :: rest))
      (Level.primary.reader ending' depth ((token :: rest).map (Token.relocate r))) := by
  have hkind' : (token.relocate r).kind = .operator .openParenthesis := hkind
  rw [List.map_cons, reader_group ending hkind, reader_group ending' hkind']
  refine .andThen (.deeper htoken (inner _)) fun value rest' _ hrest' => ?_
  exact .closed hrest' (.atToken htoken rfl) (fun t ht => .atToken ht rfl) fun _ => rfl

theorem tracks_emptyCall {token opening closing : Token} {rest : List Token}
    (hkind : token.kind = .identifier) (hbare : token.isBracketed = false)
    (hopen : opening.isOperator .openParenthesis)
    (hclosing : closing.isOperator .closeParenthesis) (hrest : rest ⊆ tokens) :
    Tracks r tokens ending ending' (Expr.relocate r)
      (Level.primary.reader ending depth (token :: opening :: closing :: rest))
      (Level.primary.reader ending' depth
        ((token :: opening :: closing :: rest).map (Token.relocate r))) := by
  have hkind' : (token.relocate r).kind = .identifier := hkind
  have hbare' : (token.relocate r).isBracketed = false := hbare
  have hopen' : (opening.relocate r).isOperator .openParenthesis := hopen
  have hclosing' : (closing.relocate r).isOperator .closeParenthesis := hclosing
  have hcall : call (token.relocate r) [] (closing.relocate r).span =
      (call token [] closing.span).relocate r := call_relocate r token closing []
  rw [List.map_cons, List.map_cons, List.map_cons,
    reader_emptyCall ending hkind hbare hopen hclosing,
    reader_emptyCall ending' hkind' hbare' hopen' hclosing', hcall]
  exact .found hrest

theorem tracks_call {token opening : Token} {rest : List Token}
    (hkind : token.kind = .identifier) (hbare : token.isBracketed = false)
    (hopen : opening.isOperator .openParenthesis) (hopening : opening ∈ tokens)
    (hfull : ∀ next ∈ rest.head?, next.isOperator .closeParenthesis = false)
    (hrest : rest ⊆ tokens)
    (argument : TracksBelow r tokens ending ending' (rest.length + 1) .disjunction) :
    Tracks r tokens ending ending' (Expr.relocate r)
      (Level.primary.reader ending depth (token :: opening :: rest))
      (Level.primary.reader ending' depth
        ((token :: opening :: rest).map (Token.relocate r))) := by
  have hkind' : (token.relocate r).kind = .identifier := hkind
  have hbare' : (token.relocate r).isBracketed = false := hbare
  have hopen' : (opening.relocate r).isOperator .openParenthesis := hopen
  have hfull' := forall_head_relocate (r := r) (fun _ h => h) hfull
  rw [List.map_cons, List.map_cons, reader_call ending hkind hbare hopen hfull,
    reader_call ending' hkind' hbare' hopen' hfull']
  refine .andThen (.deeper hopening
    (tracks_arguments argument rest (Nat.lt_succ_self _) hrest _)) fun list rest' _ hrest' => ?_
  exact .closed hrest' (.atEnd rfl) (fun t ht => .atToken ht rfl) fun t =>
    call_relocate r token t list

/-- **Every level reads alike** what stands at other places. -/
theorem Level.tracks (level : Level) (ts : List Token) (hts : ts ⊆ tokens) (depth : Nat) :
    Tracks r tokens ending ending' (Expr.relocate r) (level.reader ending depth ts)
      (level.reader ending' depth (ts.map (Token.relocate r))) := by
  induction level, ts, depth using Level.rule_induction with
  | chained level ts depth hjoiners ih =>
      exact tracks_chain hjoiners hts fun us hus hsub d => ih us hus d hsub
  | unprefixed level ts depth hprefixes hnone ih =>
      rw [reader_unprefixed ending hprefixes hnone,
        reader_unprefixed ending' hprefixes (forall_head_relocate (fun _ h => h) hnone)]
      exact ih hts
  | negated token rest depth hnot ih =>
      obtain ⟨htoken, hrest⟩ := List.cons_subset.mp hts
      have hnot' : (token.relocate r).isOperator .not := hnot
      exact tracks_sign (reader_not ending hnot rest depth) (reader_not ending' hnot' _ depth)
        htoken (ih _ hrest)
  | signed token op rest depth hop ih =>
      obtain ⟨htoken, hrest⟩ := List.cons_subset.mp hts
      have hop' : operatorAmong? [.plus, .minus] (token.relocate r) = some op := hop
      exact tracks_sign (reader_sign ending hop rest depth) (reader_sign ending' hop' _ depth)
        htoken (ih _ hrest)
  | comparison ts depth ihleft ihright =>
      exact tracks_comparison (ihleft hts) fun us hus hsub d => ihright us hus d hsub
  | missing depth =>
      rw [List.map_nil, reader_nil, reader_nil]
      exact .atEnd rfl
  | literal token value rest depth hkind =>
      have hkind' : (token.relocate r).kind = .literal value := hkind
      rw [List.map_cons, reader_literal ending hkind, reader_literal ending' hkind']
      exact Expr.relocate_literal r value (some token.span) ▸ .found (List.cons_subset.mp hts).2
  | group token rest depth hkind ih =>
      obtain ⟨htoken, hrest⟩ := List.cons_subset.mp hts
      exact tracks_group hkind htoken fun d => ih d hrest
  | misplaced token op rest depth hkind hop =>
      have hkind' : (token.relocate r).kind = .operator op := hkind
      rw [List.map_cons, reader_operator ending hkind hop, reader_operator ending' hkind' hop]
      exact .atToken (List.cons_subset.mp hts).1 rfl
  | name token rest depth hkind hrest =>
      have hkind' : (token.relocate r).kind = .identifier := hkind
      have hrest' : (token.relocate r).isBracketed = false →
          ∀ next ∈ (rest.map (Token.relocate r)).head?,
            next.isOperator .openParenthesis = false :=
        fun hbare => forall_head_relocate (fun _ h => h) (hrest hbare)
      rw [List.map_cons, reader_name ending hkind hrest, reader_name ending' hkind' hrest',
        name_relocate]
      exact .found (List.cons_subset.mp hts).2
  | emptyCall token opening closing rest depth hkind hbare hopen hclosing =>
      obtain ⟨-, hafter⟩ := List.cons_subset.mp hts
      obtain ⟨-, hbehind⟩ := List.cons_subset.mp hafter
      exact tracks_emptyCall hkind hbare hopen hclosing (List.cons_subset.mp hbehind).2
  | call token opening rest depth hkind hbare hopen hfull ih =>
      obtain ⟨-, hafter⟩ := List.cons_subset.mp hts
      obtain ⟨hopening, hrest⟩ := List.cons_subset.mp hafter
      exact tracks_call hkind hbare hopen hopening hfull hrest fun us hus hsub d => ih us hus d hsub

end Tracks

end Grammar

open Grammar

/-- **Tokens at other places** are parsed to the tree at those places.  If they are not, it is
at the end of the source or at a token, and there in both cases. -/
theorem parse_relocate (r : Relocation) (source source' : String) (tokens : List Token) :
    (∃ tree, parse source tokens = .ok tree ∧
      parse source' (tokens.map (Token.relocate r)) = .ok (tree.relocate r)) ∨
    ∃ error, parse source tokens = .error error ∧
      error.Placed tokens (byteLength source.toList) ∧
      parse source' (tokens.map (Token.relocate r)) =
        .error (error.relocate r (byteLength source'.toList)) := by
  have htracks : Tracks r tokens (byteLength source.toList) (byteLength source'.toList)
      (Expr.relocate r) (Level.disjunction.reader (byteLength source.toList) 0 tokens)
      (Level.disjunction.reader (byteLength source'.toList) 0 (tokens.map (Token.relocate r))) :=
    Level.tracks .disjunction tokens (List.Subset.refl tokens) 0
  rw [parse_eq_reader, parse_eq_reader]
  generalize Level.disjunction.reader _ 0 tokens = result at htracks ⊢
  generalize Level.disjunction.reader _ 0 (tokens.map _) = result' at htracks ⊢
  cases htracks with
  | refused placed => exact .inr ⟨_, rfl, placed, rfl⟩
  | @found value rest within =>
      cases rest with
      | nil => exact .inl ⟨value, rfl, rfl⟩
      | cons token rest =>
          exact .inr ⟨_, rfl, ⟨token, within List.mem_cons_self, rfl⟩, rfl⟩

end QueryFormula
