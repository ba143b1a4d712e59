import QueryFormula.Proofs.Grammar.Called
import QueryFormula.Proofs.NormalForm.Mentions
import QueryFormula.Proofs.Resolution.Aggregation

/-!
# What can be called

A function that nobody knows is not refused where it is read: its text stays, and
resolution looks for a clause of this name.  So it is refused unless the text happens to be
the name of a clause, or resolution does not look at the place (`called_of_compile`).
-/

namespace QueryFormula

open QueryFormula.Expr

variable {bind : Binder (Except ResolutionError)} {expected : ValueType}

/-- Each operand but options is resolved to one, or it is spare and stays. -/
theorem OperandsResolve.exists_of_mem_operands (hbind : AnswersNames bind) {op : String}
    {s : Signature} (hs : signature? op = some s) {position : Nat} {xs ys : List Expr}
    (h : OperandsResolve bind s expected position xs ys) {x : Expr} (hx : x ∈ xs)
    (hvalue : x.isOptions = false) :
    (∃ y ∈ ys, ∃ type, resolve bind type x = .ok y) ∨ x ∈ spareOperands op position ys := by
  induction h with
  | nil => cases hx
  | options his _ ih =>
      rcases List.mem_cons.mp hx with rfl | hx
      · cases hvalue.symm.trans his
      rw [spareOperands, if_pos his]
      refine (ih hx).imp_left ?_
      rintro ⟨y, hy, hresolved⟩
      exact ⟨y, List.mem_cons_of_mem _ hy, hresolved⟩
  | declared hplain hdeclares hfirst _ ih =>
      rcases List.mem_cons.mp hx with rfl | hx
      · exact .inl ⟨_, List.mem_cons_self, _, hfirst⟩
      rw [spareOperands, if_neg (Bool.eq_false_iff.mp (isOptions_of_resolve hbind hplain hfirst))]
      rcases ih hx with ⟨y, hy, hresolved⟩ | hspare
      · exact .inl ⟨y, List.mem_cons_of_mem _ hy, hresolved⟩
      · exact .inr (List.mem_append_right _ hspare)
  | @spare position z zs ws hplain hundeclared _ ih =>
      rw [spareOperands, if_neg (Bool.eq_false_iff.mp hplain)]
      rcases List.mem_cons.mp hx with rfl | hx
      · have hspare : isSpare op position = true := by simp [isSpare, hs, hundeclared]
        exact .inr (List.mem_append_left _ (by simp [hspare]))
      rcases ih hx with ⟨y, hy, hresolved⟩ | hspare
      · exact .inl ⟨y, List.mem_cons_of_mem _ hy, hresolved⟩
      · exact .inr (List.mem_append_right _ hspare)

section Unknown

variable {op : String} {place : Span}

/-- Settings hold literals. -/
theorem not_mentions_of_isSettings {c : Expr} (h : IsSettings c) : ¬Mentions op place c := by
  intro hmentions
  cases c with
  | options es o =>
      obtain ⟨e, he, hbelow⟩ := (mentions_options es o).mp hmentions
      have hliteral := h e he
      rcases e with ⟨k, v⟩
      cases v with
      | literal v p => exact not_mentions_literal v p hbelow
      | _ => cases hliteral
  | _ => cases h

/-- A mention in a tree that is arranged and plain is one in a spare operand of the other. -/
def SparesMentions (op : String) (place : Span) (e r : Expr) : Prop :=
  EveryClause Arranged e → e.isPlain = true → Mentions op place e → MentionsSpared op place r

theorem mentionsSpared_of_cases {ps qs : List (Expr × Expr)} {spot : Option Span}
    (h : List.Forall₂ (fun p q => SparesMentions op place p.1 q.1 ∧
      SparesMentions op place p.2 q.2) ps qs)
    (hsides : ∀ p ∈ ps, p.1.isPlain = true ∧ p.2.isPlain = true)
    (harranged : EveryClause Arranged (.pairs ps spot))
    (hmentions : Mentions op place (.pairs ps spot)) :
    MentionsSpared op place (.pairs qs spot) := by
  obtain ⟨p, hp, hside⟩ := (mentions_pairs ps spot).mp hmentions
  obtain ⟨q, hq, htest, hvalue⟩ := exists_mem_of_forall₂ h hp
  obtain ⟨hlefts, hrights⟩ := (everyClause_pairs ps spot).mp harranged p hp
  refine (mentionsSpared_pairs qs spot).mpr ⟨q, hq, hside.imp ?_ ?_⟩
  · exact htest hlefts (hsides p hp).1
  · exact hvalue hrights (hsides p hp).2

/-- **What resolution does not know.**  A clause of an operator that the catalog does not
hold is refused, or it lies in a spare operand. -/
theorem mentionsSpared_of_resolve (hbind : AnswersNames bind) (hop : signature? op = none)
    {e r : Expr} (h : resolve bind expected e = .ok r) : SparesMentions op place e r := by
  -- A clause of the catalog is not the one that is mentioned, so the mention is below it.
  have hbelow : ∀ {f xs o s}, signature? f = some s → Mentions op place (.clause f xs o) →
      ∃ x ∈ xs, Mentions op place x := by
    intro f xs o s hs hmentions
    refine ((mentions_clause f xs o).mp hmentions).resolve_left fun hroot => ?_
    rw [hroot.1, hop] at hs
    cases hs
  refine resolve_induct (motive := fun _ e r => SparesMentions op place e r)
    ?literal ?reference ?bound ?options ?pairs ?cases ?casesDefault ?flat h
  case literal => exact fun _ v o _ _ _ hmentions => absurd hmentions (not_mentions_literal v o)
  case reference =>
    exact fun _ k n o _ _ _ _ hmentions => absurd hmentions (not_mentions_reference k n o)
  case bound => exact fun _ t o _ _ hmentions => absurd hmentions (not_mentions_bound t o)
  case options => exact fun _ _ _ _ hplain => by cases hplain
  case pairs => exact fun _ _ _ _ hplain => by cases hplain
  case cases =>
    intro _ f ps qs spot o s hs _ hcond _ hcases harranged _ hmentions
    obtain ⟨hlayout, harranged⟩ := (everyClause_clause f _ o).mp harranged
    obtain ⟨x, hx, hinner⟩ := hbelow hs hmentions
    obtain rfl := List.mem_singleton.mp hx
    refine (mentionsSpared_clause _ _ _).mpr (.inr ⟨_, List.mem_cons_self, ?_⟩)
    rcases hlayout.grouped hcond with ⟨_, _, heq, hsides⟩ | ⟨_, _, _, _, heq, -⟩
    · cases heq
      exact mentionsSpared_of_cases hcases hsides (harranged _ List.mem_cons_self) hinner
    · cases heq
  case casesDefault =>
    intro _ f ps qs spot es fs spot' o s hs _ hcond _ hcases hentries harranged _ hmentions
    obtain ⟨hlayout, harranged⟩ := (everyClause_clause f _ o).mp harranged
    obtain ⟨x, hx, hinner⟩ := hbelow hs hmentions
    refine (mentionsSpared_clause _ _ _).mpr (.inr ?_)
    rcases hlayout.grouped hcond with ⟨_, _, heq, -⟩ | ⟨_, _, default, _, heq, hsides, hlast⟩
    · cases heq
    cases heq
    rcases List.mem_cons.mp hx with rfl | hx
    · exact ⟨_, List.mem_cons_self,
        mentionsSpared_of_cases hcases hsides (harranged _ List.mem_cons_self) hinner⟩
    · obtain rfl := List.mem_singleton.mp hx
      obtain ⟨v, rfl, hspares⟩ := hentries.singleton
      have hdefault : Mentions op place default := by simpa using hinner
      have hbelow' := (everyClause_options _ _).mp
        (harranged _ (List.mem_cons_of_mem _ List.mem_cons_self)) _ (List.mem_singleton_self _)
      refine ⟨_, List.mem_cons_of_mem _ List.mem_cons_self, ?_⟩
      exact (mentionsSpared_options _ _).mpr
        ⟨_, List.mem_singleton_self _, hspares hbelow' hlast hdefault⟩
  case flat =>
    intro _ f xs ys o s hs _ hflat _ hoperands ih harranged _ hmentions
    obtain ⟨hlayout, harranged⟩ := (everyClause_clause f xs o).mp harranged
    obtain ⟨x, hx, hinner⟩ := hbelow hs hmentions
    rw [mentionsSpared_clause]
    rcases (hlayout.ungrouped (hlayout.not_conditional hflat)).1 x hx with hvalue | hsettings
    · rcases hoperands.exists_of_mem_operands hbind hs hx (isOptions_of_isPlain hvalue) with
        ⟨y, hy, type, hresolved⟩ | hspare
      · exact .inr ⟨y, hy, ih x hx _ _ hresolved (harranged x hx) hvalue hinner⟩
      · exact .inl ⟨x, hspare, hinner⟩
    · exact absurd hinner (not_mentions_of_isSettings hsettings)

/-! ### Comparisons with `true` -/

/-- A name that is compared was no clause. -/
theorem carries_equalsTrue (t : BoundRef) (o : Option Span) :
    Carries op place (.bound t o) (equalsTrue (.bound t o)) := by
  refine ⟨fun h => absurd h (not_mentions_bound t o), fun h => ?_, rfl⟩
  obtain ⟨x, hx, -⟩ := h
  cases hx

/-- What becomes of an operand carries what the operand did. -/
theorem BecomesOperand.carries {x y : Expr} (h : BecomesOperand x y) : Carries op place x y := by
  have hcondition : ∀ {x y}, BecomesCondition x y → Carries op place x y := by
    rintro _ _ (_ | ⟨t, o⟩)
    · exact .refl _
    · exact carries_equalsTrue t o
  cases h with
  | condition h => exact hcondition h
  | tests ps o =>
      exact Carries.pairs (f := conditionTest) (g := id) fun p _ =>
        ⟨hcondition (becomesCondition_conditionTest p.1), .refl p.2⟩

/-- **Comparisons with `true` leave every clause where it is.** -/
theorem carries_compareConditions (e : Expr) : Carries op place e (compareConditions e) := by
  induction e with
  | literal v o =>
      rw [compareConditions, bottomUp_literal]
      exact .refl _
  | reference k n o =>
      rw [compareConditions, bottomUp_reference]
      exact .refl _
  | bound t o =>
      rw [compareConditions, bottomUp_bound]
      exact .refl _
  | clause f xs o ih =>
      obtain ⟨ys, hys, hbecomes⟩ := exists_compareConditions_clause f xs o
      rw [hys]
      refine .trans (.clause ?_) (.clause (hbecomes.imp fun _ _ h => h.carries))
      exact List.forall₂_map_right_iff.mpr (List.forall₂_same.mpr ih)
  | options es o ih =>
      rw [compareConditions, bottomUp_options]
      exact .options ih
  | pairs ps o ih =>
      rw [compareConditions, bottomUp_pairs]
      exact .pairs ih

end Unknown

/-! ### Calls of a formula -/

/-- A call of a function that nobody knows is compiled in spare operands only. -/
theorem hasCall_spared_of_compile {σ : Type} [Lookup σ] {context : Context σ} {source : String}
    {e : Expr}
    (h : compile context source = .ok e) {name : Token} (hname : name.IsUnknown)
    (hcalled : name ∈ calledNames (tokenize source).tokens) : ∃ x ∈ e.spared, x.HasCall name := by
  obtain ⟨tree, bound, hread, hresolve, rfl⟩ := compile_eq_ok_iff.mp h
  obtain ⟨close, hmentions⟩ :=
    hasCall_of_parse (readTree_eq_ok_iff.mp hread).2 hname hcalled
  obtain ⟨harranged, hplain⟩ := arranged_normalForm (raw_of_readTree hread)
  have hspared : MentionsSpared name.text (name.span.cover close) bound :=
    mentionsSpared_of_resolve context.answersNames_bind hname.2 hresolve harranged hplain
      (hmentions.normalForm hname.2)
  obtain ⟨x, hx, hcall⟩ := (carries_compareConditions bound).spared hspared
  exact ⟨x, hx, close, hcall⟩

/-- What is called by no function's name has the name of a clause, or it lies in a spare
operand. -/
theorem clause_or_spared_of_compile {σ : Type} [Lookup σ] {context : Context σ}
    {source : String} {e : Expr}
    (h : compile context source = .ok e) {name : Token}
    (hcalled : name ∈ calledNames (tokenize source).tokens)
    (hnone : clauseNamed? name.text = none) :
    (signature? name.text).isSome = true ∨ ∃ x ∈ e.spared, x.HasCall name := by
  cases hclause : signature? name.text with
  | some s => exact .inl rfl
  | none => exact .inr (hasCall_spared_of_compile h ⟨hnone, hclause⟩ hcalled)

/-- **What is called in a formula that compiles** is a function, or its text is the name of
a clause, or the call lies in a spare operand. -/
theorem called_of_compile {σ : Type} [Lookup σ] {context : Context σ} {source : String} {e : Expr}
    (h : compile context source = .ok e) {name : Token}
    (hcalled : name ∈ calledNames (tokenize source).tokens) :
    (clauseNamed? name.text).isSome = true ∨ (signature? name.text).isSome = true ∨
      ∃ x ∈ e.spared, x.HasCall name := by
  cases hfunction : clauseNamed? name.text with
  | some op => exact .inl rfl
  | none => exact .inr (clause_or_spared_of_compile h hcalled hfunction)

/-- Words that are the names of clauses, but of no function. -/
example : ∀ name ∈ ["avg", "stddev", "var"],
    clauseNamed? name = none ∧ (signature? name).isSome = true := by
  decide +kernel

/-- The name of a function that is called at the beginning of a formula. -/
def leadingName (text : String) : Token :=
  ⟨.identifier, text, ⟨0, byteLength text.toList⟩⟩

/-- An average, called by the name of the function. -/
theorem called_of_compile_average :
    ∃ e name, compile ordersAggregation "Average([Total])" = .ok e ∧
      name ∈ calledNames (tokenize "Average([Total])").tokens ∧
      ((clauseNamed? name.text).isSome = true ∨ (signature? name.text).isSome = true ∨
        ∃ x ∈ e.spared, x.HasCall name) := by
  obtain ⟨e, he, -⟩ := exists_ok_of_any
    (show (compile ordersAggregation "Average([Total])").toOption.any (fun _ => true) = true by
      decide +kernel)
  have hcalled : leadingName "Average" ∈ calledNames (tokenize "Average([Total])").tokens := by
    decide +kernel
  exact ⟨e, leadingName "Average", he, hcalled, called_of_compile he hcalled⟩

/-- The name of a clause passes for that of a function, and in a spare operand of an
interval any name does. -/
theorem compile_no_function :
    ((∃ e, compile ordersAggregation "avg([Total])" = .ok e) ∧
      leadingName "avg" ∈ calledNames (tokenize "avg([Total])").tokens ∧
      clauseNamed? "avg" = none) ∧
    ((∃ e, compile ordersFilter "interval([Created], 1, \"day\", nope(1))" = .ok e) ∧
      (⟨.identifier, "nope", ⟨30, 34⟩⟩ : Token) ∈
        calledNames (tokenize "interval([Created], 1, \"day\", nope(1))").tokens ∧
      clauseNamed? "nope" = none) := by
  obtain ⟨average, haverage, -⟩ := exists_ok_of_any
    (show (compile ordersAggregation "avg([Total])").toOption.any (fun _ => true) = true by
      decide +kernel)
  obtain ⟨interval, hinterval, -⟩ := exists_ok_of_any
    (show (compile ordersFilter "interval([Created], 1, \"day\", nope(1))").toOption.any
      (fun _ => true) = true by decide +kernel)
  refine ⟨⟨⟨average, haverage⟩, ?_, ?_⟩, ⟨interval, hinterval⟩, ?_, ?_⟩
  all_goals decide +kernel

end QueryFormula
