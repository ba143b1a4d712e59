import Mathlib.Data.List.Forall2
import QueryFormula.Proofs.NormalForm.Idempotence
import QueryFormula.Proofs.NormalForm.Listing

/-!
# What a normal form looks like

Every clause of a normal form has its operands where a query wants them (`Shaped`), whatever
the operands of the clause were in the tree, and the conditionals of the normal form are those
of the tree with their operands in pairs (`GroupedFrom`): `shaped_normalForm`.

The clauses are spelled by their names here; that these are the clauses which the steps of the
normal form single out is a matter of the catalog.
-/

namespace QueryFormula

open QueryFormula.Expr

/-! ### The operands of a clause -/

/-- The clauses that hold exactly where another does not. -/
def invertibleClauses : List String :=
  ["is-null", "not-null", "is-empty", "not-empty", "contains", "does-not-contain"]

/-- The clauses that look for texts in a text. -/
def searchClauses : List String :=
  ["contains", "does-not-contain", "starts-with", "ends-with"]

/-- The operands but for options. -/
def positional (operands : List Expr) : List Expr :=
  operands.filter fun x => !x.isOptions

/-- How the operands of a clause of a normal form stand. -/
structure Shaped (op : String) (operands : List Expr) : Prop where
  /-- No `not` goes further down. -/
  negation : op = "not" → ∀ f ys o, operands = [.clause f ys o] →
    ¬(f = "not" ∧ ys.length = 1) ∧ f ∉ invertibleClauses
  offset : op = "offset" → ∃ c, c.isOptions = true ∧ operands = c :: positional operands
  searchMany : op ∈ searchClauses → 2 < (positional operands).length →
    ∃ c, c.isOptions = true ∧ operands = c :: positional operands
  searchFew : op ∈ searchClauses → (positional operands).length ≤ 2 →
    operands = positional operands ∨
    ∃ c, c.isOptions = true ∧ operands = positional operands ++ [c]
  interval : op = "time-interval" → operands = positional operands ∨
    ∃ c, c.isOptions = true ∧ operands = positional operands ++ [c]
  options : op ∉ "case" :: "if" :: "offset" :: "time-interval" :: searchClauses →
    ∀ x ∈ operands, x.isOptions = false
  pairs : op ∉ ["case", "if"] → ∀ x ∈ operands, x.isPairs = false

theorem positional_of_plain {op : String} {xs : List Expr} (h : PlainOperands op xs) :
    positional xs = xs :=
  List.filter_eq_self.mpr fun x hx => by rw [isOptions_of_isPlain (h x hx), Bool.not_false]

theorem positional_cons {op : String} {xs : List Expr} {c : Expr} (hc : c.isOptions = true)
    (h : PlainOperands op xs) : positional (c :: xs) = xs := by
  rw [positional, List.filter_cons_of_neg (by simp [hc])]
  exact positional_of_plain h

theorem positional_concat {op : String} {xs : List Expr} {c : Expr} (hc : c.isOptions = true)
    (h : PlainOperands op xs) : positional (xs ++ [c]) = xs := by
  rw [positional, List.filter_append, List.filter_cons_of_neg (by simp [hc]), List.filter_nil,
    List.append_nil]
  exact positional_of_plain h

/-! ### Clauses by their names -/

theorem isSearch_iff {op : String} : isSearch op = true ↔ op ∈ searchClauses := by
  constructor
  · intro h
    have hrows : ∀ s ∈ catalog,
        (s.variadic && s.takesOptions) = true → s.name ∈ searchClauses := by decide
    cases hs : signature? op with
    | none =>
        rw [isSearch, hs] at h
        cases h
    | some s =>
        rw [isSearch, hs, Option.any_some] at h
        rw [← (mem_catalog_of_signature? hs).2]
        exact of_signature? hrows hs h
  · intro h
    simp only [searchClauses, List.mem_cons, List.not_mem_nil, or_false] at h
    rcases h with rfl | rfl | rfl | rfl <;> rfl

/-- The clauses with options. -/
theorem mem_of_takesOptions {op : String} {s : Signature} (h : signature? op = some s)
    (htakes : s.takesOptions = true) : op ∈ "time-interval" :: searchClauses := by
  have hrows : ∀ s ∈ catalog,
      s.takesOptions = true → s.name ∈ "time-interval" :: searchClauses := by decide
  rw [← (mem_catalog_of_signature? h).2]
  exact of_signature? hrows h htakes

/-- Conditionals are spelled apart from the clauses with options. -/
theorem not_mem_of_isConditional {op : String} (h : isConditional op = true) :
    op ∈ ["case", "if"] ∧ op ≠ "offset" ∧ op ≠ "time-interval" ∧
      op ∉ searchClauses := by
  rcases isConditional_iff.mp h with rfl | rfl <;> decide

/-- A `not` goes into the clauses with an opposite, and into another `not`. -/
theorem isNegatable_clause {f : String} {ys : List Expr} {o : Option Span}
    (h : isNegatable (.clause f ys o) = false) :
    ¬(f = "not" ∧ ys.length = 1) ∧ f ∉ invertibleClauses := by
  constructor
  · rintro ⟨rfl, hlength⟩
    obtain ⟨y, rfl⟩ := List.length_eq_one_iff.mp hlength
    cases h
  · intro hmem
    simp only [invertibleClauses, List.mem_cons, List.not_mem_nil, or_false] at hmem
    rcases hmem with rfl | rfl | rfl | rfl | rfl | rfl <;> cases h

theorem Unnegated.shaped {op : String} {xs : List Expr} (h : Unnegated op xs) :
    op = "not" → ∀ f ys o, xs = [.clause f ys o] →
      ¬(f = "not" ∧ ys.length = 1) ∧ f ∉ invertibleClauses :=
  fun hop _ _ _ hxs => isNegatable_clause (h hop _ hxs)

/-- Options are no grouped cases. -/
theorem isPairs_of_isOptions {c : Expr} (h : c.isOptions = true) : c.isPairs = false := by
  cases c <;> first | rfl | cases h

/-- Where the operands of a conditional stand is said elsewhere. -/
theorem Shaped.ofConditional {op : String} {xs : List Expr} (h : isConditional op = true)
    (hneg : Unnegated op xs) : Shaped op xs := by
  obtain ⟨hcond, hoffset, hinterval, hsearch⟩ := not_mem_of_isConditional h
  exact {
    negation := hneg.shaped
    offset := fun hop => absurd hop hoffset
    searchMany := fun hop => absurd hop hsearch
    searchFew := fun hop => absurd hop hsearch
    interval := fun hop => absurd hop hinterval
    options := fun hop => absurd
      (List.mem_append_left ("offset" :: "time-interval" :: searchClauses) hcond) hop
    pairs := fun hop => absurd hcond hop }

/-- **Arranged operands** stand as they should. -/
theorem Arranged.shaped {op : String} {xs : List Expr} (h : Arranged op xs)
    (hneg : Unnegated op xs) : Shaped op xs := by
  cases h with
  | plain hplain hoffset hcond hfew =>
      have hall := positional_of_plain hplain
      exact {
        negation := hneg.shaped
        offset := fun hop => absurd hop hoffset
        searchMany := fun hop hmany => by
          have hfew := hfew (isSearch_iff.mpr hop)
          rw [hall] at hmany
          omega
        searchFew := fun _ _ => .inl hall.symm
        interval := fun _ => .inl hall.symm
        options := fun _ x hx => isOptions_of_isPlain (hplain x hx)
        pairs := fun _ x hx => isPairs_of_isPlain (hplain x hx) }
  | @trailing s ys c hplain hfound htakes hfew _ his =>
      have hvalues := positional_concat his.isOptions hplain
      have hmem := mem_of_takesOptions hfound htakes
      have hlast : ys ++ [c] = positional (ys ++ [c]) ∨
          ∃ c', c'.isOptions = true ∧ ys ++ [c] = positional (ys ++ [c]) ++ [c'] :=
        .inr ⟨c, his.isOptions, by rw [hvalues]⟩
      exact {
        negation := hneg.shaped
        offset := fun hop => absurd hop (name_of_takesOptions hfound htakes).2.1
        searchMany := fun hop hmany => by
          have hfew := hfew (isSearch_iff.mpr hop)
          rw [hvalues] at hmany
          omega
        searchFew := fun _ _ => hlast
        interval := fun _ => hlast
        options := fun hop => absurd (List.mem_cons_of_mem _ (List.mem_cons_of_mem _
          (List.mem_cons_of_mem _ hmem))) hop
        pairs := fun _ => List.forall_mem_append.mpr
          ⟨fun x hx => isPairs_of_isPlain (hplain x hx),
            List.forall_mem_singleton.mpr (isPairs_of_isOptions his.isOptions)⟩ }
  | @leading ys c hplain hsearch hmany his =>
      have hvalues := positional_cons his.isOptions hplain
      have hmem := isSearch_iff.mp hsearch
      exact {
        negation := hneg.shaped
        offset := fun hop => by
          rw [hop, isSearch_offset] at hsearch
          cases hsearch
        searchMany := fun _ _ => ⟨c, his.isOptions, by rw [hvalues]⟩
        searchFew := fun _ hfew => by
          rw [hvalues] at hfew
          omega
        interval := fun hop => by
          rw [hop] at hmem
          exact absurd hmem (by decide)
        options := fun hop => absurd (List.mem_append_right
          ["case", "if", "offset", "time-interval"] hmem) hop
        pairs := fun _ => List.forall_mem_cons.mpr
          ⟨isPairs_of_isOptions his.isOptions, fun x hx => isPairs_of_isPlain (hplain x hx)⟩ }
  | @offset ys hop hplain =>
      subst hop
      exact {
        negation := hneg.shaped
        offset := fun _ => ⟨noOptions, rfl, by rw [positional_cons rfl hplain]⟩
        searchMany := fun hop => absurd hop (by decide)
        searchFew := fun hop => absurd hop (by decide)
        interval := fun hop => absurd hop (by decide)
        options := fun hop => absurd hop (by decide)
        pairs := fun _ => List.forall_mem_cons.mpr
          ⟨rfl, fun x hx => isPairs_of_isPlain (hplain x hx)⟩ }
  | cases hcond _ => exact .ofConditional hcond hneg
  | casesDefault hcond _ _ => exact .ofConditional hcond hneg

/-! ### Conditionals -/

/-- A conditional of a tree. -/
structure Conditional where
  operator : String
  operands : List Expr
  origin : Option Span

/-- The conditional, if the node is one. -/
def conditional? : Expr → Option Conditional
  | .clause op xs o => if isConditional op then some ⟨op, xs, o⟩ else none
  | _ => none

/-- The conditionals of the tree, from left to right. -/
def Expr.conditionals (e : Expr) : List Conditional :=
  e.listed conditional?

/-- The second conditional is the first one with its operands in pairs, and the one left over
under the key `default`. -/
structure GroupedFrom (flat grouped : Conditional) : Prop where
  operator : grouped.operator = flat.operator
  origin : grouped.origin = flat.origin
  even : flat.operands.length % 2 = 0 → ∃ ps place,
    grouped.operands = [.pairs ps place] ∧ ps.length = flat.operands.length / 2
  odd : flat.operands.length % 2 = 1 → ∃ ps place default spot,
    grouped.operands = [.pairs ps place, .options [("default", default)] spot] ∧
      ps.length = flat.operands.length / 2

/-- How many operands there are, or were before they were grouped. -/
def operandCount : List Expr → Nat
  | .pairs ps _ :: rest => 2 * ps.length + rest.length
  | xs => xs.length

theorem operandCount_of_plain {op : String} {xs : List Expr} (h : PlainOperands op xs) :
    operandCount xs = xs.length := by
  unfold operandCount
  split
  · have hpairs := isPairs_of_isPlain (h _ List.mem_cons_self)
    cases hpairs
  · rfl

theorem length_pairUp : ∀ xs : List Expr,
    2 * (pairUp xs).1.length + (pairUp xs).2.toList.length = xs.length
  | [] => rfl
  | [_] => rfl
  | test :: value :: rest => by
      have hrest := length_pairUp rest
      simp only [pairUp, List.length_cons]
      omega

theorem operandCount_groupCases (xs : List Expr) : operandCount (groupCases xs) = xs.length := by
  rw [← length_pairUp xs, groupCases]
  rcases pairUp xs with ⟨cases, _ | default⟩ <;> rfl

/-- A conditional without its operands but with their number. -/
def Conditional.outline (c : Conditional) : String × Option Span × Nat :=
  (c.operator, c.origin, operandCount c.operands)

/-- What is shown of the conditionals of a tree. -/
def conditionalOutline? (e : Expr) : Option (String × Option Span × Nat) :=
  (conditional? e).map Conditional.outline

theorem map_outline_conditionals (e : Expr) :
    e.conditionals.map Conditional.outline = e.listed conditionalOutline? :=
  List.map_filterMap ..

theorem isKept_conditionalOutline : IsKept conditionalOutline? where
  options _ _ := rfl
  pairs _ _ := rfl
  unplaced _ := rfl
  clause h _ _ := by simp [conditionalOutline?, conditional?, h]
  rebuilt hxs hys hlength _ := by
    simp [conditionalOutline?, conditional?, Conditional.outline, operandCount_of_plain hxs,
      operandCount_of_plain hys, hlength, apply_ite]
  grouped hxs _ := by
    simp [conditionalOutline?, conditional?, Conditional.outline, operandCount_of_plain hxs,
      operandCount_groupCases, apply_ite]

/-- The normal form has the conditionals of the tree, each with as many operands. -/
theorem outlines_normalForm {e : Expr} (h : e.Written) :
    (normalForm e).conditionals.map Conditional.outline =
      e.conditionals.map Conditional.outline := by
  rw [map_outline_conditionals, map_outline_conditionals,
    isKept_conditionalOutline.listed_normalForm h,
    isKept_conditionalOutline.listed_spellOutShorthands (fun _ _ => rfl) h.raw.2]

/-- A conditional of the tree is one of its clauses. -/
theorem of_mem_conditionals {L : String → List Expr → Prop} {e : Expr} (h : EveryClause L e)
    {c : Conditional} (hc : c ∈ e.conditionals) :
    isConditional c.operator = true ∧ L c.operator c.operands := by
  obtain ⟨x, hx, hcond⟩ := List.mem_filterMap.mp hc
  have hroot := h x hx
  cases x with
  | clause op xs o =>
      rw [conditional?] at hcond
      split at hcond
      · rename_i hop
        cases hcond
        exact ⟨hop, hroot⟩
      · cases hcond
  | _ => cases hcond

/-- Two conditionals with one outline, the second one arranged. -/
theorem groupedFrom_of_outline {flat grouped : Conditional}
    (hplain : PlainOperands flat.operator flat.operands)
    (hcond : isConditional grouped.operator = true)
    (harranged : Arranged grouped.operator grouped.operands)
    (h : flat.outline = grouped.outline) : GroupedFrom flat grouped := by
  obtain ⟨hoperator, horigin, hcount⟩ : flat.operator = grouped.operator ∧
      flat.origin = grouped.origin ∧
      operandCount flat.operands = operandCount grouped.operands := by
    simpa [Conditional.outline] using h
  rw [operandCount_of_plain hplain] at hcount
  rcases harranged.grouped hcond with
    ⟨ps, place, hps, -⟩ | ⟨ps, place, default, spot, hps, -, -⟩
  · have hlength : flat.operands.length = 2 * ps.length := by rw [hcount, hps]; rfl
    exact ⟨hoperator.symm, horigin.symm, fun _ => ⟨ps, place, hps, by omega⟩,
      fun hodd => by omega⟩
  · have hlength : flat.operands.length = 2 * ps.length + 1 := by rw [hcount, hps]; rfl
    exact ⟨hoperator.symm, horigin.symm, fun heven => by omega,
      fun _ => ⟨ps, place, default, spot, hps, by omega⟩⟩

/-- **The conditionals of a normal form** are those of the tree, one by one. -/
theorem groupedFrom_normalForm {e : Expr} (h : e.Written) :
    List.Forall₂ GroupedFrom e.conditionals (normalForm e).conditionals := by
  have houtlines : List.Forall₂ (fun c d => Conditional.outline c = Conditional.outline d)
      e.conditionals (normalForm e).conditionals := by
    have heq := (outlines_normalForm h).symm
    rwa [← List.forall₂_eq_eq_eq, List.forall₂_map_left_iff,
      List.forall₂_map_right_iff] at heq
  refine List.forall₂_iff_zip.mpr ⟨houtlines.length_eq, fun hpair => ?_⟩
  obtain ⟨hflat, hgrouped⟩ := List.of_mem_zip hpair
  obtain ⟨hcond, harranged⟩ := of_mem_conditionals (arranged_normalForm h.raw).1 hgrouped
  exact groupedFrom_of_outline (of_mem_conditionals h.raw.2 hflat).2 hcond harranged
    (List.forall₂_zip houtlines hpair)

theorem everyClause_shaped_normalForm {e : Expr} (h : e.Raw) :
    EveryClause Shaped (normalForm e) := by
  intro x hx
  have harranged := (arranged_normalForm h).1 x hx
  have hsettled := (settled_normalForm e).1 x hx
  cases x with
  | clause op xs o => exact Arranged.shaped harranged hsettled.negation
  | _ => trivial

/-- **The shape of a normal form.**  Its clauses have their operands where they should be, its
conditionals are those of the tree, in pairs, and the formula itself is a clause or a name. -/
theorem shaped_normalForm {source : String} {tokens : List Token} {tree : Expr}
    (h : parse source tokens = .ok tree) :
    EveryClause Shaped (normalForm tree) ∧
    List.Forall₂ GroupedFrom tree.conditionals (normalForm tree).conditionals ∧
    (normalForm tree).isLiteral = false ∧ (normalForm tree).isOptions = false ∧
      (normalForm tree).isPairs = false := by
  have hwritten := written_of_parse h
  have hplain := (arranged_normalForm hwritten.raw).2
  exact ⟨everyClause_shaped_normalForm hwritten.raw, groupedFrom_normalForm hwritten,
    (settled_normalForm tree).2, isOptions_of_isPlain hplain, isPairs_of_isPlain hplain⟩

/-- A conditional of three operands, with a search for two texts in the first. -/
def searchForTwo : String :=
  "if(not not contains([A], \"b\", \"c\", \"case-insensitive\"), 1, 2)"

theorem shaped_normalForm_search :
    ∃ tree, parse searchForTwo (tokenize searchForTwo).tokens = .ok tree ∧
      (tree.conditionals.map (·.operands.length)) = [3] ∧
      EveryClause Shaped (normalForm tree) ∧
      List.Forall₂ GroupedFrom tree.conditionals (normalForm tree).conditionals ∧
      (normalForm tree).isLiteral = false ∧ (normalForm tree).isOptions = false ∧
        (normalForm tree).isPairs = false := by
  obtain ⟨tree, htree, hcount⟩ := exists_ok_of_any
    (show (parse searchForTwo (tokenize searchForTwo).tokens).toOption.any
      (fun tree => tree.conditionals.map (·.operands.length) == [3]) = true by decide +kernel)
  exact ⟨tree, htree, beq_iff_eq.mp hcount, shaped_normalForm htree⟩

end QueryFormula
