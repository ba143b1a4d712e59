import QueryFormula.Catalog.Signature
import QueryFormula.Proofs.Expr.Nodes
import QueryFormula.Proofs.Json.Double
import QueryFormula.Proofs.Lists

/-!
# The JSON text of a tree tells the tree

Nodes of eight kinds are written as texts, numbers, truth values, arrays and objects.  The kind
can be told from the JSON form, if the operators of clauses are in the catalog: no word at the
head of a name is the name of a clause (`kind_toJson`).  So trees of one text are alike, but for
their origins and for numbers that are written in the same way (`json_eq_iff`).
-/

namespace QueryFormula

/-! ### The kind of a node -/

/-- What a node of a tree is. -/
inductive NodeKind where
  | text
  | number
  | boolean
  | reference
  | bound
  | clause
  | options
  | pairs
deriving DecidableEq

/-- The kind of a literal. -/
def Literal.kind : Literal → NodeKind
  | text _ => .text
  | number _ | float _ => .number
  | boolean _ => .boolean

/-- The kind of a node. -/
def Expr.kind : Expr → NodeKind
  | literal value _ => value.kind
  | reference _ _ _ => .reference
  | bound _ _ => .bound
  | clause _ _ _ => .clause
  | options _ _ => .options
  | pairs _ _ => .pairs

/-- The kind of the nodes with this JSON form.  An array is headed by the name of a clause, or by
another word, or it holds grouped cases; a name without more than its word and a text is not
bound. -/
def Json.kind : Json → NodeKind
  | string _ => .text
  | boolean _ => .boolean
  | object _ => .options
  | array (.string word :: more) =>
    if (signature? word).isSome then .clause
    else
      match more with
      | [.string _] => .reference
      | _ => .bound
  | array _ => .pairs
  | number _ | null | unpaired => .number

theorem Json.kind_ofDouble (x : Double) : (ofDouble x).kind = .number := by
  unfold ofDouble finite?
  cases jsonFloat.write? x <;> rfl

theorem Json.kind_ofDecimal (x : Decimal) : (ofDecimal x).kind = .number := by
  obtain ⟨text, htext, -⟩ := exists_number_ofDecimal x
  rw [htext]
  rfl

theorem Literal.kind_toJson (v : Literal) : v.toJson.kind = v.kind := by
  cases v with
  | text s => rfl
  | number x => exact Json.kind_ofDecimal x
  | float x => exact Json.kind_ofDouble x
  | boolean b => rfl

namespace Expr

/-- The operator is in the catalog. -/
def KnownOperator (op : String) (_ : List Expr) : Prop :=
  (signature? op).isSome = true

/-- **The JSON form tells the kind** of a node. -/
theorem kind_toJson {e : Expr} (h : EveryClause KnownOperator e) : e.toJson.kind = e.kind := by
  cases e with
  | literal v o => exact v.kind_toJson
  | reference kind name o => cases kind <;> rfl
  | bound target o => cases target <;> rfl
  | clause op xs o => exact if_pos ((everyClause_clause op xs o).mp h).1
  | options es o => rfl
  | pairs ps o => cases ps <;> rfl

end Expr

/-! ### Trees that are written in the same way -/

/-- Two trees are alike but for their origins, and for numbers that are written in the same
way. -/
inductive SameButNumbers : Expr → Expr → Prop
  | text (s : String) (o p : Option Span) :
      SameButNumbers (.literal (.text s) o) (.literal (.text s) p)
  | boolean (b : Bool) (o p : Option Span) :
      SameButNumbers (.literal (.boolean b) o) (.literal (.boolean b) p)
  | number {v w : Literal} {o p : Option Span} (left : v.kind = .number) (right : w.kind = .number)
      (texts : (Expr.literal v o).json = (Expr.literal w p).json) :
      SameButNumbers (.literal v o) (.literal w p)
  | reference (kind : NameKind) (name : String) (o p : Option Span) :
      SameButNumbers (.reference kind name o) (.reference kind name p)
  | bound (target : BoundRef) (o p : Option Span) :
      SameButNumbers (.bound target o) (.bound target p)
  | clause (op : String) {xs ys : List Expr} (o p : Option Span)
      (operands : List.Forall₂ SameButNumbers xs ys) :
      SameButNumbers (.clause op xs o) (.clause op ys p)
  | options {es fs : List (String × Expr)} (o p : Option Span)
      (keys : es.map Prod.fst = fs.map Prod.fst)
      (values : List.Forall₂ SameButNumbers (es.map Prod.snd) (fs.map Prod.snd)) :
      SameButNumbers (.options es o) (.options fs p)
  | pairs {ps qs : List (Expr × Expr)} (o p : Option Span)
      (tests : List.Forall₂ SameButNumbers (ps.map Prod.fst) (qs.map Prod.fst))
      (values : List.Forall₂ SameButNumbers (ps.map Prod.snd) (qs.map Prod.snd)) :
      SameButNumbers (.pairs ps o) (.pairs qs p)

/-! ### From the text to the tree -/

theorem NameKind.name_inj {k l : NameKind} (h : k.name = l.name) : k = l := by
  revert h
  cases k <;> cases l <;> decide

/-- The JSON form of a bound name tells the target. -/
theorem BoundRef.toJson_inj {s t : BoundRef} (h : s.toJson = t.toJson) : s = t := by
  cases s <;> cases t <;> simp only [BoundRef.toJson] at h <;> grind [Json.ofInt_toInt_inj]

theorem BoundRef.readable_toJson (t : BoundRef) : t.toJson.Readable := by
  cases t <;> simp [BoundRef.toJson, Json.Readable.string]

namespace Expr

/-- **The JSON form of a tree** can be read from its text. -/
theorem readable_toJson (e : Expr) : e.toJson.Readable := by
  induction e with
  | literal v o =>
      cases v with
      | text s => exact .string s
      | number x =>
          obtain ⟨-, -, hreadable⟩ := Json.exists_number_ofDecimal x
          exact hreadable
      | float x => exact Json.readable_ofDouble x
      | boolean b => exact .boolean b
  | reference kind name o =>
      exact .array (by simp [Json.Readable.string])
  | bound target o => exact target.readable_toJson
  | clause op xs o ih =>
      rw [toJson, toJsonAll_eq_map]
      exact .array (List.forall_mem_cons.mpr ⟨.string op, List.forall_mem_map.mpr ih⟩)
  | options es o ih =>
      rw [toJson, toJsonEntries_eq_map]
      exact .object (List.forall_mem_map.mpr ih)
  | pairs ps o ih =>
      rw [toJson, toJsonPairs_eq_map]
      refine .array (List.forall_mem_map.mpr fun p hp => .array ?_)
      simpa using ih p hp

/-- Two nodes of one kind. -/
inductive SameKind : Expr → Expr → Prop
  | literal (v w : Literal) (o p : Option Span) (kind : v.kind = w.kind) :
      SameKind (.literal v o) (.literal w p)
  | reference (k l : NameKind) (m n : String) (o p : Option Span) :
      SameKind (.reference k m o) (.reference l n p)
  | bound (s t : BoundRef) (o p : Option Span) : SameKind (.bound s o) (.bound t p)
  | clause (f g : String) (xs ys : List Expr) (o p : Option Span) :
      SameKind (.clause f xs o) (.clause g ys p)
  | options (es fs : List (String × Expr)) (o p : Option Span) :
      SameKind (.options es o) (.options fs p)
  | pairs (ps qs : List (Expr × Expr)) (o p : Option Span) : SameKind (.pairs ps o) (.pairs qs p)

theorem sameKind_iff {e e' : Expr} : SameKind e e' ↔ e.kind = e'.kind := by
  constructor
  · rintro (hkind | _ | _ | _ | _ | _)
    · assumption
    all_goals rfl
  · intro h
    cases e with
    | literal v o =>
        cases e' with
        | literal w p => exact .literal v w o p h
        | _ => cases v <;> cases h
    | _ =>
        cases e' with
        | literal w p => cases w <;> cases h
        | _ => first | constructor | cases h

/-- Trees of one JSON form are of one kind. -/
theorem sameKind_of_toJson {e e' : Expr} (he : EveryClause KnownOperator e)
    (he' : EveryClause KnownOperator e') (h : e.toJson = e'.toJson) : SameKind e e' := by
  rw [sameKind_iff, ← kind_toJson he, ← kind_toJson he', h]

/-- Literals of one kind and one JSON form are one, or they are numbers. -/
theorem sameButNumbers_literal {v w : Literal} {o p : Option Span} (hkind : v.kind = w.kind)
    (h : v.toJson = w.toJson) : SameButNumbers (literal v o) (literal w p) := by
  have htexts : (literal v o).json = (literal w p).json := congrArg Json.compact h
  cases v with
  | text s =>
      cases w with
      | text r =>
          cases h
          exact .text s o p
      | _ => cases hkind
  | boolean b =>
      cases w with
      | boolean c =>
          cases h
          exact .boolean b o p
      | _ => cases hkind
  | number x => exact .number rfl hkind.symm htexts
  | float x => exact .number rfl hkind.symm htexts

/-- **Trees of one JSON form** are alike but for numbers.  By induction over one of them: its
kind is that of the other, so parts stand against parts. -/
theorem sameButNumbers_of_toJson {e e' : Expr} (he : EveryClause KnownOperator e)
    (he' : EveryClause KnownOperator e') (h : e.toJson = e'.toJson) : SameButNumbers e e' := by
  induction e generalizing e' with
  | literal v o =>
      cases sameKind_of_toJson he he' h with
      | literal _ w _ p hkind => exact sameButNumbers_literal hkind h
  | reference k m o =>
      cases sameKind_of_toJson he he' h with
      | reference _ l _ n _ p =>
          simp only [toJson, Json.array.injEq, List.cons.injEq, Json.string.injEq, and_true] at h
          obtain ⟨hkinds, rfl⟩ := h
          cases NameKind.name_inj hkinds
          exact .reference k m o p
  | bound s o =>
      cases sameKind_of_toJson he he' h with
      | bound _ t _ p =>
          cases BoundRef.toJson_inj h
          exact .bound s o p
  | clause f xs o ih =>
      cases sameKind_of_toJson he he' h with
      | clause _ g _ ys _ p =>
          have hxs := ((everyClause_clause f xs o).mp he).2
          have hys := ((everyClause_clause g ys p).mp he').2
          simp only [toJson, toJsonAll_eq_map, Json.array.injEq, List.cons.injEq,
            Json.string.injEq] at h
          obtain ⟨rfl, hoperands⟩ := h
          refine .clause f o p (forall₂_of_map_eq hoperands fun x hx y hy => ?_)
          exact ih x hx (hxs x hx) (hys y hy)
  | options es o ih =>
      cases sameKind_of_toJson he he' h with
      | options _ fs _ p =>
          rw [everyClause_options] at he he'
          simp only [toJson, toJsonEntries_eq_map, Json.object.injEq] at h
          have hkeys : es.map Prod.fst = fs.map Prod.fst := by
            simpa [Function.comp_def] using congrArg (List.map Prod.fst) h
          refine .options o p hkeys ?_
          rw [List.forall₂_map_left_iff, List.forall₂_map_right_iff]
          refine forall₂_of_map_eq h fun x hx y hy hxy => ?_
          exact ih x hx (he x hx) (he' y hy) (Prod.mk.inj hxy).2
  | pairs ps o ih =>
      cases sameKind_of_toJson he he' h with
      | pairs _ qs _ p =>
          rw [everyClause_pairs] at he he'
          simp only [toJson, toJsonPairs_eq_map, Json.array.injEq] at h
          have hcases : List.Forall₂ (fun x y => SameButNumbers x.1 y.1 ∧ SameButNumbers x.2 y.2)
              ps qs := by
            refine forall₂_of_map_eq h fun x hx y hy hxy => ?_
            simp only [Json.array.injEq, List.cons.injEq, and_true] at hxy
            exact ⟨(ih x hx).1 (he x hx).1 (he' y hy).1 hxy.1,
              (ih x hx).2 (he x hx).2 (he' y hy).2 hxy.2⟩
          refine .pairs o p ?_ ?_
          · rw [List.forall₂_map_left_iff, List.forall₂_map_right_iff]
            exact hcases.imp fun _ _ h => h.1
          · rw [List.forall₂_map_left_iff, List.forall₂_map_right_iff]
            exact hcases.imp fun _ _ h => h.2

/-! ### From the tree to the text -/

/-- Grouped cases are written position by position. -/
theorem toJsonPairs_eq_zipWith (ps : List (Expr × Expr)) :
    toJsonPairs ps = List.zipWith (fun test value => .array [test, value])
      ((ps.map Prod.fst).map toJson) ((ps.map Prod.snd).map toJson) := by
  simp only [toJsonPairs_eq_map, List.zipWith_map, List.zipWith_self]

/-- Entries are written position by position. -/
theorem toJsonEntries_eq_zip (es : List (String × Expr)) :
    toJsonEntries es = (es.map Prod.fst).zip ((es.map Prod.snd).map toJson) := by
  rw [toJsonEntries_eq_map, List.map_map, List.zip_map']
  rfl

theorem map_toJson_eq {xs ys : List Expr} (h : List.Forall₂ SameButNumbers xs ys)
    (hxs : ∀ x ∈ xs, ∀ {y}, SameButNumbers x y → x.toJson = y.toJson) :
    xs.map toJson = ys.map toJson := by
  induction h with
  | nil => rfl
  | cons hx _ ih =>
      obtain ⟨hfirst, hothers⟩ := List.forall_mem_cons.mp hxs
      rw [List.map_cons, List.map_cons, hfirst hx, ih hothers]

/-- **Trees that are alike but for numbers** have one JSON form. -/
theorem toJson_eq_of_sameButNumbers {e e' : Expr} (h : SameButNumbers e e') :
    e.toJson = e'.toJson := by
  induction e generalizing e' with
  | literal v o =>
      cases h with
      | text | boolean => rfl
      | number _ _ texts => exact (readable_toJson _).eq_of_compact (readable_toJson _) texts
  | reference k n o =>
      cases h
      rfl
  | bound t o =>
      cases h
      rfl
  | clause f xs o ih =>
      cases h with
      | clause _ _ _ operands =>
          rw [toJson, toJson, toJsonAll_eq_map, toJsonAll_eq_map, map_toJson_eq operands ih]
  | options es o ih =>
      cases h with
      | options _ _ keys values =>
          rw [toJson, toJson, toJsonEntries_eq_zip, toJsonEntries_eq_zip, keys,
            map_toJson_eq values (List.forall_mem_map.mpr ih)]
  | pairs ps o ih =>
      cases h with
      | pairs _ _ tests values =>
          rw [toJson, toJson, toJsonPairs_eq_zipWith, toJsonPairs_eq_zipWith,
            map_toJson_eq tests (List.forall_mem_map.mpr fun p hp => (ih p hp).1),
            map_toJson_eq values (List.forall_mem_map.mpr fun p hp => (ih p hp).2)]

/-- **The JSON text loses nothing but the way numbers are kept.**  Trees whose operators are in
the catalog have one text if and only if they are alike but for numbers that are written in the
same way; doubles that are no finite numbers are all written as `null`, and nothing else is. -/
theorem json_eq_iff {e e' : Expr} (he : EveryClause KnownOperator e)
    (he' : EveryClause KnownOperator e') : e.json = e'.json ↔ SameButNumbers e e' := by
  constructor
  · intro htexts
    have hforms := (readable_toJson e).eq_of_compact (readable_toJson e') htexts
    exact sameButNumbers_of_toJson he he' hforms
  · intro h
    exact congrArg Json.compact (toJson_eq_of_sameButNumbers h)

/-- A sum, with a number that is written to this many places. -/
def paddedSum (coefficient scale : Nat) (h : coefficient < coefficientBound) (h' : scale ≤ 28) :
    Expr :=
  clause "+" [reference .dimension "Total" none,
    literal (.number ⟨false, coefficient, scale, h, h'⟩) none] none

/-- The sums of `Total` with `2.5` and with `2.50` are alike. -/
theorem json_eq_iff_paddedSum :
    EveryClause KnownOperator (paddedSum 25 1 (by decide) (by decide)) ∧
    EveryClause KnownOperator (paddedSum 250 2 (by decide) (by decide)) ∧
    (paddedSum 25 1 (by decide) (by decide)).json = "[\"+\",[\"dimension\",\"Total\"],2.5]" ∧
    SameButNumbers (paddedSum 25 1 (by decide) (by decide))
      (paddedSum 250 2 (by decide) (by decide)) := by
  have hknown : ∀ coefficient scale h h',
      EveryClause KnownOperator (paddedSum coefficient scale h h') := by
    intro coefficient scale h h'
    simp [paddedSum, KnownOperator]
    decide
  have htext : (paddedSum 25 1 (by decide) (by decide)).json =
      (paddedSum 250 2 (by decide) (by decide)).json := by
    decide +kernel
  exact ⟨hknown _ _ _ _, hknown _ _ _ _, by decide +kernel,
    (json_eq_iff (hknown _ _ _ _) (hknown _ _ _ _)).mp htext⟩

end Expr

end QueryFormula
