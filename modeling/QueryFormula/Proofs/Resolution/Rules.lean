import QueryFormula.Proofs.Expr.Path
import QueryFormula.Proofs.Resolution.Success

/-!
# The type rules

A tree is checked from its root, where one type is expected.  From a clause that is checked
checking goes on to the operands whose types the catalog declares, and from a conditional
with grouped cases to their tests, their values and the default.  `CheckedAt` says which
nodes are reached in this way, where they lie, and what type is expected of them.

The rules themselves are about one node at a time (`Admissible`): a literal is of an accepted
type, a clause is one of the catalog, of an accepted type and with operands enough and not
too many, and a name can be bound.

`resolve_sound_complete`: a tree is resolved just when every node that is checked keeps the
rules, and nothing of it changes then but the names that are checked.
-/

namespace QueryFormula

open QueryFormula.Expr

/-! ### Nodes that are checked -/

/-- From a clause of which a type is expected, checking goes on to the node that some steps
lead to, of which a type is expected in turn. -/
inductive ChecksAt (expected : ValueType) : Expr → List Step → ValueType → Expr → Prop
  /-- To an operand whose type is declared; options have no position. -/
  | operand {op : String} {xs : List Expr} {o : Option Span} {s : Signature} {i : Nat} {x : Expr}
      {declared : ValueType} (signature : signature? op = some s) (there : xs[i]? = some x)
      (value : x.isOptions = false)
      (declares : s.parameter? (positionalCount (xs.take i)) = some declared) :
      ChecksAt expected (.clause op xs o) [.operand i] (operandType s declared expected) x
  | test {op : String} {ps : List (Expr × Expr)} {place : Option Span} {more : List Expr}
      {o : Option Span} {i : Nat} {p : Expr × Expr} (conditional : isConditional op = true)
      (grouped : isGrouped (.pairs ps place :: more) = true) (there : ps[i]? = some p) :
      ChecksAt expected (.clause op (.pairs ps place :: more) o) [.operand 0, .test i] .boolean p.1
  | value {op : String} {ps : List (Expr × Expr)} {place : Option Span} {more : List Expr}
      {o : Option Span} {i : Nat} {p : Expr × Expr} (conditional : isConditional op = true)
      (grouped : isGrouped (.pairs ps place :: more) = true) (there : ps[i]? = some p) :
      ChecksAt expected (.clause op (.pairs ps place :: more) o) [.operand 0, .value i] expected p.2
  | default {op : String} {ps : List (Expr × Expr)} {place spot : Option Span}
      {es : List (String × Expr)} {o : Option Span} {x : Expr}
      (conditional : isConditional op = true) (there : es.lookup "default" = some x) :
      ChecksAt expected (.clause op [.pairs ps place, .options es spot] o)
        [.operand 1, .entry "default"] expected x

/-- The node that some steps lead to is checked where a type is expected of the root, and a
type is expected of it. -/
inductive CheckedAt : ValueType → Expr → List Step → ValueType → Expr → Prop
  | root {expected : ValueType} {e : Expr} : CheckedAt expected e [] expected e
  | further {expected type type' : ValueType} {e x y : Expr} {front path : List Step}
      (first : ChecksAt expected e front type x) (rest : CheckedAt type x path type' y) :
      CheckedAt expected e (front ++ path) type' y

/-- What is checked stands where the steps lead. -/
theorem CheckedAt.at?_eq {expected type : ValueType} {e x : Expr} {path : List Step}
    (h : CheckedAt expected e path type x) : e.at? path = some x := by
  induction h with
  | root => rfl
  | further first _ ih =>
      rw [at?_append]
      cases first with
      | operand _ there => simpa [child?, there] using ih
      | test _ _ there => simpa [child?, there] using ih
      | value _ _ there => simpa [child?, there] using ih
      | default _ there => simpa [child?, there] using ih

/-! ### Rules -/

/-- The cases of a conditional, if its operands are grouped. -/
def groupedCases : List Expr → List (Expr × Expr)
  | .pairs ps _ :: _ => ps
  | _ => []

/-- The clause may have these operands: one case at least, if it is a conditional with grouped
cases; else the declared ones, and any number more if it is variadic, or one more if it takes
options. -/
def Signature.Allows (s : Signature) (op : String) (xs : List Expr) : Prop :=
  if isConditional op && isGrouped xs then groupedCases xs ≠ []
  else if s.variadic then s.parameters.length ≤ positionalCount xs
  else s.parameters.length ≤ positionalCount xs ∧
    positionalCount xs ≤ if s.takesOptions then s.parameters.length + 1 else s.parameters.length

/-- The node keeps the rules where a type is expected of it. -/
def Admissible (bind : Binder (Except ResolutionError)) (expected : ValueType) : Expr → Prop
  | .literal value _ => expected.accepts value.type = true
  | .clause op xs _ => ∃ s, signature? op = some s ∧ expected.accepts s.kind = true ∧ s.Allows op xs
  | .reference kind name o => ∃ target, bind (NameKind.ofType expected) name ⟨kind, o⟩ = .ok target
  | _ => True

variable {bind : Binder (Except ResolutionError)} {s : Signature} {expected : ValueType}
  {op : String} {o : Option Span}

theorem arityFault?_eq_none_iff {xs : List Expr}
    (hplain : (isConditional op && isGrouped xs) = false) :
    arityFault? s xs = none ↔ s.Allows op xs := by
  simp only [arityFault?, Signature.Allows, hplain, Bool.false_eq_true, if_false]
  by_cases hvariadic : s.variadic = true
  · simp only [hvariadic, if_true, ite_eq_right_iff, reduceCtorEq, imp_false, Nat.not_lt]
  · simp only [hvariadic, if_false, ite_eq_right_iff, reduceCtorEq, imp_false, Bool.or_eq_true,
      decide_eq_true_eq, not_or, Nat.not_lt]

/-! ### Operands, cases and the default, place by place -/

/-- What becomes of an operand: it is resolved at the type that its position declares, or
stays. -/
theorem OperandsResolve.exists_getElem? {position : Nat} {xs ys : List Expr}
    (h : OperandsResolve bind s expected position xs ys) {i : Nat} {x : Expr}
    (hx : xs[i]? = some x) :
    ∃ y, ys[i]? = some y ∧
      ((x.isOptions = false ∧ ∃ declared,
          s.parameter? (position + positionalCount (xs.take i)) = some declared ∧
          resolve bind (operandType s declared expected) x = .ok y) ∨
        (x.isOptions = true ∨ s.parameter? (position + positionalCount (xs.take i)) = none) ∧
          y = x) := by
  induction h generalizing i with
  | nil => cases hx
  | options his _ ih =>
      cases i with
      | zero =>
          cases hx
          exact ⟨x, rfl, .inr ⟨.inl his, rfl⟩⟩
      | succ i =>
          rw [List.take_succ_cons, positionalCount_options his]
          exact ih hx
  | @declared position type z y xs ys hvalue hdeclares hfirst _ ih =>
      cases i with
      | zero =>
          cases hx
          exact ⟨y, rfl, .inl ⟨hvalue, type, hdeclares, hfirst⟩⟩
      | succ i =>
          rw [List.take_succ_cons, add_positionalCount_value hvalue]
          exact ih hx
  | @spare position z xs ys hvalue hundeclared _ ih =>
      cases i with
      | zero =>
          cases hx
          exact ⟨x, rfl, .inr ⟨.inr hundeclared, rfl⟩⟩
      | succ i =>
          rw [List.take_succ_cons, add_positionalCount_value hvalue]
          exact ih hx

/-- Operands can be resolved if each can be at the type that its position declares. -/
theorem exists_operandsResolve {position : Nat} {xs : List Expr}
    (h : ∀ i x declared, xs[i]? = some x → x.isOptions = false →
      s.parameter? (position + positionalCount (xs.take i)) = some declared →
      ∃ y, resolve bind (operandType s declared expected) x = .ok y) :
    ∃ ys, OperandsResolve bind s expected position xs ys := by
  induction xs generalizing position with
  | nil => exact ⟨[], .nil⟩
  | cons x xs ih =>
      by_cases his : x.isOptions = true
      · obtain ⟨ys, hrest⟩ : ∃ ys, OperandsResolve bind s expected position xs ys := by
          refine ih fun i y declared hy hvalue hdeclares => h (i + 1) y declared hy hvalue ?_
          rwa [List.take_succ_cons, positionalCount_options his]
        exact ⟨_, .options his hrest⟩
      · have hvalue := Bool.eq_false_iff.mpr his
        obtain ⟨ys, hrest⟩ : ∃ ys, OperandsResolve bind s expected (position + 1) xs ys := by
          refine ih fun i y declared hy hvalue' hdeclares => h (i + 1) y declared hy hvalue' ?_
          rwa [List.take_succ_cons, add_positionalCount_value hvalue]
        cases hdeclared : s.parameter? position with
        | none => exact ⟨_, .spare hvalue hdeclared hrest⟩
        | some declared =>
            obtain ⟨y, hfirst⟩ := h 0 x declared rfl hvalue hdeclared
            exact ⟨_, .declared hvalue hdeclared hfirst hrest⟩

/-- Cases can be resolved if each can. -/
theorem exists_resolveCases {ps : List (Expr × Expr)}
    (h : ∀ p ∈ ps, (∃ r, resolve bind .boolean p.1 = .ok r) ∧
      ∃ r, resolve bind expected p.2 = .ok r) :
    ∃ qs, resolveCases bind expected ps = .ok qs := by
  simp only [resolveCases_eq_ok_iff]
  induction ps with
  | nil => exact ⟨[], .nil⟩
  | cons p ps ih =>
      obtain ⟨⟨⟨test, htest⟩, value, hvalue⟩, hbelow⟩ := List.forall_mem_cons.mp h
      obtain ⟨qs, hrest⟩ := ih hbelow
      exact ⟨(test, value) :: qs, .cons ⟨htest, hvalue⟩ hrest⟩

/-! ### What is resolved keeps the rules -/

section Sound

variable {e r x : Expr} {type : ValueType} {front path : List Step}

/-- Nothing further is checked below grouped cases that are checked as an operand. -/
theorem CheckedAt.eq_of_isPairs (h : CheckedAt expected e path type x)
    (hpairs : e.isPairs = true) : x = e := by
  cases h with
  | root => rfl
  | further first _ => cases first <;> cases hpairs

/-- **One step of checking.**  Of a tree that is resolved each node that checking goes on to
is resolved, and stands where it stood; grouped cases are not resolved as operands. -/
theorem exists_resolve_of_checksAt (h : resolve bind expected e = .ok r)
    (hx : ChecksAt expected e front type x) :
    x.isPairs = true ∨ ∃ y, r.at? front = some y ∧ resolve bind type x = .ok y := by
  cases hx with
  | @operand op xs o s i x declared hs hthere hvalue hdeclares =>
      obtain ⟨s', ys, hs', -, hclause, rfl⟩ := resolve_clause_eq_ok_iff.mp h
      cases hs.symm.trans hs'
      cases hclause with
      | cases =>
          rcases i with _ | i
          · cases hthere
            exact .inl rfl
          · cases hthere
      | casesDefault =>
          rcases i with _ | _ | i
          · cases hthere
            exact .inl rfl
          · cases hthere
            cases hvalue
          · cases hthere
      | flat _ _ hoperands =>
          obtain ⟨y, hy, ⟨-, declared', hdeclares', hresolve⟩ | ⟨hkept, -⟩⟩ :=
            hoperands.exists_getElem? hthere
          · rw [Nat.zero_add, hdeclares] at hdeclares'
            cases hdeclares'
            refine .inr ⟨y, ?_, hresolve⟩
            simp [child?, hy]
          · rw [Nat.zero_add, hvalue, hdeclares] at hkept
            simp at hkept
  | @test op ps place more o i p hcond hgrouped hthere =>
      obtain ⟨s, ys, -, -, hclause, rfl⟩ := resolve_clause_eq_ok_iff.mp h
      cases hclause with
      | cases _ _ hfirst | casesDefault _ _ hfirst =>
          obtain ⟨q, hq, htest, -⟩ :=
            exists_getElem?_of_forall₂ (resolveCases_eq_ok_iff.mp hfirst) hthere
          refine .inr ⟨q.1, ?_, htest⟩
          simp [child?, hq]
      | flat hplain => simp [hcond, hgrouped] at hplain
  | @value op ps place more o i p hcond hgrouped hthere =>
      obtain ⟨s, ys, -, -, hclause, rfl⟩ := resolve_clause_eq_ok_iff.mp h
      cases hclause with
      | cases _ _ hfirst | casesDefault _ _ hfirst =>
          obtain ⟨q, hq, -, hvalue⟩ :=
            exists_getElem?_of_forall₂ (resolveCases_eq_ok_iff.mp hfirst) hthere
          refine .inr ⟨q.2, ?_, hvalue⟩
          simp [child?, hq]
      | flat hplain => simp [hcond, hgrouped] at hplain
  | @default op ps place spot es o x hcond hthere =>
      obtain ⟨s, ys, -, -, hclause, rfl⟩ := resolve_clause_eq_ok_iff.mp h
      cases hclause with
      | casesDefault _ _ _ hsecond =>
          obtain ⟨y, hy, hvalue⟩ := (resolveDefault_eq_ok_iff.mp hsecond).exists_of_lookup hthere
          refine .inr ⟨y, ?_, hvalue⟩
          simp [child?, hy]
      | flat hplain =>
          rw [hcond] at hplain
          cases hplain

/-- Every node of a resolved tree that is checked is resolved, and stands where it stood. -/
theorem CheckedAt.exists_resolve (hx : CheckedAt expected e path type x)
    (h : resolve bind expected e = .ok r) :
    x.isPairs = true ∨ ∃ y, r.at? path = some y ∧ resolve bind type x = .ok y := by
  induction hx generalizing r with
  | root => exact .inr ⟨r, rfl, h⟩
  | further first rest ih =>
      rcases exists_resolve_of_checksAt h first with hpairs | ⟨y, hy, hresolved⟩
      · obtain rfl := rest.eq_of_isPairs hpairs
        exact .inl hpairs
      · rw [at?_append, hy]
        exact ih hresolved

/-- The root of a tree that is resolved keeps the rules. -/
theorem admissible_of_resolve (h : resolve bind expected e = .ok r) :
    Admissible bind expected e := by
  cases e with
  | literal v o =>
      exact (resolve_literal_eq_ok_iff.mp h).1
  | reference k n o =>
      obtain ⟨target, htarget, -⟩ := resolve_reference_eq_ok_iff.mp h
      exact ⟨target, htarget⟩
  | clause op xs o =>
      obtain ⟨s, ys, hs, hkind, hclause, -⟩ := resolve_clause_eq_ok_iff.mp h
      refine ⟨s, hs, hkind, ?_⟩
      cases hclause with
      | cases hcond hany | casesDefault hcond hany =>
          rw [Signature.Allows, hcond]
          exact hany
      | flat hplain hcount => exact (arityFault?_eq_none_iff hplain).mp hcount
  | _ => trivial

/-- Every node of a resolved tree that is checked keeps the rules. -/
theorem CheckedAt.admissible (hx : CheckedAt expected e path type x)
    (h : resolve bind expected e = .ok r) : Admissible bind type x := by
  rcases hx.exists_resolve h with hpairs | ⟨y, -, hresolved⟩
  · cases x with
    | pairs => trivial
    | _ => cases hpairs
  · exact admissible_of_resolve hresolved

/-- A name that is checked is replaced by what it is bound to. -/
theorem CheckedAt.exists_target {kind : NameKind} {name : String}
    (hx : CheckedAt expected e path type (.reference kind name o))
    (h : resolve bind expected e = .ok r) :
    ∃ target, bind (NameKind.ofType type) name ⟨kind, o⟩ = .ok target ∧
      r.at? path = some (target.adoptOrigin o) := by
  obtain hpairs | ⟨y, hy, hresolved⟩ := hx.exists_resolve h
  · cases hpairs
  · obtain ⟨target, htarget, rfl⟩ := resolve_reference_eq_ok_iff.mp hresolved
    exact ⟨target, htarget, hy⟩

end Sound

/-! ### What keeps the rules is resolved -/

/-- A tree is resolved if every node that is checked keeps the rules. -/
theorem exists_resolve {e : Expr}
    (h : ∀ path type x, CheckedAt expected e path type x → Admissible bind type x) :
    ∃ r, resolve bind expected e = .ok r := by
  induction e using inductClauses generalizing expected with
  | literal v o =>
      have haccepts : expected.accepts v.type = true := h _ _ _ .root
      exact ⟨_, resolve_literal_eq_ok_iff.mpr ⟨haccepts, rfl⟩⟩
  | reference k n o =>
      obtain ⟨target, htarget⟩ : ∃ target,
        bind (NameKind.ofType expected) n ⟨k, o⟩ = .ok target := h _ _ _ .root
      exact ⟨_, resolve_reference_eq_ok_iff.mpr ⟨target, htarget, rfl⟩⟩
  | bound t o => exact ⟨.bound t o, rfl⟩
  | options es o _ => exact ⟨.options es o, rfl⟩
  | pairs ps o _ => exact ⟨.pairs ps o, rfl⟩
  | clause op xs o ih =>
      obtain ⟨s, hs, hkind, hallows⟩ : ∃ s, signature? op = some s ∧
        expected.accepts s.kind = true ∧ s.Allows op xs := h _ _ _ .root
      have hcases : ∀ ps place, Expr.pairs ps place ∈ xs →
          (∀ i p, ps[i]? = some p →
            ChecksAt expected (.clause op xs o) [.operand 0, .test i] .boolean p.1 ∧
            ChecksAt expected (.clause op xs o) [.operand 0, .value i] expected p.2) →
          ∃ qs, resolveCases bind expected ps = .ok qs := by
        intro ps place hpairs hchecked
        refine exists_resolveCases fun p hp => ?_
        obtain ⟨i, hi⟩ := List.getElem?_of_mem hp
        obtain ⟨htest, hvalue⟩ := hchecked i p hi
        obtain ⟨ihtest, ihvalue⟩ := (ih _ hpairs).2 p hp
        exact ⟨ihtest fun path type x hx => h _ _ _ (.further htest hx),
          ihvalue fun path type x hx => h _ _ _ (.further hvalue hx)⟩
      cases resolving expected op xs with
      | unknown hs' => cases hs.symm.trans hs'
      | mismatch hs' hkind' =>
          cases hs.symm.trans hs'
          cases hkind.symm.trans hkind'
      | grouped _ _ hcond ps place =>
          rw [Signature.Allows, hcond] at hallows
          obtain ⟨qs, hqs⟩ := hcases ps place List.mem_cons_self fun i p hi =>
            ⟨.test hcond rfl hi, .value hcond rfl hi⟩
          exact ⟨_, resolve_of_clauseResolves hs hkind (.cases hcond hallows hqs) o⟩
      | groupedDefault _ _ hcond ps place es spot =>
          rw [Signature.Allows, hcond] at hallows
          obtain ⟨qs, hqs⟩ := hcases ps place List.mem_cons_self fun i p hi =>
            ⟨.test hcond rfl hi, .value hcond rfl hi⟩
          have hoptions : Expr.options es spot ∈ [Expr.pairs ps place, .options es spot] :=
            List.mem_cons_of_mem _ List.mem_cons_self
          obtain ⟨fs, hfs⟩ : ∃ fs, resolveDefault bind expected es = .ok fs := by
            simp only [resolveDefault_eq_ok_iff]
            refine DefaultReplaced.exists_of_forall fun value hvalue => ?_
            refine (ih _ hoptions).2 _ (mem_of_lookup hvalue) fun path type x hx => ?_
            exact h _ _ _ (.further (.default hcond hvalue) hx)
          exact ⟨_, resolve_of_clauseResolves hs hkind (.casesDefault hcond hallows hqs hfs) o⟩
      | flat _ _ hplain =>
          have hcount := (arityFault?_eq_none_iff hplain).mpr hallows
          obtain ⟨ys, hys⟩ : ∃ ys, OperandsResolve bind s expected 0 xs ys := by
            refine exists_operandsResolve fun i x declared hx hvalue hdeclares => ?_
            rw [Nat.zero_add] at hdeclares
            refine (ih x (List.mem_of_getElem? hx)).1 fun path type y hy => ?_
            exact h _ _ _ (.further (.operand hs hx hvalue hdeclares) hy)
          exact ⟨_, resolve_of_clauseResolves hs hkind (.flat hplain hcount hys) o⟩

/-! ### What is not checked does not change -/

/-- On the way to a node no name is met that is checked, and the node is none. -/
def ClearWay (expected : ValueType) (e : Expr) (path : List Step) : Prop :=
  ∀ front type kind name o, front <+: path →
    ¬ CheckedAt expected e front type (.reference kind name o)

theorem ClearWay.further {e x : Expr} {type : ValueType} {front path : List Step}
    (h : ClearWay expected e (front ++ path)) (hx : ChecksAt expected e front type x) :
    ClearWay type x path := by
  intro front' type' kind name o hfront hname
  exact h _ _ _ _ _ ((List.prefix_append_right_inj front).mpr hfront) (.further hx hname)

theorem OperandsResolve.length_eq {position : Nat} {xs ys : List Expr}
    (h : OperandsResolve bind s expected position xs ys) : ys.length = xs.length := by
  induction h with
  | nil => rfl
  | options _ _ ih | declared _ _ _ _ ih | spare _ _ _ ih => exact congrArg (· + 1) ih

/-- The tree looks as it did where no name is on the way. -/
def StaysAlike (expected : ValueType) (e r : Expr) : Prop :=
  ∀ path, ClearWay expected e path → LooksAlike path e r

/-- Clauses look alike if their operands do, on the way that is taken. -/
theorem looksAlike_clause {op : String} {xs ys : List Expr} {o : Option Span} {path : List Step}
    (hlength : ys.length = xs.length)
    (h : ∀ (i : Nat) x rest, path = .operand i :: rest → xs[i]? = some x →
      ∃ y, ys[i]? = some y ∧ LooksAlike rest x y) :
    LooksAlike path (.clause op xs o) (.clause op ys o) := by
  refine looksAlike_of_child (by rw [face, face, hlength]) fun step rest hpath => ?_
  cases step with
  | operand i =>
      cases hx : xs[i]? with
      | none =>
          refine .inl ⟨hx, ?_⟩
          rw [List.getElem?_eq_none_iff] at hx
          exact List.getElem?_eq_none_iff.mpr (hlength ▸ hx)
      | some x =>
          obtain ⟨y, hy, halike⟩ := h i x rest hpath hx
          exact .inr ⟨x, y, hx, hy, halike⟩
  | _ => exact .inl ⟨rfl, rfl⟩

/-- Cases look alike if their tests and their values do, on the way that is taken. -/
theorem looksAlike_pairs {ps qs : List (Expr × Expr)} {place : Option Span} {path : List Step}
    (hall : List.Forall₂ (fun p q => StaysAlike .boolean p.1 q.1 ∧ StaysAlike expected p.2 q.2)
      ps qs)
    (htest : ∀ (i : Nat) p rest, path = .test i :: rest → ps[i]? = some p →
      ClearWay .boolean p.1 rest)
    (hvalue : ∀ (i : Nat) p rest, path = .value i :: rest → ps[i]? = some p →
      ClearWay expected p.2 rest) :
    LooksAlike path (.pairs ps place) (.pairs qs place) := by
  refine looksAlike_of_child (by rw [face, face, hall.length_eq]) fun step rest hpath => ?_
  have hnone : ∀ i : Nat, ps[i]? = none → qs[i]? = none := by
    intro i hi
    rw [List.getElem?_eq_none_iff] at hi ⊢
    rwa [← hall.length_eq]
  cases step with
  | operand | entry => exact .inl ⟨rfl, rfl⟩
  | test i =>
      cases hi : ps[i]? with
      | none => exact .inl ⟨by simp [child?, hi], by simp [child?, hnone i hi]⟩
      | some p =>
          obtain ⟨q, hq, hfirst, -⟩ := exists_getElem?_of_forall₂ hall hi
          exact .inr ⟨p.1, q.1, by simp [child?, hi], by simp [child?, hq],
            hfirst rest (htest i p rest hpath hi)⟩
  | value i =>
      cases hi : ps[i]? with
      | none => exact .inl ⟨by simp [child?, hi], by simp [child?, hnone i hi]⟩
      | some p =>
          obtain ⟨q, hq, -, hsecond⟩ := exists_getElem?_of_forall₂ hall hi
          exact .inr ⟨p.2, q.2, by simp [child?, hi], by simp [child?, hq],
            hsecond rest (hvalue i p rest hpath hi)⟩

/-- Options look alike if their defaults do, on the way that is taken. -/
theorem looksAlike_options {es fs : List (String × Expr)} {spot : Option Span} {path : List Step}
    (hall : DefaultReplaced (StaysAlike expected) es fs)
    (hdefault : ∀ x rest, path = .entry "default" :: rest → es.lookup "default" = some x →
      ClearWay expected x rest) :
    LooksAlike path (.options es spot) (.options fs spot) := by
  refine looksAlike_of_child (by rw [face, face, hall.keys_eq]) fun step rest hpath => ?_
  cases step with
  | operand | test | value => exact .inl ⟨rfl, rfl⟩
  | entry key =>
      by_cases hkey : key = "default"
      · subst hkey
        obtain hnone | ⟨x, y, hx, hy, halike⟩ := hall.lookup_default
        · exact .inl hnone
        · exact .inr ⟨x, y, hx, hy, halike rest (hdefault x rest hpath hx)⟩
      · cases hx : es.lookup key with
        | none => exact .inl ⟨hx, (hall.lookup_eq hkey).trans hx⟩
        | some x => exact .inr ⟨x, x, hx, (hall.lookup_eq hkey).trans hx, .refl rest x⟩

/-- Grouped cases of a conditional look alike on a clear way through it. -/
theorem looksAlike_cases {op : String} {ps qs : List (Expr × Expr)} {place : Option Span}
    {more : List Expr} {rest : List Step} (hcond : isConditional op = true)
    (hgrouped : isGrouped (.pairs ps place :: more) = true)
    (hall : List.Forall₂ (fun p q => StaysAlike .boolean p.1 q.1 ∧ StaysAlike expected p.2 q.2)
      ps qs)
    (hclear : ClearWay expected (.clause op (.pairs ps place :: more) o) (.operand 0 :: rest)) :
    LooksAlike rest (.pairs ps place) (.pairs qs place) := by
  refine looksAlike_pairs hall ?_ ?_
  · rintro i p rest' rfl hi
    exact hclear.further (.test hcond hgrouped hi)
  · rintro i p rest' rfl hi
    exact hclear.further (.value hcond hgrouped hi)

/-- A resolved tree looks as it did where no name was replaced. -/
theorem staysAlike_of_resolve {e r : Expr} (h : resolve bind expected e = .ok r) :
    StaysAlike expected e r := by
  refine resolve_induct (motive := fun expected e r => StaysAlike expected e r)
    ?literal ?reference ?bound ?options ?pairs ?cases ?casesDefault ?flat h
  case literal => exact fun _ _ _ _ path _ => .refl path _
  case reference =>
    exact fun _ k n o _ _ _ hclear => absurd .root (hclear [] _ k n o List.nil_prefix)
  case bound => exact fun _ _ _ path _ => .refl path _
  case options => exact fun _ _ _ path _ => .refl path _
  case pairs => exact fun _ _ _ path _ => .refl path _
  case cases =>
    intro _ op ps qs place o s _ _ hcond _ hcases path hclear
    refine looksAlike_clause rfl fun i x rest hpath hx => ?_
    subst hpath
    rcases i with _ | i
    · cases hx
      exact ⟨_, rfl, looksAlike_cases hcond rfl hcases hclear⟩
    · cases hx
  case casesDefault =>
    intro _ op ps qs place es fs spot o s _ _ hcond _ hcases hentries path hclear
    refine looksAlike_clause rfl fun i x rest hpath hx => ?_
    subst hpath
    rcases i with _ | _ | i
    · cases hx
      exact ⟨_, rfl, looksAlike_cases hcond rfl hcases hclear⟩
    · cases hx
      refine ⟨_, rfl, looksAlike_options hentries ?_⟩
      rintro x rest' rfl hx
      exact hclear.further (.default hcond hx)
    · cases hx
  case flat =>
    intro _ op xs ys o s hs _ _ _ hoperands ih path hclear
    refine looksAlike_clause hoperands.length_eq fun i x rest hpath hx => ?_
    subst hpath
    obtain ⟨y, hy, hresolved | ⟨-, rfl⟩⟩ := hoperands.exists_getElem? hx
    · obtain ⟨hvalue, declared, hdeclares, hresolved⟩ := hresolved
      rw [Nat.zero_add] at hdeclares
      exact ⟨y, hy, ih x (List.mem_of_getElem? hx) _ _ hresolved _
        (hclear.further (.operand hs hx hvalue hdeclares))⟩
    · exact ⟨_, hy, .refl rest _⟩

/-- **Type rules.**  A tree is resolved just when every node that is checked keeps the rules.
The names that are checked are then replaced by what they are bound to, and wherever no such
name is on the way the tree looks as it did: the same operators, with the same number of
operands in the same order, the same keys and the same literals. -/
theorem resolve_sound_complete (bind : Binder (Except ResolutionError)) (expected : ValueType)
    (e : Expr) :
    ((∃ r, resolve bind expected e = .ok r) ↔
      ∀ path type x, CheckedAt expected e path type x → Admissible bind type x) ∧
    ∀ r, resolve bind expected e = .ok r →
      (∀ path type kind name o, CheckedAt expected e path type (.reference kind name o) →
        ∃ target, bind (NameKind.ofType type) name ⟨kind, o⟩ = .ok target ∧
          r.at? path = some (target.adoptOrigin o)) ∧
      ∀ path, ClearWay expected e path → LooksAlike path e r := by
  refine ⟨⟨?_, exists_resolve⟩, fun r h => ⟨?_, staysAlike_of_resolve h⟩⟩
  · rintro ⟨r, h⟩ path type x hx
    exact hx.admissible h
  · intro path type kind name o hname
    exact hname.exists_target h

/-- A binder that knows one column. -/
def totalBinder : Binder (Except ResolutionError) := fun _ name occurrence =>
  if name = "Total" then .ok (.bound (.field 1 "type/Text") none)
  else .error (.unknownField name occurrence.origin)

/-- A search for two texts, with its options in front. -/
def totalSearch : Expr :=
  .clause "contains" [.options [] none, .reference .dimension "Total" none,
    .literal (.text "a") none, .literal (.text "b") none] none

/-- The name in a search is its first argument though it stands second, and the last text
stays. -/
theorem resolve_sound_complete_search :
    ∃ r, resolve totalBinder .boolean totalSearch = .ok r ∧
      (∀ path type x, CheckedAt .boolean totalSearch path type x →
        Admissible totalBinder type x) ∧
      r.at? [.operand 1] = some (.bound (.field 1 "type/Text") none) ∧
      LooksAlike [.operand 3] totalSearch r := by
  obtain ⟨hrules, hresult⟩ := resolve_sound_complete totalBinder .boolean totalSearch
  have hresolve : ∃ r, resolve totalBinder .boolean totalSearch = .ok r := ⟨_, rfl⟩
  obtain ⟨r, hr⟩ := hresolve
  obtain ⟨hnames, hothers⟩ := hresult r hr
  have hname : CheckedAt .boolean totalSearch [.operand 1] .string
      (.reference .dimension "Total" none) :=
    .further (.operand rfl rfl rfl rfl) .root
  obtain ⟨target, htarget, hat⟩ := hnames _ _ _ _ _ hname
  cases htarget
  refine ⟨r, hr, hrules.mp ⟨r, hr⟩, hat, hothers _ ?_⟩
  intro front type kind name o hfront hchecked
  have hat' := hchecked.at?_eq
  rcases List.prefix_cons_iff.mp hfront with rfl | ⟨tail, rfl, htail⟩
  · cases hat'
  · cases List.prefix_nil.mp htail
    cases hat'

end QueryFormula
