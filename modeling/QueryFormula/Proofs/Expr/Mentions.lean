import QueryFormula.Proofs.Expr.Rearrange
import QueryFormula.Proofs.Resolution.Governed

/-!
# Clauses of a tree, and those in spare operands

A tree mentions a clause if the clause is one of its nodes, whatever its operands: the
clause is told by its operator and by its place in the source.  `Expr.spared` lists the
operands that resolution does not look at.

`Expr.Carries` relates a tree to one that grew out of it: what is mentioned stays
mentioned, in spare operands and elsewhere.
-/

namespace QueryFormula.Expr

/-- The tree has a clause of this operator at this place. -/
def Mentions (op : String) (place : Span) (e : Expr) : Prop :=
  ∃ xs, clause op xs (some place) ∈ e.nodes

/-- The spare operands of a clause from a position on. -/
def spareOperands (op : String) (position : Nat) : List Expr → List Expr
  | [] => []
  | x :: xs =>
    if x.isOptions then spareOperands op position xs
    else
      (if isSpare op position then [x] else []) ++ spareOperands op (position + 1) xs

/-- The spare operands of the node, if it is a clause. -/
def ownSpares : Expr → List Expr
  | clause op xs _ => spareOperands op 0 xs
  | _ => []

/-- The spare operands of all clauses of the tree. -/
def spared (e : Expr) : List Expr :=
  e.nodes.flatMap ownSpares

/-- A spare operand of the tree has a clause of this operator at this place. -/
def MentionsSpared (op : String) (place : Span) (e : Expr) : Prop :=
  ∃ x ∈ e.spared, Mentions op place x

section Mentions

variable {op : String} {place : Span}

@[simp] theorem not_mentions_literal (v : Literal) (o : Option Span) :
    ¬Mentions op place (literal v o) := by
  simp [Mentions, nodes]

@[simp] theorem not_mentions_reference (k : NameKind) (n : String) (o : Option Span) :
    ¬Mentions op place (reference k n o) := by
  simp [Mentions, nodes]

@[simp] theorem not_mentions_bound (t : BoundRef) (o : Option Span) :
    ¬Mentions op place (bound t o) := by
  simp [Mentions, nodes]

@[simp] theorem mentions_clause (f : String) (xs : List Expr) (o : Option Span) :
    Mentions op place (clause f xs o) ↔
      (f = op ∧ o = some place) ∨ ∃ x ∈ xs, Mentions op place x := by
  simp only [Mentions, nodes, nodesOfAll_eq_flatMap, List.mem_cons, List.mem_flatMap,
    clause.injEq]
  grind

@[simp] theorem mentions_options (es : List (String × Expr)) (o : Option Span) :
    Mentions op place (options es o) ↔ ∃ e ∈ es, Mentions op place e.2 := by
  simp only [Mentions, nodes, nodesOfEntries_eq_flatMap, List.mem_cons, List.mem_flatMap,
    reduceCtorEq, false_or]
  grind

@[simp] theorem mentions_pairs (ps : List (Expr × Expr)) (o : Option Span) :
    Mentions op place (pairs ps o) ↔
      ∃ p ∈ ps, Mentions op place p.1 ∨ Mentions op place p.2 := by
  simp only [Mentions, nodes, nodesOfPairs_eq_flatMap, List.mem_cons, List.mem_flatMap,
    List.mem_append, reduceCtorEq, false_or]
  grind

/-- A clause that has its place does not adopt another. -/
theorem Mentions.adoptOrigin {e : Expr} (h : Mentions op place e) (o : Option Span) :
    Mentions op place (e.adoptOrigin o) := by
  cases e with
  | clause f xs p =>
      cases p with
      | some p => exact h
      | none =>
          rcases (mentions_clause f xs none).mp h with ⟨-, hplace⟩ | hbelow
          · cases hplace
          · exact (mentions_clause f xs o).mpr (.inr hbelow)
  | literal v p => cases p <;> simp at h
  | reference k n p => cases p <;> simp at h
  | bound t p => cases p <;> simp at h
  | options es p => cases p <;> simpa [Expr.adoptOrigin, origin, setOrigin] using h
  | pairs ps p => cases p <;> simpa [Expr.adoptOrigin, origin, setOrigin] using h

theorem mentionsSpared_iff {e : Expr} :
    MentionsSpared op place e ↔ ∃ y ∈ e.nodes, ∃ x ∈ y.ownSpares, Mentions op place x := by
  simp only [MentionsSpared, spared, List.mem_flatMap]
  grind

@[simp] theorem mentionsSpared_clause (f : String) (xs : List Expr) (o : Option Span) :
    MentionsSpared op place (clause f xs o) ↔
      (∃ x ∈ spareOperands f 0 xs, Mentions op place x) ∨
        ∃ x ∈ xs, MentionsSpared op place x := by
  have hroot : (clause f xs o).ownSpares = spareOperands f 0 xs := rfl
  simp only [mentionsSpared_iff, nodes, nodesOfAll_eq_flatMap, List.mem_cons, List.mem_flatMap,
    exists_eq_or_imp, hroot]
  grind

@[simp] theorem mentionsSpared_options (es : List (String × Expr)) (o : Option Span) :
    MentionsSpared op place (options es o) ↔ ∃ e ∈ es, MentionsSpared op place e.2 := by
  have hroot : (options es o).ownSpares = [] := rfl
  simp only [mentionsSpared_iff, nodes, nodesOfEntries_eq_flatMap, List.mem_cons,
    List.mem_flatMap, exists_eq_or_imp, hroot, List.not_mem_nil, false_and, exists_false, false_or]
  constructor
  · rintro ⟨y, ⟨e, he, hy⟩, hown⟩
    exact ⟨e, he, y, hy, hown⟩
  · rintro ⟨e, he, y, hy, hown⟩
    exact ⟨y, ⟨e, he, hy⟩, hown⟩

@[simp] theorem mentionsSpared_pairs (ps : List (Expr × Expr)) (o : Option Span) :
    MentionsSpared op place (pairs ps o) ↔
      ∃ p ∈ ps, MentionsSpared op place p.1 ∨ MentionsSpared op place p.2 := by
  have hroot : (pairs ps o).ownSpares = [] := rfl
  simp only [mentionsSpared_iff, nodes, nodesOfPairs_eq_flatMap, List.mem_cons,
    List.mem_flatMap, List.mem_append, exists_eq_or_imp, hroot, List.not_mem_nil, false_and,
    exists_false, false_or]
  constructor
  · rintro ⟨y, ⟨p, hp, hy⟩, hown⟩
    exact ⟨p, hp, hy.imp (⟨y, ·, hown⟩) (⟨y, ·, hown⟩)⟩
  · rintro ⟨p, hp, ⟨y, hy, hown⟩ | ⟨y, hy, hown⟩⟩
    · exact ⟨y, ⟨p, hp, .inl hy⟩, hown⟩
    · exact ⟨y, ⟨p, hp, .inr hy⟩, hown⟩

end Mentions

/-! ### Trees that grow -/

/-- Whatever clause the first tree has, the second has at the same place, and in a spare
operand if it was in one. -/
structure Carries (op : String) (place : Span) (e e' : Expr) : Prop where
  mentions : Mentions op place e → Mentions op place e'
  spared : MentionsSpared op place e → MentionsSpared op place e'
  kind : e'.isOptions = e.isOptions

namespace Carries

variable {op : String} {place : Span}

theorem refl (e : Expr) : Carries op place e e :=
  ⟨id, id, rfl⟩

theorem trans {e e' e'' : Expr} (h : Carries op place e e') (h' : Carries op place e' e'') :
    Carries op place e e'' :=
  ⟨h'.mentions ∘ h.mentions, h'.spared ∘ h.spared, h'.kind.trans h.kind⟩

/-- A spare operand stays spare. -/
theorem spareOperands {f : String} {xs ys : List Expr}
    (h : List.Forall₂ (Carries op place) xs ys) {position : Nat}
    (hx : ∃ x ∈ spareOperands f position xs, Mentions op place x) :
    ∃ y ∈ Expr.spareOperands f position ys, Mentions op place y := by
  induction h generalizing position with
  | nil => exact hx
  | @cons x y xs ys hfirst _ ih =>
      rw [Expr.spareOperands] at hx ⊢
      rw [hfirst.kind]
      by_cases hoptions : x.isOptions = true
      · rw [if_pos hoptions] at hx ⊢
        exact ih hx
      · rw [if_neg hoptions] at hx ⊢
        obtain ⟨z, hz, hmentions⟩ := hx
        rcases List.mem_append.mp hz with hz | hz
        · split at hz
          · rename_i hspare
            rw [List.mem_singleton.mp hz] at hmentions
            rw [if_pos hspare]
            exact ⟨y, List.mem_append_left _ (List.mem_singleton_self y),
              hfirst.mentions hmentions⟩
          · cases hz
        · obtain ⟨w, hw, hmentions⟩ := ih ⟨z, hz, hmentions⟩
          exact ⟨w, List.mem_append_right _ hw, hmentions⟩

/-- What is somewhere among operands stays among them. -/
theorem exists_mem {P : Expr → Prop} {xs ys : List Expr}
    (h : List.Forall₂ (Carries op place) xs ys)
    (hP : ∀ x y, Carries op place x y → P x → P y) (hx : ∃ x ∈ xs, P x) : ∃ y ∈ ys, P y := by
  obtain ⟨x, hx, hPx⟩ := hx
  obtain ⟨y, hy, hcarries⟩ := exists_mem_of_forall₂ h hx
  exact ⟨y, hy, hP x y hcarries hPx⟩

theorem clause {f : String} {xs ys : List Expr} {o : Option Span}
    (h : List.Forall₂ (Carries op place) xs ys) :
    Carries op place (.clause f xs o) (.clause f ys o) := by
  refine ⟨fun hmentions => ?_, fun hspared => ?_, rfl⟩
  · refine (mentions_clause f ys o).mpr (((mentions_clause f xs o).mp hmentions).imp id ?_)
    exact exists_mem h fun _ _ hcarries => hcarries.mentions
  · refine (mentionsSpared_clause f ys o).mpr
      (((mentionsSpared_clause f xs o).mp hspared).imp (spareOperands h) ?_)
    exact exists_mem h fun _ _ hcarries => hcarries.spared

theorem options {es : List (String × Expr)} {o : Option Span} {g : Expr → Expr}
    (h : ∀ e ∈ es, Carries op place e.2 (g e.2)) :
    Carries op place (.options es o) (.options (es.map fun e => (e.1, g e.2)) o) := by
  refine ⟨fun hmentions => ?_, fun hspared => ?_, rfl⟩
  · obtain ⟨e, he, hbelow⟩ := (mentions_options es o).mp hmentions
    exact (mentions_options _ o).mpr ⟨_, List.mem_map_of_mem he, (h e he).mentions hbelow⟩
  · obtain ⟨e, he, hbelow⟩ := (mentionsSpared_options es o).mp hspared
    exact (mentionsSpared_options _ o).mpr ⟨_, List.mem_map_of_mem he, (h e he).spared hbelow⟩

theorem pairs {ps : List (Expr × Expr)} {o : Option Span} {f g : Expr → Expr}
    (h : ∀ p ∈ ps, Carries op place p.1 (f p.1) ∧ Carries op place p.2 (g p.2)) :
    Carries op place (.pairs ps o) (.pairs (ps.map fun p => (f p.1, g p.2)) o) := by
  refine ⟨fun hmentions => ?_, fun hspared => ?_, rfl⟩
  · obtain ⟨p, hp, hbelow⟩ := (mentions_pairs ps o).mp hmentions
    exact (mentions_pairs _ o).mpr
      ⟨_, List.mem_map_of_mem hp, hbelow.imp (h p hp).1.mentions (h p hp).2.mentions⟩
  · obtain ⟨p, hp, hbelow⟩ := (mentionsSpared_pairs ps o).mp hspared
    exact (mentionsSpared_pairs _ o).mpr
      ⟨_, List.mem_map_of_mem hp, hbelow.imp (h p hp).1.spared (h p hp).2.spared⟩

end Carries

end QueryFormula.Expr
