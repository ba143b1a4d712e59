import QueryFormula.Proofs.NormalForm.Listing
import QueryFormula.Proofs.NormalForm.Shorthand
import QueryFormula.Proofs.Places.Nesting

/-!
# The normal form keeps the leaves

The literals and the names that were read from a source, with their places, are those of the
normal form in the same order, but for the shorthands that have become options
(`leaves_normalForm`).  The first step takes those out (`TakesLeaves`), and no later step
touches a leaf.  As leaves lie apart in the source, a leaf that is taken out is told from the
others by its place.
-/

namespace QueryFormula

/-! ### Two lists in one -/

/-- A list is put together from what is kept of it and what is taken out. -/
inductive Interleave {α : Type} : List α → List α → List α → Prop
  | nil : Interleave [] [] []
  | keep {x : α} {kept taken all : List α} (rest : Interleave kept taken all) :
      Interleave (x :: kept) taken (x :: all)
  | take {x : α} {kept taken all : List α} (rest : Interleave kept taken all) :
      Interleave kept (x :: taken) (x :: all)

namespace Interleave

variable {α γ : Type} {kept taken all : List α}

/-- Nothing is taken out. -/
theorem refl (xs : List α) : Interleave xs [] xs := by
  induction xs with
  | nil => exact .nil
  | cons x xs ih => exact .keep ih

theorem append {kept' taken' all' : List α} (h : Interleave kept taken all)
    (h' : Interleave kept' taken' all') :
    Interleave (kept ++ kept') (taken ++ taken') (all ++ all') := by
  induction h with
  | nil => exact h'
  | keep _ ih => exact .keep ih
  | take _ ih => exact .take ih

theorem perm (h : Interleave kept taken all) : (kept ++ taken).Perm all := by
  induction h with
  | nil => exact .nil
  | keep _ ih => exact ih.cons _
  | take _ ih => exact List.perm_middle.trans (ih.cons _)

/-- A test that tells the two apart takes the list apart. -/
theorem filter_eq (h : Interleave kept taken all) {p : α → Prop} [DecidablePred p]
    (hkept : ∀ x ∈ kept, ¬p x) (htaken : ∀ x ∈ taken, p x) :
    all.filter (fun x => ¬p x) = kept ∧ all.filter (fun x => p x) = taken := by
  induction h with
  | nil => exact ⟨rfl, rfl⟩
  | keep _ ih =>
      obtain ⟨hx, hkept⟩ := List.forall_mem_cons.mp hkept
      obtain ⟨hnot, hmeets⟩ := ih hkept htaken
      rw [List.filter_cons_of_pos (by simpa using hx), hnot,
        List.filter_cons_of_neg (by simpa using hx), hmeets]
      exact ⟨rfl, rfl⟩
  | take _ ih =>
      obtain ⟨hx, htaken⟩ := List.forall_mem_cons.mp htaken
      obtain ⟨hnot, hmeets⟩ := ih hkept htaken
      rw [List.filter_cons_of_neg (by simpa using hx), hnot,
        List.filter_cons_of_pos (by simpa using hx), hmeets]
      exact ⟨rfl, rfl⟩

/-- What is taken out can be told by a mark that no two members share. -/
theorem filter_mark [BEq γ] [LawfulBEq γ] (h : Interleave kept taken all) {mark : α → γ}
    (hdistinct : (all.map mark).Nodup) :
    all.filter (fun x => mark x ∉ taken.map mark) = kept ∧
      all.filter (fun x => mark x ∈ taken.map mark) = taken := by
  have happend : (kept.map mark ++ taken.map mark).Nodup := by
    rw [← List.map_append]
    exact (h.perm.map mark).nodup_iff.mpr hdistinct
  have hapart := (List.nodup_append.mp happend).2.2
  exact h.filter_eq (fun x hx hmem => hapart _ (List.mem_map_of_mem hx) _ hmem rfl)
    (fun x hx => List.mem_map_of_mem hx)

end Interleave

open QueryFormula.Expr

/-! ### Leaves -/

/-- The node, if it is a literal or a name with a place. -/
def placedLeaf? : Expr → Option Expr
  | .literal v (some place) => some (.literal v (some place))
  | .reference k n (some place) => some (.reference k n (some place))
  | _ => none

/-- The place, if the node is an options object. -/
def optionsPlace? : Expr → Option (Option Span)
  | .options _ place => some place
  | _ => none

namespace Expr

/-- The literals and the names of the tree that have a place, from left to right. -/
def leaves (e : Expr) : List Expr :=
  e.listed placedLeaf?

/-- The places of the options objects of the tree. -/
def optionsPlaces (e : Expr) : List (Option Span) :=
  e.listed optionsPlace?

theorem leaves_clause (op : String) (xs : List Expr) (o : Option Span) :
    (clause op xs o).leaves = xs.flatMap leaves :=
  listed_clause op xs o

theorem optionsPlaces_clause (op : String) (xs : List Expr) (o : Option Span) :
    (clause op xs o).optionsPlaces = xs.flatMap optionsPlaces :=
  listed_clause op xs o

end Expr

theorem isKept_placedLeaf : IsKept placedLeaf? where
  options _ _ := rfl
  pairs _ _ := rfl
  unplaced _ := rfl
  clause _ _ _ := rfl
  rebuilt _ _ _ _ := rfl
  grouped _ _ := rfl

/-! ### What the first step takes out -/

theorem eq_of_isSome_shorthandSetting? {x : Expr} (h : (shorthandSetting? x).isSome = true) :
    x = .literal (.text "case-insensitive") x.origin ∨
      x = .literal (.text "include-current") x.origin := by
  unfold shorthandSetting? at h
  split at h
  · exact .inl rfl
  · exact .inr rfl
  · cases h

/-- Spelled out, the trees have lost these leaves, shorthands all of them, and have options in
their places. -/
structure TakesLeaves (xs ys taken : List Expr) : Prop where
  leaves : Interleave (ys.flatMap leaves) taken (xs.flatMap leaves)
  places : taken.map origin = ys.flatMap optionsPlaces
  shorthands : ∀ x ∈ taken, (shorthandSetting? x).isSome = true

namespace TakesLeaves

theorem nil : TakesLeaves [] [] [] :=
  ⟨.nil, rfl, fun _ hx => absurd hx List.not_mem_nil⟩

theorem append {xs ys taken xs' ys' taken' : List Expr} (h : TakesLeaves xs ys taken)
    (h' : TakesLeaves xs' ys' taken') :
    TakesLeaves (xs ++ xs') (ys ++ ys') (taken ++ taken') where
  leaves := by
    rw [List.flatMap_append, List.flatMap_append]
    exact h.leaves.append h'.leaves
  places := by rw [List.map_append, List.flatMap_append, h.places, h'.places]
  shorthands := List.forall_mem_append.mpr ⟨h.shorthands, h'.shorthands⟩

theorem clause {xs ys taken : List Expr} (h : TakesLeaves xs ys taken) (op : String)
    (o : Option Span) : TakesLeaves [.clause op xs o] [.clause op ys o] taken where
  leaves := by
    rw [List.flatMap_singleton, List.flatMap_singleton, leaves_clause, leaves_clause]
    exact h.leaves
  places := by rw [List.flatMap_singleton, optionsPlaces_clause, h.places]
  shorthands := h.shorthands

/-- A leaf by itself stays. -/
theorem leaf {e : Expr} (h : e.nodes = [e]) (hoptions : optionsPlace? e = none) :
    TakesLeaves [e] [e] [] where
  leaves := .refl _
  places := by
    rw [List.flatMap_singleton, optionsPlaces, listed_leaf h, hoptions]
    rfl
  shorthands := fun _ hx => absurd hx List.not_mem_nil

/-- A shorthand makes way for options. -/
theorem shorthand {v : Literal} {place : Span} {c : Expr}
    (h : shorthandOptions? (.literal v (some place)) = some c) :
    TakesLeaves [.literal v (some place)] [c] [.literal v (some place)] := by
  obtain ⟨setting, hsetting, rfl⟩ := Option.map_eq_some_iff.mp h
  refine ⟨.take .nil, rfl, List.forall_mem_singleton.mpr ?_⟩
  rw [hsetting, Option.isSome_some]

end TakesLeaves

theorem spellOutShorthands_clause (op : String) (xs : List Expr) (o : Option Span) :
    spellOutShorthands (.clause op xs o) =
      optionsOfShorthand op (xs.map spellOutShorthands) o :=
  rearranges_optionsOfShorthand.bottomUp_clause op xs o

/-- A literal among the rebuilt operands is one that was read. -/
theorem eq_literal_of_spellOutShorthands {e : Expr} (h : e.Written)
    (hliteral : (spellOutShorthands e).isLiteral = true) :
    ∃ v place, e = .literal v (some place) ∧ spellOutShorthands e = e := by
  rw [spellOutShorthands, rearranges_optionsOfShorthand.isLiteral] at hliteral
  cases h with
  | literal v place => exact ⟨v, place, rfl, bottomUp_literal _ _ _⟩
  | _ => cases hliteral

/-- Operands lose the leaves that each of them loses. -/
theorem takesLeaves_operands {xs : List Expr}
    (h : ∀ x ∈ xs, ∃ taken, TakesLeaves [x] [spellOutShorthands x] taken) :
    ∃ taken, TakesLeaves xs (xs.map spellOutShorthands) taken := by
  induction xs with
  | nil => exact ⟨[], .nil⟩
  | cons x xs ih =>
      obtain ⟨hx, hxs⟩ := List.forall_mem_cons.mp h
      obtain ⟨taken, hx⟩ := hx
      obtain ⟨others, hxs⟩ := ih hxs
      exact ⟨taken ++ others, hx.append hxs⟩

/-- **The first step** takes out shorthands, one for each options object. -/
theorem takesLeaves_spellOutShorthands {e : Expr} (h : e.Written) :
    ∃ taken, TakesLeaves [e] [spellOutShorthands e] taken := by
  induction h with
  | literal v place =>
      rw [spellOutShorthands, bottomUp_literal]
      exact ⟨[], .leaf rfl rfl⟩
  | name n place =>
      rw [spellOutShorthands, bottomUp_reference]
      exact ⟨[], .leaf rfl rfl⟩
  | @clause op xs place operands ih =>
      rw [spellOutShorthands_clause]
      by_cases htrails : trailsShorthand op (xs.map spellOutShorthands) = true
      · obtain ⟨s, ys, x, c, -, -, -, hxs, hc, hstep⟩ :=
          optionsOfShorthand_of_trails htrails (some place)
        obtain ⟨front, back, rfl, rfl, hback⟩ := List.map_eq_append_iff.mp hxs
        obtain ⟨last, rfl, rfl⟩ := List.map_eq_singleton_iff.mp hback
        obtain ⟨hfront, hlast⟩ := List.forall_mem_append.mp ih
        obtain ⟨v, spot, rfl, hkept⟩ := eq_literal_of_spellOutShorthands
          (operands last (by simp)) (isOptions_of_shorthand hc).1
        rw [hkept] at hc
        obtain ⟨taken, htaken⟩ := takesLeaves_operands hfront
        rw [hstep]
        exact ⟨_, (htaken.append (.shorthand hc)).clause op _⟩
      · obtain ⟨taken, htaken⟩ := takesLeaves_operands ih
        rw [optionsOfShorthand_of_not (Bool.eq_false_iff.mpr htrails)]
        exact ⟨taken, htaken.clause op _⟩

/-! ### Leaves lie apart -/

namespace Expr

variable {tokens : List Token} {e : Expr}

theorem LiesIn.trans {x y : Expr} {span : Span} (h : y.LiesIn span)
    (hx : ∀ inner, y.origin = some inner → x.LiesIn inner) : x.LiesIn span := by
  obtain ⟨outer, houter, hstart, hstop⟩ := h
  obtain ⟨inner, hinner, hstart', hstop'⟩ := hx outer houter
  exact ⟨inner, hinner, Nat.le_trans hstart hstart', Nat.le_trans hstop' hstop⟩

/-- A leaf was read itself, and from within what it is a leaf of. -/
theorem Nested.leaf (h : Nested tokens e) : ∀ x ∈ e.leaves, Nested tokens x ∧
    ∀ span, e.origin = some span → x.LiesIn span := by
  induction h with
  | @literal value place reflexive range =>
      refine List.forall_mem_singleton.mpr ⟨.literal reflexive range, fun span hspan => ?_⟩
      exact ⟨span, hspan, Nat.le_refl _, Nat.le_refl _⟩
  | @name n place writes range =>
      refine List.forall_mem_singleton.mpr ⟨.name writes range, fun span hspan => ?_⟩
      exact ⟨span, hspan, Nat.le_refl _, Nat.le_refl _⟩
  | @clause op xs place range operands inside apart ih =>
      intro x hx
      obtain ⟨y, hy, hx⟩ := List.mem_flatMap.mp (leaves_clause op xs _ ▸ hx)
      obtain ⟨hnested, hlies⟩ := ih y hy x hx
      refine ⟨hnested, fun span hspan => ?_⟩
      cases hspan
      exact (inside y hy).trans hlies

/-- **The leaves** lie one behind the other. -/
theorem Nested.leaves_apart (h : Nested tokens e) : e.leaves.Pairwise Precedes := by
  induction h with
  | literal reflexive range => exact List.pairwise_singleton _ _
  | name writes range => exact List.pairwise_singleton _ _
  | @clause op xs place range operands inside apart ih =>
      rw [leaves_clause, List.pairwise_flatMap]
      refine ⟨ih, apart.imp_of_mem fun hx hy hbefore l hl r hr => ?_⟩
      obtain ⟨span, other, hspan, hother, hle⟩ := hbefore
      obtain ⟨left, hleft, -, hstop⟩ := ((operands _ hx).leaf l hl).2 span hspan
      obtain ⟨right, hright, hstart, -⟩ := ((operands _ hy).leaf r hr).2 other hother
      exact ⟨left, right, hleft, hright, Nat.le_trans hstop (Nat.le_trans hle hstart)⟩

/-- No two leaves have the same place. -/
theorem Nested.nodup_leaves (h : Nested tokens e) : (e.leaves.map origin).Nodup := by
  refine List.pairwise_map.mpr (h.leaves_apart.imp_of_mem fun hx _ hbefore hsame => ?_)
  obtain ⟨span, hspan, hrange⟩ := (h.leaf _ hx).1.exists_range
  obtain ⟨left, right, hleft, hright, hle⟩ := hbefore
  have hlt := hrange.start_lt_stop
  rw [← hsame, hspan] at hright
  rw [hspan] at hleft
  cases hleft
  cases hright
  omega

end Expr

/-! ### The whole normal form -/

/-- The places of the shorthands that become options. -/
def shorthandPlaces (e : Expr) : List (Option Span) :=
  (spellOutShorthands e).optionsPlaces

/-- **No operand is lost, doubled or moved.**  The leaves of a normal form are those of the
tree without the shorthands that have become options, one for each options object. -/
theorem leaves_normalForm {source : String} {tree : Expr}
    (h : parse source (tokenize source).tokens = .ok tree) :
    (normalForm tree).leaves = tree.leaves.filter (fun x => x.origin ∉ shorthandPlaces tree) ∧
    (tree.leaves.filter fun x => x.origin ∈ shorthandPlaces tree).map origin =
      shorthandPlaces tree ∧
    ∀ x ∈ tree.leaves, x.origin ∈ shorthandPlaces tree →
      x = .literal (.text "case-insensitive") x.origin ∨
      x = .literal (.text "include-current") x.origin := by
  have hwritten := written_of_parse h
  have hdistinct := (nested_of_parse (laid_tokenize source) h).nodup_leaves
  obtain ⟨taken, htaken⟩ := takesLeaves_spellOutShorthands hwritten
  have hleaves := htaken.leaves
  have hplaces := htaken.places
  rw [List.flatMap_singleton] at hplaces
  rw [List.flatMap_singleton, List.flatMap_singleton] at hleaves
  obtain ⟨hkept, hout⟩ := hleaves.filter_mark hdistinct
  rw [hplaces] at hkept hout
  refine ⟨(isKept_placedLeaf.listed_normalForm hwritten).trans hkept.symm, ?_, ?_⟩
  · rw [shorthandPlaces, hout, hplaces]
  · intro x hx hplace
    have hmem : x ∈ taken := hout ▸ List.mem_filter.mpr ⟨hx, decide_eq_true hplace⟩
    exact eq_of_isSome_shorthandSetting? (htaken.shorthands x hmem)

/-- A conditional with a search in its test. -/
def searchInTest : String :=
  "case(contains([A], \"b\", \"case-insensitive\"), [C], 2)"

/-- The shorthand is the only leaf that is taken out. -/
theorem leaves_normalForm_search :
    ∃ tree, parse searchInTest (tokenize searchInTest).tokens = .ok tree ∧
      shorthandPlaces tree = [some ⟨24, 42⟩] ∧
      (normalForm tree).leaves =
        tree.leaves.filter (fun x => x.origin ∉ shorthandPlaces tree) ∧
      (tree.leaves.filter fun x => x.origin ∈ shorthandPlaces tree).map origin =
        shorthandPlaces tree ∧
      ∀ x ∈ tree.leaves, x.origin ∈ shorthandPlaces tree →
        x = .literal (.text "case-insensitive") x.origin ∨
        x = .literal (.text "include-current") x.origin := by
  obtain ⟨tree, htree, hplaces⟩ := exists_ok_of_any
    (show (parse searchInTest (tokenize searchInTest).tokens).toOption.any
      (fun tree => shorthandPlaces tree == [some ⟨24, 42⟩]) = true by decide +kernel)
  exact ⟨tree, htree, beq_iff_eq.mp hplaces, leaves_normalForm htree⟩

end QueryFormula
