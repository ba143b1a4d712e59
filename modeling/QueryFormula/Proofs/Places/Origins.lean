import QueryFormula.Proofs.Compile
import QueryFormula.Proofs.Places.Enclosed

/-!
# Reading the text of an origin

The text over the origin of a node is a source of its own.  Wherever the parentheses in it
have their partners it is read to that node again, at its new places (`readTree_origin`).
They need not: a group leaves the origin of what it encloses alone, so the origin of a
clause that begins or ends with a group cuts through the group, and the text is refused
(`readTree_origin_cut`).
-/

namespace QueryFormula

open Grammar

/-- The move by this many bytes. -/
def Relocation.shift (bytes : Nat) : Relocation where
  start place := place + bytes
  stop place := place + bytes
  start_mono _ _ h := Nat.add_le_add_right h bytes
  stop_mono _ _ h := Nat.add_le_add_right h bytes

theorem Token.relocate_shift (bytes : Nat) : Token.relocate (.shift bytes) = Token.shift bytes :=
  rfl

/-- Tokens that are parsed at one place are parsed at another. -/
theorem exists_parse_of_relocate {r : Relocation} {source source' : String}
    {tokens : List Token} {tree : Expr}
    (h : parse source' (tokens.map (Token.relocate r)) = .ok tree) :
    ∃ again, parse source tokens = .ok again ∧ again.relocate r = tree := by
  rcases parse_relocate r source source' tokens with
    ⟨again, hagain, hmoved⟩ | ⟨error, -, -, hmoved⟩
  · exact ⟨again, hagain, Except.ok.inj (hmoved.symm.trans h)⟩
  · cases hmoved.symm.trans h

/-- **Every node of a tree** has an origin, and what is written there, read by itself, is the
node, if the parentheses in it have their partners.  If not, it is no formula. -/
theorem readTree_origin {source : String} {tree node : Expr} (h : readTree source = .ok tree)
    (hnode : node ∈ tree.nodes) :
    ∃ span, node.origin = some span ∧
      (∃ text : String, span.Covers source.toList text.toList) ∧
      ∀ text : String, span.Covers source.toList text.toList →
        (ParenthesesMatch (tokenize text).tokens →
          ∃ again, readTree text = .ok again ∧ again.relocate (.shift span.start) = node) ∧
        (¬ParenthesesMatch (tokenize text).tokens →
          ∃ error, readTree text = .error (.parse error)) := by
  obtain ⟨-, hparse⟩ := readTree_eq_ok_iff.mp h
  obtain ⟨phrase, htokens, rfl, hneed⟩ := exists_phrase_of_parse hparse
  have hlaid : Laid phrase.tokens := htokens ▸ laid_tokenize source
  obtain ⟨front, core, back, hparts, hcore⟩ := (phrase.located hlaid).nodes node hnode
  obtain ⟨span, horigin, hextent⟩ := hcore.place
  obtain ⟨excerpt, hcovers, herror, hmoved⟩ := tokenize_excerpt (htokens.symm.trans hparts) hextent
  refine ⟨span, horigin, ⟨excerpt, hcovers⟩, fun text htext => ?_⟩
  obtain rfl : text = excerpt := String.toList_inj.mp (htext.unique hcovers)
  refine ⟨fun hmatch => ?_, fun hcut => ?_⟩
  · have hwhole : ParenthesesMatch core := by
      rw [← hmoved]
      exact (openBehind?_map (f := Token.shift span.start) (fun _ => rfl) 0 _).trans hmatch
    obtain ⟨formula, hformula, rfl, hfits⟩ := hcore.formula hwhole
    have hread := parse_of_phrase source formula (Nat.le_trans hfits hneed)
    rw [hformula, ← hmoved, ← Token.relocate_shift] at hread
    obtain ⟨again, hagain, hnode⟩ := exists_parse_of_relocate hread
    exact ⟨again, readTree_eq_ok_iff.mpr ⟨herror, hagain⟩, hnode⟩
  · cases hrefused : parse text (tokenize text).tokens with
    | ok again => exact absurd (parenthesesMatch_of_parse hrefused) hcut
    | error error =>
        refine ⟨error, ?_⟩
        simp only [readTree, herror, hrefused]
        rfl

/-- An argument of a call is read by itself. -/
theorem readTree_origin_argument :
    ∃ tree node again, readTree "f([A], 2 + 3)" = .ok tree ∧ node ∈ tree.nodes ∧
      node.origin = some ⟨7, 12⟩ ∧ readTree "2 + 3" = .ok again ∧
      again.relocate (.shift 7) = node := by
  obtain ⟨tree, htree, hany⟩ := exists_ok_of_any
    (show (readTree "f([A], 2 + 3)").toOption.any
      (fun tree => tree.nodes.any fun node => node.origin == some ⟨7, 12⟩) = true
      by decide +kernel)
  obtain ⟨node, hnode, horigin⟩ := List.any_eq_true.mp hany
  obtain ⟨span, hspan, -, htext⟩ := readTree_origin htree hnode
  obtain rfl : span = ⟨7, 12⟩ := Option.some.inj (hspan.symm.trans (beq_iff_eq.mp horigin))
  have hcovers : (⟨7, 12⟩ : Span).Covers "f([A], 2 + 3)".toList "2 + 3".toList :=
    ⟨"f([A], ".toList, ")".toList, by decide, by decide⟩
  obtain ⟨again, hagain, hmoved⟩ := (htext "2 + 3" hcovers).1 (by decide +kernel)
  exact ⟨tree, node, again, htree, hnode, hspan, hagain, hmoved⟩

/-- The origin of a negated number ends inside the group that the number stands in. -/
theorem readTree_origin_cut :
    ∃ tree node error, readTree "-(5)" = .ok tree ∧ node ∈ tree.nodes ∧
      node.origin = some ⟨0, 3⟩ ∧ (⟨0, 3⟩ : Span).Covers "-(5)".toList "-(5".toList ∧
      readTree "-(5" = .error error := by
  obtain ⟨tree, htree, hany⟩ := exists_ok_of_any
    (show (readTree "-(5)").toOption.any
      (fun tree => tree.nodes.any fun node => node.origin == some ⟨0, 3⟩) = true
      by decide +kernel)
  obtain ⟨node, hnode, horigin⟩ := List.any_eq_true.mp hany
  have hrefused : readTree "-(5" = .error (.parse ⟨.unclosedGroup, ⟨1, 2⟩⟩) :=
    error?_eq_some_iff.mp (by decide +kernel)
  exact ⟨tree, node, _, htree, hnode, beq_iff_eq.mp horigin, ⟨[], ")".toList, by decide, by decide⟩,
    hrefused⟩

end QueryFormula
