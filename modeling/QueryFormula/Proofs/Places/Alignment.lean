import QueryFormula.Proofs.Places.Reading
import QueryFormula.Proofs.Token.Alone

/-!
# Sources with the same token texts

What a token is can be told from its text alone (`kind_eq_of_text_eq`).  So two sources whose
tokens have the same texts, one by one, have the same tokens but for their places, and since
places come in the same order in both, the tokens of the one are those of the other, moved
(`exists_relocation`).
-/

namespace QueryFormula

/-! ### The text of a token -/

/-- **The text of a token** tells what it is. -/
theorem kind_eq_of_text_eq {source source' : String} {token token' : Token}
    (h : token ∈ (tokenize source).tokens) (h' : token' ∈ (tokenize source').tokens)
    (htext : token.text = token'.text) : token.kind = token'.kind := by
  obtain ⟨c, cs, hchars, hscan⟩ := scan_of_mem_tokenize source token h
  obtain ⟨c', cs', hchars', hscan'⟩ := scan_of_mem_tokenize source' token' h'
  rw [htext] at hchars hscan
  obtain ⟨rfl, rfl⟩ := List.cons.inj (hchars.symm.trans hchars')
  injection hscan.symm.trans hscan'

/-! ### Places in the same order -/

/-- The furthest place that belongs to a place up to this one. -/
def movedPlace : List (Nat × Nat) → Nat → Nat
  | [], _ => 0
  | p :: pairs, place => max (if p.1 ≤ place then p.2 else 0) (movedPlace pairs place)

theorem le_movedPlace {pairs : List (Nat × Nat)} {p : Nat × Nat} {place : Nat} (hp : p ∈ pairs)
    (hle : p.1 ≤ place) : p.2 ≤ movedPlace pairs place := by
  induction pairs with
  | nil => cases hp
  | cons q pairs ih =>
      rcases List.mem_cons.mp hp with rfl | hp
      · rw [movedPlace, if_pos hle]
        exact Nat.le_max_left ..
      · exact Nat.le_trans (ih hp) (Nat.le_max_right ..)

theorem movedPlace_le {pairs : List (Nat × Nat)} {place bound : Nat}
    (h : ∀ p ∈ pairs, p.1 ≤ place → p.2 ≤ bound) : movedPlace pairs place ≤ bound := by
  induction pairs with
  | nil => exact Nat.zero_le bound
  | cons q pairs ih =>
      obtain ⟨hq, hbelow⟩ := List.forall_mem_cons.mp h
      refine Nat.max_le.mpr ⟨?_, ih hbelow⟩
      split
      · exact hq ‹_›
      · exact Nat.zero_le bound

theorem monotone_movedPlace (pairs : List (Nat × Nat)) : Monotone (movedPlace pairs) :=
  fun _ _ hle => movedPlace_le fun _ hp hplace => le_movedPlace hp (Nat.le_trans hplace hle)

/-- Places that come in the same order are moved to those they belong to. -/
theorem movedPlace_eq {pairs : List (Nat × Nat)}
    (h : ∀ p ∈ pairs, ∀ q ∈ pairs, p.1 ≤ q.1 → p.2 ≤ q.2) {p : Nat × Nat} (hp : p ∈ pairs) :
    movedPlace pairs p.1 = p.2 :=
  Nat.le_antisymm (movedPlace_le fun q hq hle => h q hq p hp hle)
    (le_movedPlace hp (Nat.le_refl _))

section Alignment

variable {tokens tokens' : List Token}

/-- The moves that take the places of the first tokens to those of the second. -/
def Relocation.between (tokens tokens' : List Token) : Relocation where
  start := movedPlace ((tokens.zip tokens').map fun p => (p.1.span.start, p.2.span.start))
  stop := movedPlace ((tokens.zip tokens').map fun p => (p.1.span.stop, p.2.span.stop))
  start_mono := monotone_movedPlace _
  stop_mono := monotone_movedPlace _

/-- Where one token begins no later than another, or ends no later, so does its counterpart. -/
theorem Laid.inStep (h : Laid tokens) (h' : Laid tokens') {p q : Token × Token}
    (hp : p ∈ tokens.zip tokens') (hq : q ∈ tokens.zip tokens') :
    (p.1.span.start ≤ q.1.span.start → p.2.span.start ≤ q.2.span.start) ∧
      (p.1.span.stop ≤ q.1.span.stop → p.2.span.stop ≤ q.2.span.stop) := by
  obtain ⟨i, hi, rfl⟩ := List.mem_iff_getElem.mp hp
  obtain ⟨j, hj, rfl⟩ := List.mem_iff_getElem.mp hq
  rw [List.length_zip, Nat.lt_min] at hi hj
  rw [List.getElem_zip, List.getElem_zip]
  dsimp only
  have hi0 := h.nonempty _ (List.getElem_mem hi.1)
  have hj0 := h.nonempty _ (List.getElem_mem hj.1)
  have hi0' := h'.nonempty _ (List.getElem_mem hi.2)
  have hj0' := h'.nonempty _ (List.getElem_mem hj.2)
  rcases Nat.lt_trichotomy i j with hlt | rfl | hlt
  · have hbefore := List.pairwise_iff_getElem.mp h'.ordered i j hi.2 hj.2 hlt
    omega
  · exact ⟨fun _ => Nat.le_refl _, fun _ => Nat.le_refl _⟩
  · have hbefore := List.pairwise_iff_getElem.mp h.ordered j i hj.1 hi.1 hlt
    omega

theorem Laid.span_between (h : Laid tokens) (h' : Laid tokens') {p : Token × Token}
    (hp : p ∈ tokens.zip tokens') :
    (Relocation.between tokens tokens').span p.1.span = p.2.span := by
  have hstart : (Relocation.between tokens tokens').start p.1.span.start = p.2.span.start := by
    refine movedPlace_eq (p := (p.1.span.start, p.2.span.start)) ?_ (List.mem_map_of_mem hp)
    exact List.forall_mem_map.mpr fun q hq => List.forall_mem_map.mpr fun q' hq' =>
      (h.inStep h' hq hq').1
  have hstop : (Relocation.between tokens tokens').stop p.1.span.stop = p.2.span.stop := by
    refine movedPlace_eq (p := (p.1.span.stop, p.2.span.stop)) ?_ (List.mem_map_of_mem hp)
    exact List.forall_mem_map.mpr fun q hq => List.forall_mem_map.mpr fun q' hq' =>
      (h.inStep h' hq hq').2
  rw [Relocation.span, hstart, hstop]

end Alignment

/-- **The same tokens, moved**: the tokens of a source with the same token texts. -/
theorem exists_relocation {source source' : String}
    (htexts : (tokenize source).tokens.map Token.text = (tokenize source').tokens.map Token.text) :
    ∃ r : Relocation,
      (tokenize source').tokens = (tokenize source).tokens.map (Token.relocate r) := by
  have hkinds : ∀ token ∈ (tokenize source).tokens, ∀ token' ∈ (tokenize source').tokens,
      token.text = token'.text → token.kind = token'.kind :=
    fun _ h _ h' => kind_eq_of_text_eq h h'
  have hlaid := laid_tokenize source
  have hlaid' := laid_tokenize source'
  generalize (tokenize source).tokens = tokens at *
  generalize (tokenize source').tokens = tokens' at *
  have hlength : tokens.length = tokens'.length := by
    simpa using congrArg List.length htexts
  refine ⟨.between tokens tokens',
    List.ext_getElem (by rw [List.length_map, hlength]) fun i hi' hmap => ?_⟩
  have hi : i < tokens.length := hlength ▸ hi'
  have htext : tokens[i].text = tokens'[i].text := by
    simpa [hi, hi'] using congrArg (fun texts => texts[i]?) htexts
  have hkind := hkinds _ (List.getElem_mem hi) _ (List.getElem_mem hi') htext
  have hzip : (tokens[i], tokens'[i]) ∈ tokens.zip tokens' :=
    List.mem_iff_getElem.mpr ⟨i, by rw [List.length_zip]; omega, List.getElem_zip⟩
  have hspan := hlaid.span_between hlaid' hzip
  rw [List.getElem_map, Token.relocate, hspan, htext, hkind]

end QueryFormula
