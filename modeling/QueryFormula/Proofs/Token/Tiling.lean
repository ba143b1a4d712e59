import QueryFormula.Proofs.Token.Scans

/-!
# Tokens tile the source

The tokens of a source lie one behind the other, each over the characters that it is, and
between them, up to the end or to the fault, stand only blanks (`Scanned.Tiles`).  A scanner
that is asked again and again gives these tokens, then the end or the fault, and whatever it
is asked after that it neither steps back nor leaves the source (`tokenize_tiles`).
-/

namespace QueryFormula

/-! ### Places in a text -/

/-- The place lies between two characters of the text, or at one of its ends. -/
def IsBoundary (text : List Char) (place : Nat) : Prop :=
  ∃ before after, text = before ++ after ∧ byteLength before = place

/-- The span lies in the text and cuts no character. -/
structure Span.IsIn (text : List Char) (span : Span) : Prop where
  ordered : span.start ≤ span.stop
  start_boundary : IsBoundary text span.start
  stop_boundary : IsBoundary text span.stop

/-- The characters stand in the text, over the span. -/
def Span.Covers (text covered : List Char) (span : Span) : Prop :=
  ∃ before after, text = before ++ (covered ++ after) ∧
    span = ⟨byteLength before, byteLength before + byteLength covered⟩

section Places

variable {text covered : List Char} {place : Nat} {span : Span}

theorem byteLength_pos (hne : covered ≠ []) : 0 < byteLength covered := by
  cases covered with
  | nil => exact absurd rfl hne
  | cons c cs => exact Nat.add_pos_left (Char.utf8Size_pos c) _

theorem eq_nil_of_byteLength_eq_zero (h : byteLength covered = 0) : covered = [] := by
  cases covered with
  | nil => rfl
  | cons c cs => exact absurd h (Nat.ne_of_gt (byteLength_pos (List.cons_ne_nil c cs)))

theorem IsBoundary.le (h : IsBoundary text place) : place ≤ byteLength text := by
  obtain ⟨before, after, rfl, rfl⟩ := h
  rw [byteLength_append]
  exact Nat.le_add_right _ _

theorem Span.Covers.isIn (h : span.Covers text covered) : span.IsIn text := by
  obtain ⟨before, after, rfl, rfl⟩ := h
  refine ⟨Nat.le_add_right _ _, ⟨before, covered ++ after, rfl, rfl⟩,
    ⟨before ++ covered, after, ?_, byteLength_append ..⟩⟩
  rw [List.append_assoc]

theorem Span.Covers.start_lt_stop (h : span.Covers text covered) (hne : covered ≠ []) :
    span.start < span.stop := by
  obtain ⟨before, after, -, rfl⟩ := h
  exact Nat.lt_add_of_pos_right (byteLength_pos hne)

/-- A character that begins within a run of characters is one of them. -/
theorem mem_of_between {before after front run rest : List Char} {c : Char}
    (happend : before ++ c :: after = front ++ (run ++ rest))
    (hfrom : byteLength front ≤ byteLength before)
    (hto : byteLength before < byteLength front + byteLength run) : c ∈ run := by
  obtain ⟨inner, rfl, htail⟩ : ∃ inner, before = front ++ inner ∧
      run ++ rest = inner ++ c :: after := by
    rcases List.append_eq_append_iff.mp happend with ⟨extra, rfl, htail⟩ | ⟨inner, rfl, htail⟩
    · obtain rfl : extra = [] := by
        rw [byteLength_append] at hfrom
        exact eq_nil_of_byteLength_eq_zero (by omega)
      exact ⟨[], by simp, htail.symm⟩
    · exact ⟨inner, rfl, htail⟩
  rw [byteLength_append] at hto
  rcases List.append_eq_append_iff.mp htail with ⟨extra, rfl, -⟩ | ⟨extra, rfl, hextra⟩
  · rw [byteLength_append] at hto
    omega
  · cases extra with
    | nil =>
        rw [List.append_nil] at hto
        omega
    | cons d extra =>
        obtain ⟨rfl, -⟩ := List.cons.inj hextra
        simp

end Places

/-! ### What tiling means -/

namespace Scanned

/-- Where the tokens end: at the fault, or at the end of the text. -/
def reach (text : List Char) (scanned : Scanned) : Nat :=
  match scanned.error with
  | some error => error.span.start
  | none => byteLength text

/-- The tokens and the fault lie in the text from a place on, in order, and nothing but
blanks is left between them. -/
structure Tiles (text : List Char) (start : Nat) (scanned : Scanned) : Prop where
  covers : ∀ token ∈ scanned.tokens, token.span.Covers text token.text.toList
  nonempty : ∀ token ∈ scanned.tokens, token.span.start < token.span.stop
  start_le_reach : start ≤ scanned.reach text
  started : ∀ token ∈ scanned.tokens, start ≤ token.span.start
  ordered : scanned.tokens.Pairwise fun token later => token.span.stop ≤ later.span.start
  reached : ∀ token ∈ scanned.tokens, token.span.stop ≤ scanned.reach text
  blank : ∀ before c after, text = before ++ c :: after → start ≤ byteLength before →
    byteLength before < scanned.reach text →
    (∀ token ∈ scanned.tokens,
      ¬(token.span.start ≤ byteLength before ∧ byteLength before < token.span.stop)) →
    isBlank c = true
  error : ∀ error ∈ scanned.error, error.span.IsIn text ∧ error.span.start < error.span.stop

/-- What a scanner answers that is asked up to the end or to the fault. -/
def answers (scanned : Scanned) : List (Except LexError (Option Token)) :=
  scanned.tokens.map (fun token => .ok (some token)) ++
    [match scanned.error with
      | some error => .error error
      | none => .ok none]

end Scanned

namespace Cursor

/-- The place after a number of calls, whatever they answered. -/
def after (cursor : Cursor) : Nat → Cursor
  | 0 => cursor
  | calls + 1 => cursor.next.2.after calls

/-- The answers to a number of calls. -/
def answers (cursor : Cursor) : Nat → List (Except LexError (Option Token))
  | 0 => []
  | calls + 1 => cursor.next.1 :: cursor.next.2.answers calls

/-- However often it is asked, a scanner neither steps back nor leaves the text. -/
structure StaysIn (text : List Char) (cursor : Cursor) : Prop where
  boundary : ∀ calls, IsBoundary text (cursor.after calls).offset
  bounded : ∀ calls, (cursor.after calls).offset ≤ byteLength text
  monotone : ∀ calls later, calls ≤ later →
    (cursor.after calls).offset ≤ (cursor.after later).offset
  advances : ∀ calls token, (cursor.after calls).next.1 = .ok (some token) →
    (cursor.after calls).offset < (cursor.after (calls + 1)).offset

end Cursor

/-! ### The tokens -/

/-- A fault covers some characters at the front of the text. -/
theorem scan_refused_covered {c : Char} {cs covered passed rest : List Char} {fault : LexFault}
    (h : scan c cs = .refused fault covered passed rest) :
    covered ≠ [] ∧ ∃ tail, covered ++ tail = c :: cs := by
  unfold scan at h
  split at h
  · cases h
  · split at h
    · unfold scanString at h
      split at h <;> cases h
      exact ⟨List.cons_ne_nil _ _, [], List.append_nil _⟩
    · split at h
      · rename_i hc
        subst hc
        unfold scanBracketed at h
        split at h <;> cases h
        · rename_i hextent
          obtain ⟨rfl, tail, rfl⟩ := Bracketed.extent_reopened_append hextent
          exact ⟨List.cons_ne_nil _ _, tail, by simp⟩
        · exact ⟨List.cons_ne_nil _ _, [], List.append_nil _⟩
      · split at h
        · rename_i hnumber
          unfold scanNumber at h
          have happend := Numeral.split_append (c :: cs)
          have hne := Numeral.chars_ne_nil_of_beginsNumber hnumber
          dsimp only at h
          split at h <;> cases h
          exact ⟨hne, _, happend⟩
        · split at h
          · cases h
          · cases h
            exact ⟨List.cons_ne_nil _ _, cs, rfl⟩

namespace Scanned

variable {text front blank run rest : List Char} {start : Nat} {kind : TokenClass}
  {others : Scanned}

theorem tiles_blank (hblank : AreBlank blank) :
    Tiles (front ++ blank) (byteLength front) ⟨[], none⟩ := by
  refine ⟨by simp, by simp, ?_, by simp, .nil, by simp, ?_, by simp⟩
  · rw [reach, byteLength_append]
    exact Nat.le_add_right _ _
  intro before c after htext hfrom hto _
  have happend : before ++ c :: after = front ++ (blank ++ []) := by
    rw [List.append_nil, htext]
  rw [reach, byteLength_append] at hto
  exact hblank c (mem_of_between happend hfrom hto)

theorem tiles_fault (hblank : AreBlank blank) {fault : LexFault} {covered tail : List Char}
    (hne : covered ≠ []) :
    Tiles (front ++ (blank ++ (covered ++ tail))) (byteLength front)
      ⟨[], some (lexedError fault covered (byteLength front + byteLength blank))⟩ := by
  have hcovers : (lexedError fault covered (byteLength front + byteLength blank)).span.Covers
      (front ++ (blank ++ (covered ++ tail))) covered := by
    refine ⟨front ++ blank, tail, by simp, ?_⟩
    rw [lexedError, byteLength_append]
  refine ⟨by simp, by simp, Nat.le_add_right _ _, by simp, .nil, by simp, ?_, ?_⟩
  · intro before c after htext hfrom hto _
    exact hblank c (mem_of_between htext.symm hfrom hto)
  · rintro error ⟨⟩
    exact ⟨hcovers.isIn, hcovers.start_lt_stop hne⟩

/-- What tiles the text behind a token tiles it, with the token, from before the blanks. -/
theorem Tiles.cons (hblank : AreBlank blank) (hne : run ≠ [])
    (h : others.Tiles (front ++ (blank ++ (run ++ rest)))
      (byteLength front + byteLength blank + byteLength run)) :
    (others.cons (lexedToken kind run (byteLength front + byteLength blank))).Tiles
      (front ++ (blank ++ (run ++ rest))) (byteLength front) := by
  have htext : (lexedToken kind run (byteLength front + byteLength blank)).text.toList = run :=
    String.toList_ofList
  have hstart : (lexedToken kind run (byteLength front + byteLength blank)).span.start =
      byteLength front + byteLength blank := rfl
  have hstop : (lexedToken kind run (byteLength front + byteLength blank)).span.stop =
      byteLength front + byteLength blank + byteLength run := rfl
  have hcovers : (lexedToken kind run (byteLength front + byteLength blank)).span.Covers
      (front ++ (blank ++ (run ++ rest))) run := by
    refine ⟨front ++ blank, rest, by rw [List.append_assoc], ?_⟩
    rw [byteLength_append, lexedToken]
  have hlt := hcovers.start_lt_stop hne
  have hreach := h.start_le_reach
  generalize lexedToken kind run (byteLength front + byteLength blank) = token at *
  constructor
  case covers => exact List.forall_mem_cons.mpr ⟨by rwa [htext], h.covers⟩
  case nonempty => exact List.forall_mem_cons.mpr ⟨hlt, h.nonempty⟩
  case start_le_reach =>
      change _ ≤ others.reach _
      omega
  case started =>
      refine List.forall_mem_cons.mpr ⟨by omega, fun later hlater => ?_⟩
      have hlater := h.started later hlater
      omega
  case ordered => exact .cons (fun later hlater => hstop ▸ h.started later hlater) h.ordered
  case reached => exact List.forall_mem_cons.mpr ⟨hstop ▸ hreach, h.reached⟩
  case blank =>
      intro before c after happend hfrom hto houtside
      obtain ⟨hhere, hothers⟩ := List.forall_mem_cons.mp houtside
      by_cases hblanks : byteLength before < byteLength front + byteLength blank
      · exact hblank c (mem_of_between happend.symm hfrom hblanks)
      · exact h.blank before c after happend (by omega) hto hothers
  case error => exact h.error

end Scanned

/-- What is scanned from a place on tiles the text from there on. -/
theorem Cursor.tokens_tile (offset : Nat) (cs : List Char) :
    ∀ front, byteLength front = offset →
      (⟨offset, cs⟩ : Cursor).tokens.Tiles (front ++ cs) offset := by
  refine tokens_induct (motive := fun offset cs scanned =>
    ∀ front, byteLength front = offset → scanned.Tiles (front ++ cs) offset) ?_ ?_ ?_ offset cs
  · rintro offset blank hblank front rfl
    exact Scanned.tiles_blank hblank
  · rintro offset blank cs covered passed rest c fault hblank hc hscan front rfl
    obtain ⟨hne, tail, happend⟩ := scan_refused_covered hscan
    rw [← happend]
    exact Scanned.tiles_fault hblank hne
  · rintro offset blank cs run rest c kind others hblank hc hscan ih front rfl
    obtain ⟨happend, hne⟩ := scan_token_append hscan
    have hothers := ih (front ++ (blank ++ run)) (by simp [Nat.add_assoc])
    simp only [List.append_assoc] at hothers
    rw [← happend]
    exact Scanned.Tiles.cons hblank hne hothers

/-! ### The calls -/

namespace Cursor

/-- The second place lies some characters behind the first. -/
def Advances (cursor later : Cursor) (passed : List Char) : Prop :=
  cursor.rest = passed ++ later.rest ∧ later.offset = cursor.offset + byteLength passed

variable {cursor later : Cursor}

theorem Advances.trans {middle : Cursor} {passed passed' : List Char}
    (h : cursor.Advances middle passed) (h' : middle.Advances later passed') :
    cursor.Advances later (passed ++ passed') := by
  refine ⟨?_, ?_⟩
  · rw [h.1, h'.1, List.append_assoc]
  · rw [h'.2, h.2, byteLength_append, Nat.add_assoc]

/-- A call passes over some characters, and over one at least for a token. -/
theorem advances_next (cursor : Cursor) :
    ∃ passed, cursor.Advances cursor.next.2 passed ∧
      ∀ token, cursor.next.1 = .ok (some token) → passed ≠ [] := by
  obtain ⟨offset, cs⟩ := cursor
  obtain ⟨blank, rest, rfl, hblank, hhead⟩ := exists_blanks cs
  cases rest with
  | nil =>
      rw [List.append_nil, next_blank offset hblank]
      exact ⟨blank, ⟨(List.append_nil _).symm, rfl⟩, by rintro _ ⟨⟩⟩
  | cons c cs =>
      have hc : isBlank c = false := hhead c rfl
      cases hscan : scan c cs with
      | token kind text rest =>
          obtain ⟨happend, hne⟩ := scan_token_append hscan
          rw [next_token offset hblank hc hscan]
          refine ⟨blank ++ text, ⟨?_, ?_⟩, fun _ _ => List.append_ne_nil_of_right_ne_nil _ hne⟩
          · rw [List.append_assoc, happend]
          · rw [byteLength_append, Nat.add_assoc]
      | refused fault covered passed rest =>
          have happend := scan_refused_append hscan
          rw [next_refused offset hblank hc hscan]
          refine ⟨blank ++ passed, ⟨?_, ?_⟩, by rintro _ ⟨⟩⟩
          · rw [List.append_assoc, happend]
          · rw [byteLength_append, Nat.add_assoc]

theorem after_succ (cursor : Cursor) (calls : Nat) :
    cursor.after (calls + 1) = (cursor.after calls).next.2 := by
  induction calls generalizing cursor with
  | zero => rfl
  | succ calls ih => exact ih cursor.next.2

/-- Any number of calls passes over some characters. -/
theorem advances_after (cursor : Cursor) (calls more : Nat) :
    ∃ passed, (cursor.after calls).Advances (cursor.after (calls + more)) passed := by
  induction more with
  | zero => exact ⟨[], rfl, rfl⟩
  | succ more ih =>
      obtain ⟨passed, hpassed⟩ := ih
      obtain ⟨passed', hpassed', -⟩ := advances_next (cursor.after (calls + more))
      rw [← Nat.add_assoc, after_succ]
      exact ⟨passed ++ passed', hpassed.trans hpassed'⟩

/-- **Any number of calls** on a scanner at the beginning of a text. -/
theorem staysIn_ofText (source : String) : (ofText source).StaysIn source.toList := by
  have hboundary : ∀ calls, IsBoundary source.toList ((ofText source).after calls).offset := by
    intro calls
    obtain ⟨passed, hrest, hoffset⟩ := advances_after (ofText source) 0 calls
    rw [Nat.zero_add] at hrest hoffset
    refine ⟨passed, ((ofText source).after calls).rest, hrest, ?_⟩
    rw [hoffset]
    exact (Nat.zero_add _).symm
  constructor
  case boundary => exact hboundary
  case bounded => exact fun calls => (hboundary calls).le
  case monotone =>
      intro calls later hle
      obtain ⟨more, rfl⟩ := Nat.exists_eq_add_of_le hle
      obtain ⟨passed, -, hoffset⟩ := advances_after (ofText source) calls more
      rw [hoffset]
      exact Nat.le_add_right _ _
  case advances =>
      intro calls token htoken
      obtain ⟨passed, ⟨-, hoffset⟩, hne⟩ := advances_next ((ofText source).after calls)
      rw [after_succ, hoffset]
      exact Nat.lt_add_of_pos_right (byteLength_pos (hne token htoken))

end Cursor

/-! ### The whole source -/

/-- A scanner that is asked up to the end or to the fault answers with the tokens and with
that. -/
theorem Cursor.answers_eq (offset : Nat) (cs : List Char) :
    (⟨offset, cs⟩ : Cursor).answers ((⟨offset, cs⟩ : Cursor).tokens.tokens.length + 1) =
      (⟨offset, cs⟩ : Cursor).tokens.answers := by
  refine tokens_induct (motive := fun offset cs scanned =>
    (⟨offset, cs⟩ : Cursor).answers (scanned.tokens.length + 1) = scanned.answers)
    ?_ ?_ ?_ offset cs
  · intro offset blank hblank
    rw [answers, next_blank offset hblank]
    rfl
  · intro offset blank cs covered passed rest c fault hblank hc hscan
    rw [answers, next_refused offset hblank hc hscan]
    rfl
  · intro offset blank cs text rest c kind others hblank hc hscan ih
    rw [answers, next_token offset hblank hc hscan]
    exact congrArg (List.cons _) ih

/-- There are no more tokens than characters. -/
theorem Cursor.length_tokens_le (offset : Nat) (cs : List Char) :
    (⟨offset, cs⟩ : Cursor).tokens.tokens.length ≤ cs.length := by
  refine tokens_induct (motive := fun _ cs scanned => scanned.tokens.length ≤ cs.length)
    ?_ ?_ ?_ offset cs
  · exact fun _ => Nat.zero_le _
  · exact fun _ _ _ => Nat.zero_le _
  · intro offset blank cs text rest c kind others hblank hc hscan ih
    obtain ⟨happend, hne⟩ := scan_token_append hscan
    have hlength : (others.cons (lexedToken kind text (offset + byteLength blank))).tokens.length =
        others.tokens.length + 1 := rfl
    have hpos := List.length_pos_iff.mpr hne
    rw [← happend, List.length_append, List.length_append, hlength]
    omega

/-- **The tokens tile the source**: they lie in order over the characters that they are, and
only blanks are left between them.  Scanning ends, after no more calls than there are
characters and one; and calls that go on, behind the end or a fault, stay in the source. -/
theorem tokenize_tiles (source : String) :
    (tokenize source).Tiles source.toList 0 ∧
      (tokenize source).tokens.length ≤ source.length ∧
      (Cursor.ofText source).answers ((tokenize source).tokens.length + 1) =
        (tokenize source).answers ∧
      (Cursor.ofText source).StaysIn source.toList :=
  ⟨Cursor.tokens_tile 0 source.toList [] rfl, Cursor.length_tokens_le 0 source.toList,
    Cursor.answers_eq 0 source.toList, Cursor.staysIn_ofText source⟩

end QueryFormula
