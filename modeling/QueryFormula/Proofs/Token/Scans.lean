import QueryFormula.Token.Cursor

/-!
# Scanning without a fault

`Scans` is a derivation of the tokens of a text: blanks, a lexeme, and so on to the end.
What scanning finds without a fault is what is derived (`scans_iff`), so that a fact about
tokens is proved by induction on how they are found.
-/

namespace QueryFormula

/-! ### One step -/

/-- A token that is found comes before what is found behind it. -/
theorem Cursor.tokens_of_next_token {cursor after : Cursor} {token : Token}
    (h : cursor.next = (.ok (some token), after)) :
    cursor.tokens = after.tokens.cons token := by
  rw [Cursor.tokens]
  split <;> simp_all

/-- Where nothing more is found there are no tokens. -/
theorem Cursor.tokens_of_next_none {cursor after : Cursor}
    (h : cursor.next = (.ok none, after)) : cursor.tokens = ⟨[], none⟩ := by
  rw [Cursor.tokens]
  split <;> simp_all

/-- Where a fault is found there are no tokens. -/
theorem Cursor.tokens_of_next_error {cursor after : Cursor} {error : LexError}
    (h : cursor.next = (.error error, after)) : cursor.tokens = ⟨[], some error⟩ := by
  rw [Cursor.tokens]
  split <;> simp_all

/-- At the end of the source there are no tokens. -/
theorem Cursor.tokens_end (offset : Nat) : (⟨offset, []⟩ : Cursor).tokens = ⟨[], none⟩ :=
  tokens_of_next_none rfl

/-- Nothing but blanks. -/
def AreBlank (cs : List Char) : Prop :=
  ∀ c ∈ cs, isBlank c = true

/-- A text begins with blanks, behind which no blank stands. -/
theorem exists_blanks (cs : List Char) :
    ∃ blank rest, cs = blank ++ rest ∧ AreBlank blank ∧ ∀ c ∈ rest.head?, isBlank c = false := by
  refine ⟨cs.takeWhile isBlank, cs.dropWhile isBlank, ?_, ?_, ?_⟩
  · exact List.takeWhile_append_dropWhile.symm
  · exact List.all_eq_true.mp List.all_takeWhile
  · intro c hc
    have hhead := List.head?_dropWhile_not isBlank cs
    rw [Option.mem_def.mp hc] at hhead
    simpa using hhead

section Next

variable (offset : Nat) {blank cs : List Char} {c : Char}

theorem splitBlank_blanks (hblank : AreBlank blank) (rest : List Char) :
    splitBlank (blank ++ rest) = (blank ++ (splitBlank rest).1, (splitBlank rest).2) := by
  rw [splitBlank, List.takeWhile_append_of_pos hblank, List.dropWhile_append_of_pos hblank,
    splitBlank]

theorem splitBlank_cons (hblank : AreBlank blank) (hc : isBlank c = false) :
    splitBlank (blank ++ c :: cs) = (blank, c :: cs) := by
  rw [splitBlank_blanks hblank]
  simp [splitBlank, hc]

theorem Cursor.next_blank (hblank : AreBlank blank) :
    (⟨offset, blank⟩ : Cursor).next = (.ok none, ⟨offset + byteLength blank, []⟩) := by
  have hsplit := splitBlank_blanks hblank []
  rw [List.append_nil, show splitBlank [] = ([], []) from rfl, List.append_nil] at hsplit
  rw [Cursor.next, hsplit]

/-- The token that a lexeme is at a place. -/
def lexedToken (kind : TokenClass) (text : List Char) (start : Nat) : Token :=
  ⟨kind, String.ofList text, ⟨start, start + byteLength text⟩⟩

theorem Cursor.next_token (hblank : AreBlank blank) (hc : isBlank c = false) {kind : TokenClass}
    {text rest : List Char} (hscan : scan c cs = .token kind text rest) :
    (⟨offset, blank ++ c :: cs⟩ : Cursor).next =
      (.ok (some (lexedToken kind text (offset + byteLength blank))),
        ⟨offset + byteLength blank + byteLength text, rest⟩) := by
  simp [Cursor.next, splitBlank_cons hblank hc, hscan, lexedToken]

/-- The error that a fault is at a place. -/
def lexedError (fault : LexFault) (covered : List Char) (start : Nat) : LexError :=
  ⟨fault, ⟨start, start + byteLength covered⟩⟩

theorem Cursor.next_refused (hblank : AreBlank blank) (hc : isBlank c = false) {fault : LexFault}
    {covered passed rest : List Char} (hscan : scan c cs = .refused fault covered passed rest) :
    (⟨offset, blank ++ c :: cs⟩ : Cursor).next =
      (.error (lexedError fault covered (offset + byteLength blank)),
        ⟨offset + byteLength blank + byteLength passed, rest⟩) := by
  simp [Cursor.next, splitBlank_cons hblank hc, hscan, lexedError]

end Next

/-- **Induction on scanning**: to the end, to a fault, or past one token. -/
theorem Cursor.tokens_induct {motive : Nat → List Char → Scanned → Prop}
    (done : ∀ {offset : Nat} {blank : List Char}, AreBlank blank → motive offset blank ⟨[], none⟩)
    (refused : ∀ {offset : Nat} {blank cs covered passed rest : List Char} {c : Char}
      {fault : LexFault}, AreBlank blank → isBlank c = false →
      scan c cs = .refused fault covered passed rest →
      motive offset (blank ++ c :: cs)
        ⟨[], some (lexedError fault covered (offset + byteLength blank))⟩)
    (token : ∀ {offset : Nat} {blank cs text rest : List Char} {c : Char} {kind : TokenClass}
      {others : Scanned}, AreBlank blank → isBlank c = false →
      scan c cs = .token kind text rest →
      motive (offset + byteLength blank + byteLength text) rest others →
      motive offset (blank ++ c :: cs)
        (others.cons (lexedToken kind text (offset + byteLength blank))))
    (offset : Nat) (cs : List Char) : motive offset cs (⟨offset, cs⟩ : Cursor).tokens := by
  induction hlength : cs.length using Nat.strongRecOn generalizing offset cs with
  | ind n ih =>
      obtain ⟨blank, rest, rfl, hblank, hhead⟩ := exists_blanks cs
      cases rest with
      | nil =>
          rw [List.append_nil, Cursor.tokens_of_next_none (Cursor.next_blank _ hblank)]
          exact done hblank
      | cons c cs =>
          have hc : isBlank c = false := hhead c rfl
          cases hscan : scan c cs with
          | token kind text rest =>
              have hnext := Cursor.next_token offset hblank hc hscan
              have hshorter := Cursor.rest_length_lt_of_next hnext
              rw [Cursor.tokens_of_next_token hnext]
              exact token hblank hc hscan (ih _ (hlength ▸ hshorter) _ _ rfl)
          | refused fault covered passed rest =>
              rw [Cursor.tokens_of_next_error (Cursor.next_refused offset hblank hc hscan)]
              exact refused hblank hc hscan

/-! ### Derivations -/

/-- The tokens of a text that begins at an offset and holds no fault. -/
inductive Scans : Nat → List Char → List Token → Prop
  | done {offset : Nat} {blank : List Char} (hblank : AreBlank blank) : Scans offset blank []
  | token {offset : Nat} {blank cs text rest : List Char} {c : Char} {kind : TokenClass}
      {tokens : List Token} (hblank : AreBlank blank) (hc : isBlank c = false)
      (hscan : scan c cs = .token kind text rest)
      (hrest : Scans (offset + byteLength blank + byteLength text) rest tokens) :
      Scans offset (blank ++ c :: cs) (lexedToken kind text (offset + byteLength blank) :: tokens)

/-- What is derived is found. -/
theorem Scans.tokens_eq {offset : Nat} {cs : List Char} {tokens : List Token}
    (h : Scans offset cs tokens) : (⟨offset, cs⟩ : Cursor).tokens = ⟨tokens, none⟩ := by
  induction h with
  | done hblank => exact Cursor.tokens_of_next_none (Cursor.next_blank _ hblank)
  | token hblank hc hscan _ ih =>
      rw [Cursor.tokens_of_next_token (Cursor.next_token _ hblank hc hscan), ih]
      rfl

/-- What is found without a fault is derived. -/
theorem scans_of_error_eq_none {offset : Nat} {cs : List Char}
    (h : (⟨offset, cs⟩ : Cursor).tokens.error = none) :
    Scans offset cs (⟨offset, cs⟩ : Cursor).tokens.tokens := by
  revert h
  refine Cursor.tokens_induct (motive := fun offset cs scanned =>
    scanned.error = none → Scans offset cs scanned.tokens) ?_ ?_ ?_ offset cs
  · exact fun hblank _ => .done hblank
  · exact fun _ _ _ herror => by cases herror
  · exact fun hblank hc hscan ih herror => .token hblank hc hscan (ih herror)

/-- **Scanning without a fault** finds the tokens that are derived. -/
theorem scans_iff {source : String} {tokens : List Token} :
    tokenize source = ⟨tokens, none⟩ ↔ Scans 0 source.toList tokens := by
  refine ⟨fun h => ?_, Scans.tokens_eq⟩
  have hscans := scans_of_error_eq_none (congrArg Scanned.error h)
  rwa [show (⟨0, source.toList⟩ : Cursor).tokens = ⟨tokens, none⟩ from h] at hscans

/-! ### One lexeme -/

section Single

variable {c : Char} {cs : List Char} (hc : isBlank c = false)
include hc

/-- A lexeme that is the whole text is its only token. -/
theorem tokenize_of_scan {kind : TokenClass} {text : List Char}
    (hscan : scan c cs = .token kind text []) :
    tokenize (String.ofList (c :: cs)) = ⟨[lexedToken kind text 0], none⟩ := by
  have hnothing : AreBlank [] := List.forall_mem_nil _
  have hscans : Scans 0 (c :: cs) [lexedToken kind text 0] :=
    .token hnothing hc hscan (.done hnothing)
  exact scans_iff.mpr (String.toList_ofList ▸ hscans)

/-- Behind a fault nothing is found. -/
theorem tokenize_of_refused {fault : LexFault} {covered passed rest : List Char}
    (hscan : scan c cs = .refused fault covered passed rest) :
    tokenize (String.ofList (c :: cs)) = ⟨[], some (lexedError fault covered 0)⟩ := by
  have hnext := Cursor.next_refused 0 (List.forall_mem_nil _) hc hscan
  rw [tokenize, Cursor.ofText, String.toList_ofList]
  exact Cursor.tokens_of_next_error hnext

end Single

end QueryFormula
