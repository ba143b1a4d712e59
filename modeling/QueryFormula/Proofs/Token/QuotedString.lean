import QueryFormula.Proofs.Json.Text
import QueryFormula.Proofs.Token.LetterCase
import QueryFormula.Proofs.Token.Scans

/-!
# Strings and what they mean

The text between two quotes is a row of items: a character, a backslash and a character, or a
`\u` with four digits that name a character (`Quoted.Item`).  Scanning passes over whole items
(`Quoted.WellFormed.isBody`) and decoding reads one after another (`Quoted.decode_items`), so a
quoted text of items is one token with their values (`tokenize_quoted`), and every text is
the value of one.

A quote is escaped by an odd number of backslashes right in front of it.  What stands between
two quotes ends with an even number of them (`Quoted.IsBody.even_backslashes`), so a text
in which every quote is escaped is never closed.
-/

namespace QueryFormula

namespace Quoted

/-! ### Items -/

/-- The letters and the digit that mean something else behind a backslash, with the code
points of the control characters that they stand for. -/
def controls : List (Char × Nat) :=
  [('n', 0x0A), ('t', 0x09), ('r', 0x0D), ('b', 0x08), ('f', 0x0C), ('v', 0x0B), ('0', 0x00)]

/-- What a character stands for behind a backslash. -/
def meaning (c : Char) : Char :=
  ((controls.lookup c).map Char.ofNat).getD c

/-- A hexadecimal digit, in either case, and what it is worth. -/
def IsHexDigit (c : Char) (n : Nat) : Prop :=
  "0123456789abcdef".toList[n]? = some c ∨ "0123456789ABCDEF".toList[n]? = some c

instance (c : Char) (n : Nat) : Decidable (IsHexDigit c n) :=
  inferInstanceAs (Decidable (_ ∨ _))

/-- Four hexadecimal digits that write the code point of a character. -/
def Names (a b c d x : Char) : Prop :=
  ∃ i j k l, IsHexDigit a i ∧ IsHexDigit b j ∧ IsHexDigit c k ∧ IsHexDigit d l ∧
    x.toNat = ((i * 16 + j) * 16 + k) * 16 + l

/-- The text begins with four digits that name a character. -/
def BeginsName (cs : List Char) : Prop :=
  ∃ a b c d x rest, cs = a :: b :: c :: d :: rest ∧ Names a b c d x

/-- A piece of the text between two quotes. -/
inductive Item where
  | plain (c : Char)
  /-- Behind a backslash. -/
  | escaped (c : Char)
  /-- Named by four digits behind a backslash and a `u`. -/
  | named (a b c d x : Char) (names : Names a b c d x)

namespace Item

/-- How the item is written. -/
def text : Item → List Char
  | plain c => [c]
  | escaped c => ['\\', c]
  | named a b c d _ _ => ['\\', 'u', a, b, c, d]

/-- What the item means. -/
def value : Item → Char
  | plain c => c
  | escaped c => meaning c
  | named _ _ _ _ x _ => x

end Item

/-- How items are written. -/
def itemsText (items : List Item) : List Char :=
  items.flatMap Item.text

theorem itemsText_cons (item : Item) (items : List Item) :
    itemsText (item :: items) = item.text ++ itemsText items :=
  rfl

/-- Items that may be written between two quotes.  A plain character is no quote and no
backslash, and behind an escaped `u` stand no digits that name a character. -/
inductive WellFormed (quote : Char) : List Item → Prop
  | nil : WellFormed quote []
  | plain {c : Char} {items : List Item} (hquote : c ≠ quote) (hbackslash : c ≠ '\\')
      (others : WellFormed quote items) : WellFormed quote (.plain c :: items)
  | escaped {c : Char} {items : List Item} (hname : c = 'u' → ¬BeginsName (itemsText items))
      (others : WellFormed quote items) : WellFormed quote (.escaped c :: items)
  | named {a b c d x : Char} {names : Names a b c d x} {items : List Item}
      (others : WellFormed quote items) : WellFormed quote (.named a b c d x names :: items)

/-! ### Digits and escapes -/

theorem toNat_lt_of_hexValue? {c : Char} {n : Nat} (h : hexValue? c = some n) :
    c.toNat < 128 := by
  unfold hexValue? at h
  split at h
  · rename_i hc
    exact Nat.lt_of_le_of_lt hc.2 (by decide)
  · split at h
    · rename_i hc
      exact Nat.lt_of_le_of_lt hc.2 (by decide)
    · split at h
      · rename_i hc
        exact Nat.lt_of_le_of_lt hc.2 (by decide)
      · cases h

/-- A digit is worth its place in the row of digits. -/
theorem hexValue?_eq_some_iff {c : Char} {n : Nat} : hexValue? c = some n ↔ IsHexDigit c n := by
  constructor
  · intro h
    have hascii : ∀ code < 128, (hexValue? (Char.ofNat code)).all
        (fun n => decide (IsHexDigit (Char.ofNat code) n)) = true := by decide +kernel
    have hc := hascii c.toNat (toNat_lt_of_hexValue? h)
    rw [Char.ofNat_toNat, h] at hc
    exact of_decide_eq_true hc
  · have hlower : ∀ i : Fin 16, hexValue? "0123456789abcdef".toList[i] = some i.val := by
      decide +kernel
    have hupper : ∀ i : Fin 16, hexValue? "0123456789ABCDEF".toList[i] = some i.val := by
      decide +kernel
    rintro (h | h)
    · obtain ⟨hn, rfl⟩ := List.getElem?_eq_some_iff.mp h
      exact hlower ⟨n, hn⟩
    · obtain ⟨hn, rfl⟩ := List.getElem?_eq_some_iff.mp h
      exact hupper ⟨n, hn⟩

theorem scalar?_eq_some_iff {n : Nat} {x : Char} : scalar? n = some x ↔ x.toNat = n := by
  constructor
  · intro h
    by_cases hvalid : n.isValidChar
    · have hsome : scalar? n = some (Char.ofNatAux n hvalid) := dif_pos hvalid
      cases hsome.symm.trans h
      rfl
    · have hnone : scalar? n = none := dif_neg hvalid
      cases hnone.symm.trans h
  · rintro rfl
    exact Json.scalar?_toNat x

theorem hexScalar?_eq_some_iff {a b c d x : Char} :
    hexScalar? a b c d = some x ↔ Names a b c d x := by
  simp only [hexScalar?, hexNumber?, Option.bind_eq_bind, Option.bind_eq_some_iff,
    Option.pure_def, Option.some.injEq, scalar?_eq_some_iff, hexValue?_eq_some_iff]
  constructor
  · rintro ⟨_, ⟨i, hi, j, hj, k, hk, l, hl, rfl⟩, hx⟩
    exact ⟨i, j, k, l, hi, hj, hk, hl, hx⟩
  · rintro ⟨i, j, k, l, hi, hj, hk, hl, hx⟩
    exact ⟨_, ⟨i, hi, j, hj, k, hk, l, hl, rfl⟩, hx⟩

/-- What is read behind a backslash is what the table says. -/
theorem unescape_eq_meaning (c : Char) : unescape c = meaning c := by
  fun_cases unescape c with
  | case8 =>
      have hnone : controls.lookup c = none := by
        simp_all [controls, List.lookup_eq_none_iff]
      rw [meaning, hnone]
      rfl
  | _ => rfl

/-- A digit is no quote and no backslash. -/
theorem IsHexDigit.ne {quote c : Char} {n : Nat} (hquote : quote = '"' ∨ quote = '\'')
    (h : IsHexDigit c n) : c ≠ quote ∧ c ≠ '\\' := by
  have hvalue := hexValue?_eq_some_iff.mpr h
  constructor
  · rintro rfl
    rcases hquote with rfl | rfl <;> cases hvalue
  · rintro rfl
    cases hvalue

/-! ### Passing over items -/

/-- **Items can stand between quotes**, and are passed over up to the quote behind them. -/
theorem WellFormed.isBody {quote : Char} {items : List Item}
    (hquote : quote = '"' ∨ quote = '\'') (h : WellFormed quote items) :
    IsBody quote (itemsText items) := by
  have hbackslash : '\\' ≠ quote := by rcases hquote with rfl | rfl <;> decide
  induction h with
  | nil => exact .nil
  | plain hplain hother _ ih => exact .plain hplain hother ih
  | escaped _ _ ih => exact .escaped hbackslash ih
  | @named a b c d x names items _ ih =>
      obtain ⟨i, j, k, l, ha, hb, hc, hd, -⟩ := names
      have hdigit {c : Char} {n : Nat} {cs : List Char} (hc : IsHexDigit c n)
          (hcs : IsBody quote cs) : IsBody quote (c :: cs) :=
        .plain (hc.ne hquote).1 (hc.ne hquote).2 hcs
      exact .escaped hbackslash (hdigit ha (hdigit hb (hdigit hc (hdigit hd ih))))

/-! ### Reading items -/

/-- Where no name follows, an escaped `u` stands for itself. -/
theorem decode_escape {c : Char} {cs : List Char} (h : c = 'u' → ¬BeginsName cs) :
    decode ('\\' :: c :: cs) = meaning c :: decode cs := by
  rw [← unescape_eq_meaning]
  generalize hl : '\\' :: c :: cs = l
  fun_cases decode l with
  | case1 a b d e rest x hnamed =>
      obtain ⟨-, rfl, rfl⟩ : '\\' = '\\' ∧ c = 'u' ∧ cs = a :: b :: d :: e :: rest := by
        simpa using hl
      exact absurd ⟨a, b, d, e, x, rest, rfl, hexScalar?_eq_some_iff.mp hnamed⟩ (h rfl)
  | case2 =>
      cases hl
      rfl
  | case3 =>
      cases hl
      rfl
  | case4 c' rest _ hescape =>
      obtain ⟨hfirst, hothers⟩ := List.cons.inj hl
      exact (hescape c cs hfirst.symm hothers.symm).elim
  | case5 => cases hl

theorem decode_plain {c : Char} (hbackslash : c ≠ '\\') (cs : List Char) :
    decode (c :: cs) = c :: decode cs := by
  rw [decode.eq_3]
  · exact fun a b c' d rest hc _ => hbackslash hc
  · exact fun c' rest hc _ => hbackslash hc

/-- **Items are read** one after another. -/
theorem decode_items {quote : Char} {items : List Item} (h : WellFormed quote items) :
    decode (itemsText items) = items.map Item.value := by
  induction h with
  | nil => rfl
  | plain _ hbackslash _ ih =>
      rw [itemsText_cons, Item.text, List.singleton_append, decode_plain hbackslash, ih]
      rfl
  | escaped hname _ ih =>
      rw [itemsText_cons, Item.text, List.cons_append, List.singleton_append,
        decode_escape hname, ih]
      rfl
  | @named a b c d x names items _ ih =>
      rw [itemsText_cons, Item.text]
      simp only [List.cons_append, List.nil_append]
      rw [decode, hexScalar?_eq_some_iff.mpr names, ih]
      rfl

/-! ### Texts that are never closed -/

/-- The number of backslashes that a text ends with. -/
def backslashes (cs : List Char) : Nat :=
  (cs.reverse.takeWhile (· = '\\')).length

/-- Every quote in the text is escaped: an odd number of backslashes is right in front of it. -/
def NeverCloses (quote : Char) (cs : List Char) : Prop :=
  ∀ before after, cs = before ++ quote :: after → backslashes before % 2 = 1

theorem backslashes_le (cs : List Char) : backslashes cs ≤ cs.length := by
  calc (cs.reverse.takeWhile (· = '\\')).length
      ≤ cs.reverse.length := (List.takeWhile_sublist _).length_le
    _ = cs.length := List.length_reverse

/-- A character in front counts if it is a backslash and only backslashes follow. -/
theorem backslashes_cons (c : Char) (cs : List Char) :
    backslashes (c :: cs) =
      if backslashes cs = cs.length ∧ c = '\\' then backslashes cs + 1 else backslashes cs := by
  rw [backslashes, List.reverse_cons, List.takeWhile_append, List.length_reverse, ← backslashes]
  split
  · rename_i hall
    by_cases hc : c = '\\' <;> simp [hall, hc]
  · rename_i hmixed
    rw [if_neg fun h => hmixed h.1]
    rfl

/-- Behind a character that is no backslash the count begins anew. -/
theorem backslashes_plain {c : Char} (h : c ≠ '\\') (cs : List Char) :
    backslashes (c :: cs) = backslashes cs := by
  rw [backslashes_cons, if_neg fun hc => h hc.2]

/-- An escape in front does not change whether the number is even. -/
theorem backslashes_escape (c : Char) (cs : List Char) :
    backslashes ('\\' :: c :: cs) % 2 = backslashes cs % 2 := by
  have hle := backslashes_le cs
  simp only [backslashes_cons, List.length_cons, and_true]
  split <;> split <;> omega

/-- **What stands between quotes** ends with an even number of backslashes. -/
theorem IsBody.even_backslashes {quote : Char} {body : List Char} (h : IsBody quote body) :
    backslashes body % 2 = 0 := by
  induction h with
  | nil => rfl
  | plain _ hbackslash _ ih => rw [backslashes_plain hbackslash, ih]
  | escaped _ _ ih => rw [backslashes_escape, ih]

theorem split_eq_none {quote : Char} {cs : List Char} (h : NeverCloses quote cs) :
    split quote cs = none := by
  cases hsplit : split quote cs with
  | none => rfl
  | some found =>
      obtain ⟨body, rest⟩ := found
      obtain ⟨hbody, hcs⟩ := split_eq_some_iff.mp hsplit
      have hodd := h body rest hcs.symm
      have heven := hbody.even_backslashes
      omega

/-! ### Every text has a spelling -/

/-- A character as it may always be written. -/
def Item.ofChar (quote c : Char) : Item :=
  if c = quote ∨ c = '\\' then .escaped c else .plain c

theorem value_ofChar {quote : Char} (hquote : quote = '"' ∨ quote = '\'') (c : Char) :
    (Item.ofChar quote c).value = c := by
  unfold Item.ofChar
  split
  · rename_i hescaped
    rcases hescaped with rfl | rfl
    · rcases hquote with rfl | rfl <;> rfl
    · rfl
  · rfl

theorem wellFormed_ofChars {quote : Char} (hquote : quote = '"' ∨ quote = '\'')
    (cs : List Char) : WellFormed quote (cs.map (Item.ofChar quote)) := by
  induction cs with
  | nil => exact .nil
  | cons c cs ih =>
      rw [List.map_cons, Item.ofChar]
      split
      · rename_i hescaped
        refine .escaped (fun hc => ?_) ih
        subst hc
        rcases hescaped with h | h
        · rcases hquote with rfl | rfl <;> cases h
        · cases h
      · rename_i hplain
        exact .plain (fun h => hplain (.inl h)) (fun h => hplain (.inr h)) ih

end Quoted

/-! ### One token -/

open Quoted

/-- A text between two quotes. -/
def quoted (quote : Char) (cs : List Char) : String :=
  String.ofList (quote :: (cs ++ [quote]))

section Scan

variable {quote : Char} (hquote : quote = '"' ∨ quote = '\'')
include hquote

theorem isBlank_quote : isBlank quote = false := by
  rcases hquote with rfl | rfl <;> rfl

theorem scan_quote (cs : List Char) : scan quote cs = scanString quote cs := by
  rcases hquote with rfl | rfl <;> rfl

/-- **A quoted text of items** is one token with the values of the items. -/
theorem tokenize_items {items : List Item} (h : WellFormed quote items) :
    tokenize (quoted quote (itemsText items)) =
      ⟨[⟨.literal (.text (String.ofList (items.map Item.value))), quoted quote (itemsText items),
        ⟨0, byteLength (quoted quote (itemsText items)).toList⟩⟩], none⟩ := by
  have hscan : scan quote (itemsText items ++ [quote]) =
      .token (.literal (.text (String.ofList (items.map Item.value))))
        (quote :: (itemsText items ++ [quote])) [] := by
    rw [scan_quote hquote, scanString, (h.isBody hquote).split_eq]
    simp only [decode_items h]
  rw [quoted, tokenize_of_scan (isBlank_quote hquote) hscan, String.toList_ofList]
  simp [lexedToken]

/-- **A text that is never closed** is refused as a whole. -/
theorem tokenize_neverCloses {cs : List Char} (h : NeverCloses quote cs) :
    tokenize (String.ofList (quote :: cs)) =
      ⟨[], some ⟨.unclosedString, ⟨0, byteLength (quote :: cs)⟩⟩⟩ := by
  have hscan : scan quote cs = .refused .unclosedString (quote :: cs) (quote :: cs) [] := by
    rw [scan_quote hquote, scanString, split_eq_none h]
  rw [tokenize_of_refused (isBlank_quote hquote) hscan]
  simp [lexedError]

end Scan

/-- **String literals.**  Between two quotes of either kind, a row of items is one token that
covers the whole text and has the values of the items in their order; so every text is the
value of a literal.  A text that begins with a quote and has no other that is not escaped is
refused from the quote to its end. -/
theorem tokenize_quoted (quote : Char) (hquote : quote = '"' ∨ quote = '\'') :
    (∀ items, WellFormed quote items →
      tokenize (quoted quote (itemsText items)) =
        ⟨[⟨.literal (.text (String.ofList (items.map Item.value))),
          quoted quote (itemsText items),
          ⟨0, byteLength (quoted quote (itemsText items)).toList⟩⟩], none⟩) ∧
    (∀ value : String, ∃ items, WellFormed quote items ∧
      String.ofList (items.map Item.value) = value) ∧
    ∀ cs, NeverCloses quote cs → ∃ error,
      tokenize (String.ofList (quote :: cs)) = ⟨[], some error⟩ ∧
        error.fault.message = "Missing closing quotes" ∧
        error.span = ⟨0, byteLength (quote :: cs)⟩ := by
  refine ⟨fun items => tokenize_items hquote, fun value => ?_, fun cs hcs => ?_⟩
  · refine ⟨_, wellFormed_ofChars hquote value.toList, ?_⟩
    have hvalues : (Item.value ∘ Item.ofChar quote) = id := funext (value_ofChar hquote)
    rw [List.map_map, hvalues, List.map_id, String.ofList_toList]
  · exact ⟨_, tokenize_neverCloses hquote hcs, rfl, rfl⟩

/-- A letter of two bytes as it is and by its name, a line feed, an escaped `u` before the
digits of a surrogate, and an escaped quote. -/
def mixedItems : List Item :=
  [.plain 'é', .named '0' '0' 'e' '9' 'é' ⟨0, 0, 14, 9, by decide +kernel⟩, .escaped 'n',
    .escaped 'u', .plain 'd', .plain '8', .plain '0', .plain '0', .escaped '"']

/-- The digits of a surrogate name nothing, so they stay.  The escaped quote closes nothing. -/
theorem tokenize_quoted_mixedItems :
    WellFormed '"' mixedItems ∧
    tokenize "\"é\\u00e9\\n\\ud800\\\"\"" =
      ⟨[⟨.literal (.text "éé\nud800\""), "\"é\\u00e9\\n\\ud800\\\"\"", ⟨0, 20⟩⟩], none⟩ ∧
    NeverCloses '"' ['a', '\\', '"'] ∧
    ∃ error, tokenize "\"a\\\"" = ⟨[], some error⟩ ∧
      error.fault.message = "Missing closing quotes" ∧ error.span = ⟨0, 4⟩ := by
  have hsurrogate : ¬BeginsName ['d', '8', '0', '0', '\\', '"'] := by
    rintro ⟨a, b, c, d, x, rest, heq, hnames⟩
    cases heq
    have hnone : hexScalar? 'd' '8' '0' '0' = none := rfl
    cases hnone.symm.trans (hexScalar?_eq_some_iff.mpr hnames)
  have hitems : WellFormed '"' mixedItems := by
    refine .plain (by decide) (by decide) (.named (.escaped ?_ (.escaped ?_ ?_)))
    · exact fun h => absurd h (by decide)
    · exact fun _ => hsurrogate
    · refine .plain (by decide) (by decide) (.plain (by decide) (by decide) ?_)
      refine .plain (by decide) (by decide) (.plain (by decide) (by decide) ?_)
      exact .escaped (fun h => absurd h (by decide)) .nil
  have hopen : NeverCloses '"' ['a', '\\', '"'] := by
    intro before after heq
    rcases before with _ | ⟨first, _ | ⟨second, _ | ⟨third, before⟩⟩⟩
    · cases heq
    · cases heq
    · cases heq
      rfl
    · cases before <;> cases heq
  obtain ⟨hliteral, -, hfault⟩ := tokenize_quoted '"' (.inl rfl)
  exact ⟨hitems, hliteral mixedItems hitems, hopen, hfault _ hopen⟩

end QueryFormula
