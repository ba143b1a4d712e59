import QueryFormula.Proofs.Json.Number
import QueryFormula.Proofs.Json.Text

/-!
# What is written is read back

A value is read back from its text, in front of anything that may stand behind a value
(`Readable.readBack`); so the text tells the value (`read_compact`).  Left out are numbers whose
text is no number, and texts with half a surrogate pair, which have no text of their own
(`Readable`).
-/

namespace QueryFormula.Json

/-- The value can be read from its text. -/
inductive Readable : Json → Prop
  | null : Readable null
  | boolean (b : Bool) : Readable (boolean b)
  | number {text : String} (is : IsNumber text.toList) : Readable (number text)
  | string (text : String) : Readable (string text)
  | array {items : List Json} (each : ∀ x ∈ items, Readable x) : Readable (array items)
  | object {members : List (String × Json)} (each : ∀ m ∈ members, Readable m.2) :
      Readable (object members)

/-- A reading function finds this value, and leaves this text. -/
def Reads {α : Type} {bound : Nat} (result : Option (Parsed Char α bound)) (value : α)
    (rest : List Char) : Prop :=
  ∃ p, result = some p ∧ p.value = value ∧ p.rest = rest

/-- What is made of the value that is found. -/
theorem Reads.map {α β : Type} {bound bound' : Nat} {result : Option (Parsed Char α bound)}
    {value : α} {rest : List Char} (h : Reads result value rest) (f : α → β)
    (hbound : bound ≤ bound') :
    Reads (result.map fun p => (p.map f).widen hbound) (f value) rest := by
  obtain ⟨p, rfl, rfl, rfl⟩ := h
  exact ⟨(p.map f).widen hbound, rfl, rfl, rfl⟩

/-! ### Beginnings -/

/-- The text begins with a character that is no delimiter. -/
def Begins (cs : List Char) : Prop :=
  ∃ c more, cs = c :: more ∧ isDelimiter c = false

theorem skipGap_cons {c : Char} (h : isGap c = false) (cs : List Char) :
    skipGap (c :: cs) = c :: cs := by
  rw [skipGap, List.dropWhile_cons_of_neg (by rw [h]; exact Bool.false_ne_true)]

theorem Begins.skipGap_eq {cs : List Char} (h : Begins cs) : skipGap cs = cs := by
  obtain ⟨c, more, rfl, hc⟩ := h
  simp only [isDelimiter, Bool.or_eq_false_iff] at hc
  exact skipGap_cons hc.1.1.1 more

theorem Begins.ne_cons {cs : List Char} (h : Begins cs) {c : Char} (hc : isDelimiter c = true)
    (more : List Char) : skipGap cs ≠ c :: more := by
  rw [h.skipGap_eq]
  obtain ⟨d, tail, rfl, hd⟩ := h
  intro heq
  cases heq
  cases hd.symm.trans hc

theorem Readable.begins {j : Json} (h : j.Readable) (rest : List Char) :
    Begins (j.write rest) := by
  cases h with
  | null => exact ⟨_, _, rfl, rfl⟩
  | boolean b => cases b <;> exact ⟨_, _, rfl, rfl⟩
  | string => exact ⟨_, _, rfl, rfl⟩
  | array => exact ⟨_, _, rfl, rfl⟩
  | object => exact ⟨_, _, rfl, rfl⟩
  | number is =>
      obtain ⟨c, more, htext, hc⟩ := is.head
      refine ⟨c, more ++ rest, by rw [write, htext, List.cons_append], ?_⟩
      rcases hc with rfl | hdigit
      · rfl
      · exact isDelimiter_of_isDigit hdigit

theorem begins_writeItems {first : Json} (h : first.Readable) (more : List Json)
    (rest : List Char) : Begins (writeItems (first :: more) rest) := by
  cases more <;> exact h.begins _

theorem begins_writeMembers (first : String × Json) (more : List (String × Json))
    (rest : List Char) : Begins (writeMembers (first :: more) rest) := by
  cases more <;> exact ⟨_, _, rfl, rfl⟩

/-! ### Strings, names and numbers -/

theorem readText_quote (text rest : List Char) :
    Reads (readText (text.flatMap escape ++ '"' :: rest)) (some (String.ofList text)) rest := by
  have hcodes := readCodes_text text rest
  unfold readText
  split
  · rename_i h
    rw [hcodes] at h
    cases h
    exact ⟨_, rfl, by rw [joinSurrogates_text, Option.map_some], rfl⟩
  · rename_i h
    cases hcodes.symm.trans h

/-- A name is read with its colon. -/
theorem readName_quote (name : String) {cs : List Char} (hcs : Begins cs) :
    Reads (readName (quote name.toList (':' :: cs))) (some name) cs := by
  obtain ⟨p, hp, hvalue, hrest⟩ := readText_quote name.toList (':' :: cs)
  have hcolon : skipGap p.rest = ':' :: cs := by rw [hrest, skipGap_cons rfl]
  rw [quote, readName, hp, Option.bind_eq_bind, Option.bind_some]
  split
  · rename_i h
    cases hcolon.symm.trans h
    exact ⟨_, rfl, by rw [hvalue, String.ofList_toList], hcs.skipGap_eq⟩
  · rename_i h
    exact absurd hcolon (h _)

theorem readNumber_append {text rest : List Char} (h : IsNumber text) (hrest : Ends rest) :
    Reads (readNumber (text ++ rest)) (number (String.ofList text)) rest := by
  have hsplit : splitNumber (text ++ rest) = (text, rest) := by
    rw [splitNumber_append hrest, h.2, List.nil_append]
  have hshorter : rest.length < (text ++ rest).length := by
    rw [List.length_append]
    exact Nat.lt_add_of_pos_left (List.length_pos_iff.mpr h.1)
  refine ⟨⟨number (String.ofList text), rest, hshorter⟩, ?_, rfl, rfl⟩
  unfold readNumber
  simp only [hsplit, hshorter, dif_pos]

/-- What begins with a digit or a sign is read as a number. -/
theorem readValue_number {c : Char} (h : c = '-' ∨ c.isDigit = true) (cs : List Char) :
    readValue (c :: cs) = readNumber (c :: cs) := by
  have hother : ∀ d, ¬(d = '-' ∨ d.isDigit = true) → ∀ tail, c :: cs ≠ d :: tail := by
    intro d hd tail hcs
    exact hd ((List.cons_eq_cons.mp hcs).1 ▸ h)
  exact readValue.eq_7 (c :: cs) (fun _ => hother 'n' (by decide) _)
    (fun _ => hother 't' (by decide) _) (fun _ => hother 'f' (by decide) _)
    (hother '"' (by decide)) (hother '[' (by decide)) (hother '{' (by decide))

/-! ### Items and members -/

section Lists

variable {bound : Nat} {item : Reader bound} {cs rest : List Char} {within : cs.length < bound}

theorem readItems_last {x : Json} (h : Reads (item cs within) x (']' :: rest)) :
    Reads (readItems item cs within) [x] rest := by
  obtain ⟨p, hp, rfl, hrest⟩ := h
  have hclosed : skipGap p.rest = ']' :: rest := by rw [hrest, skipGap_cons rfl]
  rw [readItems, hp, Option.bind_eq_bind, Option.bind_some]
  split
  · rename_i h
    cases hclosed.symm.trans h
    exact ⟨_, rfl, rfl, rfl⟩
  · rename_i h
    cases hclosed.symm.trans h
  · rename_i h _
    exact absurd hclosed (h _)

theorem readItems_more {x : Json} {others : List Json} {tail : List Char}
    (h : Reads (item cs within) x (',' :: tail))
    (hothers : ∀ within, Reads (readItems item (skipGap tail) within) others rest) :
    Reads (readItems item cs within) (x :: others) rest := by
  obtain ⟨p, hp, rfl, hrest⟩ := h
  have hcomma : skipGap p.rest = ',' :: tail := by rw [hrest, skipGap_cons rfl]
  have hshorter : (skipGap tail).length < cs.length :=
    Nat.lt_of_le_of_lt (skipGap_length_le tail) (Parsed.rest_length_lt hrest)
  rw [readItems, hp, Option.bind_eq_bind, Option.bind_some]
  split
  · rename_i h
    cases hcomma.symm.trans h
  · rename_i h
    cases hcomma.symm.trans h
    obtain ⟨q, hq, rfl, rfl⟩ := hothers (Nat.lt_trans hshorter within)
    change Reads (readItems item (skipGap tail) _ >>= _) _ _
    rw [hq]
    exact ⟨_, rfl, rfl, rfl⟩
  · rename_i _ h
    exact absurd hcomma (h _)

/-- A member whose value is found is a member of its name. -/
theorem readMembers_last {name : String} {x : Json} {w : List Char}
    (hname : Reads (readName cs) (some name) w)
    (h : ∀ within, Reads (item w within) x ('}' :: rest)) :
    Reads (readMembers item cs within) (some [(name, x)]) rest := by
  obtain ⟨n, hn, hvalue, rfl⟩ := hname
  obtain ⟨p, hp, rfl, hrest⟩ := h (Nat.lt_trans n.shorter within)
  have hclosed : skipGap p.rest = '}' :: rest := by rw [hrest, skipGap_cons rfl]
  rw [readMembers, hn, Option.bind_eq_bind, Option.bind_some, hp, Option.bind_eq_bind,
    Option.bind_some]
  split
  · rename_i h
    cases hclosed.symm.trans h
    exact ⟨_, rfl, by rw [hvalue]; rfl, rfl⟩
  · rename_i h
    cases hclosed.symm.trans h
  · rename_i h _
    exact absurd hclosed (h _)

theorem readMembers_more {name : String} {x : Json} {others : List (String × Json)}
    {w tail : List Char} (hname : Reads (readName cs) (some name) w)
    (h : ∀ within, Reads (item w within) x (',' :: tail))
    (hothers : ∀ within, Reads (readMembers item (skipGap tail) within) (some others) rest) :
    Reads (readMembers item cs within) (some ((name, x) :: others)) rest := by
  obtain ⟨n, hn, hvalue, rfl⟩ := hname
  obtain ⟨p, hp, rfl, hrest⟩ := h (Nat.lt_trans n.shorter within)
  have hcomma : skipGap p.rest = ',' :: tail := by rw [hrest, skipGap_cons rfl]
  have hshorter : (skipGap tail).length < cs.length :=
    Nat.lt_of_le_of_lt (skipGap_length_le tail)
      (Nat.lt_trans (Parsed.rest_length_lt hrest) n.shorter)
  rw [readMembers, hn, Option.bind_eq_bind, Option.bind_some, hp, Option.bind_eq_bind,
    Option.bind_some]
  split
  · rename_i h
    cases hcomma.symm.trans h
  · rename_i h
    cases hcomma.symm.trans h
    obtain ⟨q, hq, hmembers, rfl⟩ := hothers (Nat.lt_trans hshorter within)
    change Reads (readMembers item (skipGap tail) _ >>= _) _ _
    rw [hq]
    refine ⟨_, rfl, ?_, rfl⟩
    rw [Parsed.widen_value, Parsed.map_value, hvalue, hmembers]
    rfl
  · rename_i _ h
    exact absurd hcomma (h _)

end Lists

/-! ### Values -/

theorem readValue_emptyArray (rest : List Char) :
    Reads (readValue ('[' :: ']' :: rest)) (array []) rest := by
  rw [readValue]
  split
  · rename_i h
    cases (skipGap_cons rfl rest).symm.trans h
    exact ⟨_, rfl, rfl, rfl⟩
  · rename_i h
    exact absurd (skipGap_cons rfl rest) (h _)

theorem readValue_array {cs rest : List Char} {items : List Json}
    (hopen : ∀ after, skipGap cs ≠ ']' :: after)
    (h : ∀ within, Reads (readItems (fun inner (_ : inner.length < (skipGap cs).length + 1) =>
      readValue inner) (skipGap cs) within) items rest) :
    Reads (readValue ('[' :: cs)) (array items) rest := by
  rw [readValue]
  split
  · rename_i hclosed
    exact absurd hclosed (hopen _)
  · exact (h _).map array _

theorem readValue_emptyObject (rest : List Char) :
    Reads (readValue ('{' :: '}' :: rest)) (object []) rest := by
  rw [readValue]
  split
  · rename_i h
    cases (skipGap_cons rfl rest).symm.trans h
    exact ⟨_, rfl, rfl, rfl⟩
  · rename_i h
    exact absurd (skipGap_cons rfl rest) (h _)

theorem readValue_object {cs rest : List Char} {members : List (String × Json)}
    (hopen : ∀ after, skipGap cs ≠ '}' :: after)
    (h : ∀ within, Reads (readMembers (fun inner (_ : inner.length < (skipGap cs).length + 1) =>
      readValue inner) (skipGap cs) within) (some members) rest) :
    Reads (readValue ('{' :: cs)) (object members) rest := by
  rw [readValue]
  split
  · rename_i hclosed
    exact absurd hclosed (hopen _)
  · exact (h _).map ofMembers? _

/-- The value is read wherever it stands. -/
def ReadBack (j : Json) : Prop :=
  ∀ rest, Ends rest → Reads (readValue (j.write rest)) j rest

/-- The items of an array are read up to its bracket. -/
theorem readItems_write {first : Json} {more : List Json}
    (h : ∀ x ∈ first :: more, x.Readable ∧ x.ReadBack) {bound : Nat} (rest : List Char)
    (within : (writeItems (first :: more) (']' :: rest)).length < bound) :
    Reads (readItems (fun inner _ => readValue inner) _ within) (first :: more) rest := by
  induction more generalizing first with
  | nil =>
      obtain ⟨-, hread⟩ := h first List.mem_cons_self
      exact readItems_last (hread _ (ends_cons rfl rest))
  | cons y more ih =>
      obtain ⟨⟨-, hread⟩, hmore⟩ := List.forall_mem_cons.mp h
      obtain ⟨hy, -⟩ := hmore y List.mem_cons_self
      refine readItems_more (hread _ (ends_cons rfl _)) ?_
      rw [(begins_writeItems hy more _).skipGap_eq]
      exact ih hmore

/-- The members of an object are read up to its brace. -/
theorem readMembers_write {name : String} {first : Json} {more : List (String × Json)}
    (h : ∀ m ∈ (name, first) :: more, m.2.Readable ∧ m.2.ReadBack) {bound : Nat}
    (rest : List Char)
    (within : (writeMembers ((name, first) :: more) ('}' :: rest)).length < bound) :
    Reads (readMembers (fun inner _ => readValue inner) _ within)
      (some ((name, first) :: more)) rest := by
  induction more generalizing name first with
  | nil =>
      obtain ⟨hfirst, hread⟩ := h _ List.mem_cons_self
      exact readMembers_last (readName_quote name (hfirst.begins _))
        fun _ => hread _ (ends_cons rfl rest)
  | cons y more ih =>
      obtain ⟨⟨hfirst, hread⟩, hmore⟩ := List.forall_mem_cons.mp h
      refine readMembers_more (readName_quote name (hfirst.begins _))
        (fun _ => hread _ (ends_cons rfl _)) ?_
      rw [(begins_writeMembers y more _).skipGap_eq]
      exact ih hmore

/-- **A value is read back** from its text, in front of anything that may stand behind a
value. -/
theorem Readable.readBack {j : Json} (h : j.Readable) : j.ReadBack := by
  induction h with
  | null =>
      intro rest _
      rw [write, readValue]
      exact ⟨_, rfl, rfl, rfl⟩
  | boolean b =>
      intro rest _
      cases b
      · rw [write, readValue]
        exact ⟨_, rfl, rfl, rfl⟩
      · rw [write, readValue]
        exact ⟨_, rfl, rfl, rfl⟩
  | @number text is =>
      intro rest hrest
      obtain ⟨c, more, htext, hc⟩ := is.head
      have hread := readNumber_append is hrest
      rw [String.ofList_toList] at hread
      rw [write]
      rw [htext] at hread ⊢
      rw [List.cons_append] at hread ⊢
      rwa [readValue_number hc]
  | string text =>
      intro rest _
      have hread := readText_quote text.toList rest
      rw [String.ofList_toList] at hread
      rw [write, quote, readValue]
      exact hread.map ofText? _
  | @array items each ih =>
      intro rest _
      cases items with
      | nil => exact readValue_emptyArray rest
      | cons first more =>
          have hbegins := begins_writeItems (each first List.mem_cons_self) more (']' :: rest)
          refine readValue_array (hbegins.ne_cons rfl) ?_
          rw [hbegins.skipGap_eq]
          exact readItems_write (fun x hx => ⟨each x hx, ih x hx⟩) rest
  | @object members each ih =>
      intro rest _
      cases members with
      | nil => exact readValue_emptyObject rest
      | cons first more =>
          have hbegins := begins_writeMembers first more ('}' :: rest)
          refine readValue_object (hbegins.ne_cons rfl) ?_
          rw [hbegins.skipGap_eq]
          exact readMembers_write (fun m hm => ⟨each m hm, ih m hm⟩) rest

/-- **What is written is read.** -/
theorem read_compact {j : Json} (h : j.Readable) : read j.compact = some j := by
  have hread : Reads (readValue (skipGap j.compact.toList)) j [] := by
    rw [compact, String.toList_ofList, (h.begins []).skipGap_eq]
    exact h.readBack [] ends_nil
  obtain ⟨p, hp, hvalue, hrest⟩ := hread
  rw [read, hp]
  change (if skipGap p.rest = [] then some p.value else none) = _
  rw [hrest, hvalue]
  rfl

/-- The text of a value tells the value. -/
theorem Readable.eq_of_compact {j j' : Json} (h : j.Readable) (h' : j'.Readable)
    (htext : j.compact = j'.compact) : j = j' := by
  have hread := read_compact h
  rw [htext, read_compact h'] at hread
  exact (Option.some.inj hread).symm

end QueryFormula.Json
