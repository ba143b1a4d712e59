import QueryFormula.Proofs.Grammar.Reader

/-!
# Prompt readers

A reader is *prompt* on some tokens if it looks no further ahead than the next
token and complains as soon as it can.  What it has read it reads again in front of
any other tokens that begin in the same way.  What it refuses (other than for the
depth) it refuses either at a token, whatever stands behind that token, or at the
end; and in both cases the tokens in front of the place can still be completed
(`Mendable`).

Completing needs no more than an operand and closing parentheses, and never a
deeper level.  So it is enough to know that whatever is read behind a reader can
be closed (`Closable`).

There is one lemma for each way to put readers together.  In all of them `front`
is what was read in front of the reader's own tokens.
-/

namespace QueryFormula

/-- The fault is one of this token. -/
def ParseFault.IsAt (token : Token) : ParseFault → Prop
  | .unclosedGroup => True
  | .unclosedCall found => found = some token.text
  | .unexpectedOperator text | .trailing text => text = token.text
  | .tooDeep | .unexpectedEnd => False

namespace Grammar

/-- The error of tokens that end too early: where an operand or the closing
parenthesis of a call is missing, the empty span at the end of the source; where a
group is not closed behind the expression inside it, the span of its opening
parenthesis. -/
inductive EndsOpen (ending : Nat) (tokens : List Token) : ParseError → Prop
  | operand : EndsOpen ending tokens ⟨.unexpectedEnd, endSpan ending⟩
  | call : EndsOpen ending tokens ⟨.unclosedCall none, endSpan ending⟩
  | group {before : List Token} {opening : Token} (inside : Phrase .disjunction)
      (opens : opening.isOperator .openParenthesis)
      (split : tokens = before ++ opening :: inside.tokens) :
      EndsOpen ending tokens ⟨.unclosedGroup, opening.span⟩

/-- A truth value that is written nowhere. -/
def truthToken : Token :=
  ⟨.literal (.boolean true), "", ⟨0, 0⟩⟩

/-- A closing parenthesis that is written nowhere. -/
def closingToken : Token :=
  ⟨.operator .closeParenthesis, "", ⟨0, 0⟩⟩

/-- The operand that can be added comes first. -/
def Opens (tokens : List Token) : Prop :=
  tokens.head? = some truthToken

theorem Opens.head {kind : Token → Prop} {tokens : List Token} (h : Opens tokens)
    (hkind : kind truthToken) : ∀ token ∈ tokens.head?, kind token := by
  intro token htoken
  cases h.symm.trans htoken
  exact hkind

/-- If anything is left, a closing parenthesis comes first. -/
def Closing (tokens : List Token) : Prop :=
  ∀ token ∈ tokens.head?, token.isOperator .closeParenthesis

theorem closing_nil : Closing [] := by
  simp [Closing]

theorem closing_cons (rest : List Token) : Closing (closingToken :: rest) := by
  rintro token ⟨⟩
  rfl

/-- No operator but the closing parenthesis comes first. -/
theorem Closing.operatorAmong?_eq_none {ops : List Operator} {tokens : List Token}
    (hops : .closeParenthesis ∉ ops) (h : Closing tokens) :
    ∀ token ∈ tokens.head?, operatorAmong? ops token = none := by
  intro token htoken
  rw [operatorAmong?_eq_none_iff]
  intro op hop
  have hclosing := Token.isOperator_iff.mp (h token htoken)
  rw [← Bool.not_eq_true, Token.isOperator_iff, hclosing]
  rintro ⟨⟩
  exact hops hop

variable {α β : Type} {ending : Nat} {entry entry' : List Token → Prop}
  {front tokens : List Token}

/-- What stands in front can be completed, whatever closing parenthesis follows;
unless the tokens begin as before, `entry` holds of the completed ones. -/
def Mendable (entry : List Token → Prop) (reader : Reader α) (tokens before : List Token) :
    Prop :=
  ∃ filler, ∀ rest, Closing rest →
    ((before ++ filler ++ rest).head? = tokens.head? ∨ entry (before ++ filler ++ rest)) ∧
      ∃ value, reader (before ++ filler ++ rest) = .ok (value, rest)

/-- The error is met as early as it can be. -/
inductive Refused (ending : Nat) (entry : List Token → Prop) (front : List Token)
    (reader : Reader α) (tokens : List Token) (error : ParseError) : Prop
  | atToken {before : List Token} {token : Token} {after : List Token}
      (split : tokens = before ++ token :: after) (fault : error.fault.IsAt token)
      (span : error.span = token.span)
      (always : ∀ us, reader (before ++ token :: us) = .error error)
      (mend : Mendable entry reader tokens before)
  | atEnd (place : EndsOpen ending (front ++ tokens) error)
      (mend : Mendable entry reader tokens tokens)

/-- The reader looks one token ahead, and complains as soon as it can. -/
structure Prompt (ending : Nat) (entry : List Token → Prop) (front : List Token)
    (reader : Reader α) (tokens : List Token) : Prop where
  found : ∀ value rest, reader tokens = .ok (value, rest) →
    ∃ consumed, tokens = consumed ++ rest ∧
      ∀ rest', rest'.head? = rest.head? ∨ Closing rest' →
        reader (consumed ++ rest') = .ok (value, rest')
  refused : ∀ error, reader tokens = .error error → error.fault ≠ .tooDeep →
    Refused ending entry front reader tokens error

/-- Behind any value, what is read can be ended by closing parentheses. -/
def Closable (next : α → Reader β) : Prop :=
  ∃ filler, (∀ rest, Closing rest → Closing (filler ++ rest)) ∧
    ∀ value rest, Closing rest → ∃ result, next value (filler ++ rest) = .ok (result, rest)

/-! ### No reading at all -/

theorem prompt_done (value : α) : Prompt ending entry front (.done value) tokens where
  found v rest h := by
    cases h
    exact ⟨[], rfl, fun _ _ => rfl⟩
  refused error h := by cases h

theorem closable_done (f : α → β) : Closable fun value => Reader.done (f value) :=
  ⟨[], fun _ hrest => hrest, fun value _ _ => ⟨f value, rfl⟩⟩

/-- A refusal for the depth may come at any time. -/
theorem prompt_refuse (span : Span) :
    Prompt ending entry front (.refuse ⟨.tooDeep, span⟩ : Reader α) tokens where
  found v rest h := by cases h
  refused error h hshallow := by
    cases h
    exact absurd rfl hshallow

theorem Prompt.deeper {inner : Nat → Reader α} {depth : Nat} (span : Span)
    (h : Prompt ending entry front (inner (depth + 1)) tokens) :
    Prompt ending entry front (.deeper span depth inner) tokens := by
  unfold Reader.deeper
  split
  · exact prompt_refuse span
  · exact h

/-! ### The next token -/

/-- A token that is passed over. -/
theorem Prompt.cons {reader : Reader α} {token : Token}
    (h : Prompt ending entry' (front ++ [token]) (fun ts => reader (token :: ts)) tokens) :
    Prompt ending entry front reader (token :: tokens) where
  found value rest hread := by
    obtain ⟨consumed, htokens, hrest⟩ := h.found value rest hread
    exact ⟨token :: consumed, congrArg (token :: ·) htokens, hrest⟩
  refused error hread hshallow := by
    have hmend : ∀ before, Mendable entry' (fun ts => reader (token :: ts)) tokens before →
        Mendable entry reader (token :: tokens) (token :: before) := by
      rintro before ⟨filler, hfiller⟩
      exact ⟨filler, fun rest hrest => ⟨.inl rfl, (hfiller rest hrest).2⟩⟩
    cases h.refused error hread hshallow with
    | @atToken before _ _ hsplit hfault hspan halways hmends =>
        exact .atToken (congrArg (token :: ·) hsplit) hfault hspan halways (hmend before hmends)
    | atEnd hplace hmends =>
        rw [List.append_assoc] at hplace
        exact .atEnd hplace (hmend tokens hmends)

/-- Two readers that agree where the next token is of one kind. -/
theorem Prompt.congr {reader reader' : Reader α} {kind : Token → Prop}
    (same : ∀ ts : List Token, (∀ token ∈ ts.head?, kind token) → reader ts = reader' ts)
    (hkind : ∀ token ∈ tokens.head?, kind token)
    (hentry : ∀ ts, entry ts → ∀ token ∈ ts.head?, kind token) (hshort : reader'.Shortens)
    (h : Prompt ending entry front reader' tokens) :
    Prompt ending entry front reader tokens where
  found value rest hread := by
    rw [same tokens hkind] at hread
    obtain ⟨consumed, htokens, hrest⟩ := h.found value rest hread
    refine ⟨consumed, htokens, fun rest' hrest' => ?_⟩
    rw [same _ ?_, hrest rest' hrest']
    have hless := hshort _ _ _ hread
    cases consumed with
    | nil => simp [htokens] at hless
    | cons token consumed => simpa [htokens] using hkind
  refused error hread hshallow := by
    have hmend : ∀ before, Mendable entry reader' tokens before →
        Mendable entry reader tokens before := by
      rintro before ⟨filler, hfiller⟩
      refine ⟨filler, fun rest hrest => ?_⟩
      obtain ⟨hhead, value, hvalue⟩ := hfiller rest hrest
      refine ⟨hhead, value, ?_⟩
      rw [same _ ?_, hvalue]
      cases hhead with
      | inl hhead => exact hhead ▸ hkind
      | inr hhead => exact hentry _ hhead
    rw [same tokens hkind] at hread
    cases h.refused error hread hshallow with
    | @atToken before token after hsplit hfault hspan halways hmends =>
        refine .atToken hsplit hfault hspan (fun us => ?_) (hmend before hmends)
        rw [same _ ?_, halways us]
        rw [hsplit] at hkind
        cases before <;> simpa using hkind
    | atEnd hplace hmends => exact .atEnd hplace (hmend tokens hmends)

theorem followed_of_none {ops : List Operator} {value : α} {next : Operator → Token → Reader α}
    (h : ∀ token ∈ tokens.head?, operatorAmong? ops token = none) :
    Reader.followed ops value next tokens = .ok (value, tokens) := by
  cases tokens with
  | nil => rfl
  | cons token rest => simp only [Reader.followed, h token rfl]

theorem Prompt.followed {ops : List Operator} {value : α} {next : Operator → Token → Reader α}
    (hops : .closeParenthesis ∉ ops)
    (hnext : ∀ op token rest, tokens = token :: rest →
      Prompt ending Opens (front ++ [token]) (next op token) rest) :
    Prompt ending Closing front (.followed ops value next) tokens := by
  by_cases hstops : ∀ token ∈ tokens.head?, operatorAmong? ops token = none
  · have hread : Reader.followed ops value next tokens = .ok (value, tokens) :=
      followed_of_none hstops
    refine ⟨fun v rest hfound => ?_, fun error herror => ?_⟩
    · cases hread.symm.trans hfound
      refine ⟨[], rfl, fun rest' hrest' => followed_of_none ?_⟩
      cases hrest' with
      | inl hsame => exact hsame ▸ hstops
      | inr hcloses => exact hcloses.operatorAmong?_eq_none hops
    · cases hread.symm.trans herror
  · cases tokens with
    | nil => exact absurd (by simp) hstops
    | cons token rest =>
        cases hop : operatorAmong? ops token with
        | none => exact absurd (by simpa using hop) hstops
        | some op =>
            have hsame : (fun ts => Reader.followed ops value next (token :: ts)) =
                next op token := by
              funext ts
              simp only [Reader.followed, hop]
            have hbehind := hnext op token rest rfl
            rw [← hsame] at hbehind
            exact hbehind.cons

theorem closable_followed {ops : List Operator} {f : α → β}
    {next : α → Operator → Token → Reader β} (hops : .closeParenthesis ∉ ops) :
    Closable fun value => Reader.followed ops (f value) (next value) :=
  ⟨[], fun _ hrest => hrest, fun value _ hrest =>
    ⟨f value, followed_of_none (hrest.operatorAmong?_eq_none hops)⟩⟩

theorem prompt_closed {missing : ParseError} {wrong : Token → ParseError} {value : Token → α}
    (hmissing : tokens = [] → EndsOpen ending front missing)
    (hwrong : ∀ token, (wrong token).fault.IsAt token ∧ (wrong token).span = token.span) :
    Prompt ending Closing front (.closed missing wrong value) tokens := by
  have hmend : Mendable Closing (.closed missing wrong value) tokens [] :=
    ⟨[closingToken], fun rest _ => ⟨.inr (closing_cons rest), value closingToken, rfl⟩⟩
  cases tokens with
  | nil =>
      refine ⟨fun v rest hread => ?_, fun error hread _ => ?_⟩
      · cases hread
      · cases hread
        have hplace := hmissing rfl
        rw [← List.append_nil front] at hplace
        exact .atEnd hplace hmend
  | cons token rest =>
      by_cases hcloses : token.isOperator .closeParenthesis
      · have hread : ∀ ts, Reader.closed missing wrong value (token :: ts) =
            .ok (value token, ts) := fun ts => if_pos hcloses
        refine ⟨fun v left hfound => ?_, fun error herror => ?_⟩
        · cases (hread rest).symm.trans hfound
          exact ⟨[token], rfl, fun rest' _ => hread rest'⟩
        · cases (hread rest).symm.trans herror
      · have hread : ∀ ts, Reader.closed missing wrong value (token :: ts) =
            .error (wrong token) := fun ts => if_neg hcloses
        refine ⟨fun v left hfound => ?_, fun error herror _ => ?_⟩
        · cases (hread rest).symm.trans hfound
        · cases (hread rest).symm.trans herror
          exact .atToken (List.nil_append _).symm (hwrong token).1 (hwrong token).2 hread hmend

theorem closable_closed {missing : α → ParseError} {wrong : α → Token → ParseError}
    {value : α → Token → β} :
    Closable fun a => Reader.closed (missing a) (wrong a) (value a) :=
  ⟨[closingToken], fun rest _ => closing_cons rest, fun a _ _ => ⟨value a closingToken, rfl⟩⟩

/-! ### One reading behind another -/

/-- Whatever completes the first reading, closing parentheses complete the second. -/
theorem Mendable.andThen {first : Reader α} {next : α → Reader β} {before : List Token}
    (hclose : Closable next) (h : Mendable entry first tokens before) :
    Mendable entry (first.andThen next) tokens before := by
  obtain ⟨filler, hfiller⟩ := h
  obtain ⟨filler', hclosing, hresult⟩ := hclose
  refine ⟨filler ++ filler', fun rest hrest => ?_⟩
  obtain ⟨hhead, value, hvalue⟩ := hfiller (filler' ++ rest) (hclosing rest hrest)
  obtain ⟨result, hresult⟩ := hresult value rest hrest
  simp only [← List.append_assoc] at hhead hvalue ⊢
  exact ⟨hhead, result, (Reader.andThen_of_ok hvalue).trans (by simpa using hresult)⟩

/-- What completes the second reading completes both, as the first looks no further
than the next token. -/
theorem Mendable.andThen_right {first : Reader α} {next : α → Reader β} {value : α}
    {consumed rest before : List Token} (hconsumed : consumed ≠ [])
    (hfirst : ∀ rest', rest'.head? = rest.head? ∨ Closing rest' →
      first (consumed ++ rest') = .ok (value, rest'))
    (h : Mendable Closing (next value) rest before) :
    Mendable entry (first.andThen next) (consumed ++ rest) (consumed ++ before) := by
  obtain ⟨filler, hfiller⟩ := h
  refine ⟨filler, fun left hleft => ?_⟩
  obtain ⟨hhead, result, hresult⟩ := hfiller left hleft
  have hread := hfirst _ hhead
  simp only [List.append_assoc] at hread hresult ⊢
  refine ⟨.inl ?_, result, (Reader.andThen_of_ok hread).trans hresult⟩
  cases consumed with
  | nil => exact absurd rfl hconsumed
  | cons token consumed => rfl

theorem Prompt.andThen {first : Reader α} {next : α → Reader β}
    (hfirst : Prompt ending entry front first tokens) (hshort : first.Shortens)
    (hnext : ∀ value consumed rest, tokens = consumed ++ rest →
      first tokens = .ok (value, rest) →
      Prompt ending Closing (front ++ consumed) (next value) rest)
    (hclose : Closable next) : Prompt ending entry front (first.andThen next) tokens where
  found result rest hread := by
    cases hvalue : first tokens with
    | error error => cases (Reader.andThen_of_error hvalue).symm.trans hread
    | ok found =>
        rcases found with ⟨value, middle⟩
        rw [Reader.andThen_of_ok hvalue] at hread
        obtain ⟨consumed, htokens, hsame⟩ := hfirst.found value middle hvalue
        obtain ⟨consumed', hmiddle, hrest⟩ :=
          (hnext value consumed middle htokens hvalue).found result rest hread
        refine ⟨consumed ++ consumed', ?_, fun rest' hrest' => ?_⟩
        · rw [htokens, hmiddle, List.append_assoc]
        · have hbegins : (consumed' ++ rest').head? = middle.head? ∨
              Closing (consumed' ++ rest') := by
            rw [hmiddle]
            cases consumed' with
            | nil => exact hrest'
            | cons token consumed' => exact .inl rfl
          rw [List.append_assoc, Reader.andThen_of_ok (hsame _ hbegins), hrest rest' hrest']
  refused error hread hshallow := by
    cases hvalue : first tokens with
    | error error' =>
        cases (Reader.andThen_of_error hvalue).symm.trans hread
        cases hfirst.refused _ hvalue hshallow with
        | atToken hsplit hfault hspan halways hmends =>
            exact .atToken hsplit hfault hspan
              (fun us => Reader.andThen_of_error (halways us)) (hmends.andThen hclose)
        | atEnd hplace hmends => exact .atEnd hplace (hmends.andThen hclose)
    | ok found =>
        rcases found with ⟨value, middle⟩
        rw [Reader.andThen_of_ok hvalue] at hread
        obtain ⟨consumed, htokens, hsame⟩ := hfirst.found value middle hvalue
        have hconsumed : consumed ≠ [] := by
          rintro rfl
          have hless := hshort _ _ _ hvalue
          simp [htokens] at hless
        have hbehind := hnext value consumed middle htokens hvalue
        subst htokens
        cases hbehind.refused error hread hshallow with
        | @atToken before token after hsplit hfault hspan halways hmends =>
            have hsplit' : consumed ++ middle = (consumed ++ before) ++ token :: after := by
              rw [hsplit, List.append_assoc]
            refine .atToken hsplit' hfault hspan (fun us => ?_)
              (hmends.andThen_right hconsumed hsame)
            have hhead : (before ++ token :: us).head? = middle.head? := by
              rw [hsplit]
              cases before <;> rfl
            rw [List.append_assoc, Reader.andThen_of_ok (hsame _ (.inl hhead)), halways us]
        | atEnd hplace hmends =>
            rw [List.append_assoc] at hplace
            exact .atEnd hplace (hmends.andThen_right hconsumed hsame)

end Grammar

end QueryFormula
