/-!
# Names in brackets

A name in brackets runs to the first closing bracket that no backslash
precedes.  An opening bracket inside must be escaped.
-/

namespace QueryFormula.Bracketed

/-- Where the text behind an opening bracket leads. -/
inductive Extent where
  /-- To a closing bracket, past `body`. -/
  | closed (body rest : List Char)
  /-- To another opening bracket, past `body`; `rest` begins with it. -/
  | reopened (body rest : List Char)
  /-- To the end of the source. -/
  | unclosed
deriving DecidableEq, Repr

namespace Extent

/-- The extent with characters put in front of its body. -/
def before (front : List Char) : Extent → Extent
  | closed body rest => closed (front ++ body) rest
  | reopened body rest => reopened (front ++ body) rest
  | unclosed => unclosed

end Extent

/-- Follow the text behind an opening bracket. -/
def extent : List Char → Extent
  | [] => .unclosed
  | ']' :: rest => .closed [] rest
  | '[' :: rest => .reopened [] ('[' :: rest)
  | '\\' :: c :: rest => (extent rest).before ['\\', c]
  | c :: rest => (extent rest).before [c]

/-- The text without the backslash of each escape. -/
def unescape : List Char → List Char
  | [] => []
  | ['\\'] => []
  | '\\' :: c :: rest => c :: unescape rest
  | c :: rest => c :: unescape rest

/-- The text without its opening and its closing bracket, where it has them. -/
def strip (cs : List Char) : List Char :=
  let inner := match cs with
    | '[' :: rest => rest
    | _ => cs
  if inner.getLast? = some ']' then inner.dropLast else inner

/-- The name that a text in brackets writes. -/
def name (text : String) : String :=
  String.ofList (unescape (strip text.toList))

/-! ### What stands between the brackets -/

@[simp] theorem Extent.before_nil (extent : Extent) : extent.before [] = extent := by
  cases extent <;> rfl

@[simp] theorem Extent.before_before (front front' : List Char) (extent : Extent) :
    (extent.before front').before front = extent.before (front ++ front') := by
  cases extent <;> simp [before]

/-- What can stand between two brackets: no bracket, unless a backslash takes it along. -/
inductive IsBody : List Char → Prop
  | nil : IsBody []
  | plain {c : Char} {cs : List Char} (hclosing : c ≠ ']') (hopening : c ≠ '[')
      (hbackslash : c ≠ '\\') (others : IsBody cs) : IsBody (c :: cs)
  | escaped {c : Char} {cs : List Char} (others : IsBody cs) : IsBody ('\\' :: c :: cs)

/-- A body is passed over as a whole. -/
theorem IsBody.extent_append {body : List Char} (h : IsBody body) (rest : List Char) :
    extent (body ++ rest) = (extent rest).before body := by
  induction h with
  | nil => rw [List.nil_append, Extent.before_nil]
  | plain hclosing hopening hbackslash _ ih =>
      rw [List.cons_append, extent.eq_5 _ _ hclosing hopening fun _ _ hc _ => hbackslash hc, ih,
        Extent.before_before, List.singleton_append]
  | escaped _ ih =>
      rw [List.cons_append, List.cons_append, extent, ih, Extent.before_before]
      rfl

/-- Where a text leads: past a body to a bracket, or to the end. -/
inductive Leads : List Char → Extent → Prop
  | closed {body rest : List Char} (hbody : IsBody body) :
      Leads (body ++ ']' :: rest) (.closed body rest)
  | reopened {body rest : List Char} (hbody : IsBody body) :
      Leads (body ++ '[' :: rest) (.reopened body ('[' :: rest))
  | unclosed {cs : List Char} : Leads cs .unclosed

theorem leads_extent (cs : List Char) : Leads cs (extent cs) := by
  fun_induction extent cs with
  | case1 => exact .unclosed
  | case2 => exact .closed .nil
  | case3 => exact .reopened .nil
  | case4 c tail ih =>
      generalize extent tail = e at ih
      cases ih with
      | closed hbody => exact .closed (.escaped hbody)
      | reopened hbody => exact .reopened (.escaped hbody)
      | unclosed => exact .unclosed
  | case5 c tail hclosing hopening hescape ih =>
      have hbackslash (hne : tail ≠ []) : c ≠ '\\' := by
        obtain ⟨next, others, htail⟩ := List.exists_cons_of_ne_nil hne
        exact fun hc => hescape next others hc htail
      generalize extent tail = e at ih
      cases ih with
      | closed hbody =>
          exact .closed (.plain hclosing hopening (hbackslash (by simp)) hbody)
      | reopened hbody =>
          exact .reopened (.plain hclosing hopening (hbackslash (by simp)) hbody)
      | unclosed => exact .unclosed

/-- **A name is closed** by the first bracket that no backslash precedes, if it is a closing one. -/
theorem extent_eq_closed_iff {cs body rest : List Char} :
    extent cs = .closed body rest ↔ IsBody body ∧ body ++ ']' :: rest = cs := by
  constructor
  · intro h
    have hleads := leads_extent cs
    rw [h] at hleads
    cases hleads with
    | closed hbody => exact ⟨hbody, rfl⟩
  · rintro ⟨hbody, rfl⟩
    rw [hbody.extent_append, extent, Extent.before, List.append_nil]

theorem extent_closed_append {cs body rest : List Char} (h : extent cs = .closed body rest) :
    body ++ ']' :: rest = cs :=
  (extent_eq_closed_iff.mp h).2

/-- What follows the closing bracket does not matter. -/
theorem extent_closed {cs body rest : List Char} (h : extent cs = .closed body rest)
    (rest' : List Char) : extent (body ++ ']' :: rest') = .closed body rest' :=
  extent_eq_closed_iff.mpr ⟨(extent_eq_closed_iff.mp h).1, rfl⟩

/-- Another opening bracket is where the rest begins. -/
theorem extent_reopened_append {cs body rest : List Char} (h : extent cs = .reopened body rest) :
    body ++ rest = cs ∧ ∃ tail, rest = '[' :: tail := by
  have hleads := leads_extent cs
  rw [h] at hleads
  cases hleads with
  | reopened => exact ⟨rfl, _, rfl⟩

end QueryFormula.Bracketed
