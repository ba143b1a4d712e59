import QueryFormula.Proofs.Grammar.Joining
import QueryFormula.Proofs.Grammar.Recognition

/-!
# How high a tree can get

The limit of nesting bounds the height of every tree that is parsed
(`height_le_of_parse`).  It does so only indirectly: the switches of a chain of
operators are given back at its end, a comparison takes up no level at all, and what a
chain in parentheses gets behind them goes into the clause that is there, without a
switch.  So a chain of two operators gets one higher than there are levels left, and a
formula with `n + 1` levels gets higher by `2 * n + 8` than one with `n`
(`heightLimit`).  No smaller bound holds (`parse_tallest`).
-/

namespace QueryFormula

namespace Expr

mutual

/-- The number of nodes on the longest way down. -/
def height : Expr → Nat
  | clause _ xs _ => heightOfAll xs + 1
  | options es _ => heightOfEntries es + 1
  | pairs ps _ => heightOfPairs ps + 1
  | _ => 1

/-- The height of the highest operand. -/
def heightOfAll : List Expr → Nat
  | [] => 0
  | x :: xs => max (height x) (heightOfAll xs)

/-- The height of the highest value of an options object. -/
def heightOfEntries : List (String × Expr) → Nat
  | [] => 0
  | (_, v) :: es => max (height v) (heightOfEntries es)

/-- The height of the highest test or value. -/
def heightOfPairs : List (Expr × Expr) → Nat
  | [] => 0
  | (t, v) :: ps => max (max (height t) (height v)) (heightOfPairs ps)

end

theorem heightOfAll_le_iff {xs : List Expr} {n : Nat} :
    heightOfAll xs ≤ n ↔ ∀ x ∈ xs, x.height ≤ n := by
  induction xs with
  | nil => simp [heightOfAll]
  | cons x xs ih => rw [heightOfAll, Nat.max_le, ih, List.forall_mem_cons]

theorem height_clause (op : String) (xs : List Expr) (o : Option Span) :
    (clause op xs o).height = heightOfAll xs + 1 :=
  rfl

theorem heightOfAll_append (xs ys : List Expr) :
    heightOfAll (xs ++ ys) = max (heightOfAll xs) (heightOfAll ys) := by
  induction xs with
  | nil => simp [heightOfAll]
  | cons x xs ih => simp [heightOfAll, ih, Nat.max_assoc]

theorem one_le_height (e : Expr) : 1 ≤ e.height := by
  cases e <;> simp [height]

end Expr

namespace Grammar

/-! ### What the rules add -/

theorem height_binary (left right : Expr) (op : Operator) :
    (binary left op right).height = max left.height right.height + 1 := by
  simp [binary, Expr.height, Expr.heightOfAll]

/-- A sign adds one node, unless it goes into a number. -/
theorem height_unary_le (op : Operator) (sign : Span) (operand : Expr) :
    (unary op sign operand).height ≤ operand.height + 1 := by
  unfold unary
  split
  · simp [Expr.height]
  · simp [Expr.height]
  · simp [Expr.height, Expr.heightOfAll]

/-- A chain that is extended gets no higher for its own operands. -/
theorem height_appendOperand_of_chain {left : Expr} {op : Operator}
    (h : isChainOf left op = true) (right : Expr) :
    (appendOperand left op right).height = max left.height (right.height + 1) := by
  obtain ⟨xs, o, rfl, hlength⟩ := isChainOf_iff.mp h
  rw [appendOperand_of_chain hlength, Expr.height_clause, Expr.height_clause,
    Expr.heightOfAll_append]
  simp only [Expr.heightOfAll]
  omega

/-! ### Chains -/

/-- The expressions that the operators of a chain join to its first operand. -/
def Links.operands {level : Level} : Links level → List Expr
  | .nil => []
  | .cons _ operand links => operand.tree :: links.operands

variable {level : Level}

/-- **A chain of several operators** grows with each switch, and may grow once more: a
chain of the same operator in front of it is extended without a switch. -/
theorem Links.height_extend_le_of_switches {limit room : Nat} :
    (links : Links level) → {left : Expr} → {switches : Nat} →
    (∀ x ∈ links.operands, x.height ≤ limit) → left.height ≤ limit + switches + 1 →
    switches ≤ room → links.need left switches ≤ room →
    (links.extend left).height ≤ limit + room + 1
  | .nil, left, switches, _, hleft, hroom, _ => by
      rw [Links.extend]
      omega
  | .cons sign operand links, left, switches, hoperands, hleft, hroom, hneed => by
      obtain ⟨hoperand, hothers⟩ := List.forall_mem_cons.mp hoperands
      rw [Links.need] at hneed
      have hjoined : (appendOperand left sign.op operand.tree).height ≤
          limit + switchesAfter left sign.op switches + 1 := by
        by_cases hchain : isChainOf left sign.op = true
        · rw [height_appendOperand_of_chain hchain, switchesAfter, if_pos hchain]
          omega
        · rw [appendOperand_of_not_chain (Bool.eq_false_iff.mpr hchain), height_binary,
            switchesAfter, if_neg hchain]
          omega
      exact links.height_extend_le_of_switches hothers hjoined (by omega) (by omega)

/-- **A chain of one operator** grows once. -/
theorem Links.height_extend_le_of_single {limit : Nat} {op : Operator}
    (single : level.joiners = [op]) : (links : Links level) → {left : Expr} →
    (∀ x ∈ links.operands, x.height ≤ limit) →
    left.height ≤ limit ∨ isChainOf left op = true ∧ left.height ≤ limit + 1 →
    (links.extend left).height ≤ limit + 1
  | .nil, left, _, hleft => by
      rw [Links.extend]
      omega
  | .cons sign operand links, left, hoperands, hleft => by
      obtain ⟨hoperand, hothers⟩ := List.forall_mem_cons.mp hoperands
      obtain rfl : sign.op = op := List.mem_singleton.mp (single ▸ sign.among)
      refine links.height_extend_le_of_single single hothers
        (.inr ⟨isChainOf_appendOperand left operand.tree sign.op, ?_⟩)
      by_cases hchain : isChainOf left sign.op = true
      · rw [height_appendOperand_of_chain hchain]
        omega
      · have hlow : left.height ≤ limit := hleft.resolve_right fun h => hchain h.1
        rw [appendOperand_of_not_chain (Bool.eq_false_iff.mpr hchain), height_binary]
        omega

/-! ### Phrases that take up no level -/

/-- No chain is a comparison. -/
theorem not_mem_comparisons_of_mem_joiners {op : Operator} (h : op ∈ level.joiners) :
    op ∉ Operator.comparisons := by
  cases level <;> simp_all [Level.joiners, Operator.comparisons] <;> grind

/-- Without a level of nesting no chain begins. -/
theorem Links.eq_nil_of_need {left : Expr}
    (hleft : ∀ op ∈ level.joiners, isChainOf left op = false) :
    (links : Links level) → links.need left 0 = 0 → links = .nil
  | .nil, _ => rfl
  | .cons sign operand links, h => by
      rw [Links.need, switchesAfter, hleft sign.op sign.among] at h
      simp at h

/-- What takes up no level of nesting is no chain. -/
theorem Phrase.isChainOf_tree {op : Operator} (hop : op ∉ Operator.comparisons) :
    {level : Level} → (phrase : Phrase level) → phrase.need = 0 →
    isChainOf phrase.tree op = false
  | _, .literal _ _ _, _ => rfl
  | _, .name _ _, _ => rfl
  | _, .emptyCall _, _ => by simp [Phrase.tree, Grammar.call, isChainOf]
  | _, .call _ _, h => by simp [Phrase.need] at h
  | _, .group _ _ _, h => by simp [Phrase.need] at h
  | _, .signed _ _, h => by simp [Phrase.need] at h
  | _, .negated _ _, h => by simp [Phrase.need] at h
  | _, .compared left sign right, _ => by
      have hne : sign.op.symbol ≠ op.symbol := fun h => hop (symbol_injective h ▸ sign.among)
      simp [Phrase.tree, binary, isChainOf, hne]
  | level, .chain _ first links, h => by
      rw [Phrase.need] at h
      have hnil : links = .nil := links.eq_nil_of_need
        (fun op' hop' => first.isChainOf_tree (not_mem_comparisons_of_mem_joiners hop') (by omega))
        (by omega)
      rw [Phrase.tree, hnil, Links.extend]
      exact first.isChainOf_tree hop (by omega)

/-! ### The limit -/

/-- The height that a formula may reach which takes up so many levels of nesting. -/
def heightLimit : Nat → Nat
  | 0 => 2
  | n + 1 => heightLimit n + 2 * n + 8

/-- The height that an expression of a level may reach.  With a level to spare each chain of
two operators adds one more than there are levels, a chain of one operator adds one, and so
does a comparison. -/
def Level.heightLimit : Level → Nat → Nat
  | .disjunction, 0 | .conjunction, 0 | .negation, 0 | .comparison, 0 => 2
  | .sum, 0 | .product, 0 | .signed, 0 | .primary, 0 => 1
  | .disjunction, n + 1 => Grammar.heightLimit n + 2 * n + 8
  | .conjunction, n + 1 => Grammar.heightLimit n + 2 * n + 7
  | .negation, n + 1 | .comparison, n + 1 => Grammar.heightLimit n + 2 * n + 6
  | .sum, n + 1 => Grammar.heightLimit n + 2 * n + 5
  | .product, n + 1 => Grammar.heightLimit n + n + 3
  | .signed, n + 1 | .primary, n + 1 => Grammar.heightLimit n + 1

theorem Level.heightLimit_le (level : Level) (n : Nat) :
    level.heightLimit n ≤ Grammar.heightLimit n := by
  cases n <;> cases level <;> simp only [Level.heightLimit, Grammar.heightLimit] <;> omega

/-- A tighter level allows no more. -/
theorem Level.heightLimit_tighter_le (level : Level) (n : Nat) :
    level.tighter.heightLimit n ≤ level.heightLimit n := by
  cases n <;> cases level <;> simp only [Level.heightLimit, Level.tighter] <;> omega

/-- A chain is no higher than its level allows. -/
theorem height_extend_le (links : Links level) {first : Expr} {n : Nat}
    (hfirst : first.height ≤ level.tighter.heightLimit n)
    (hoperands : ∀ x ∈ links.operands, x.height ≤ level.tighter.heightLimit n)
    (hneed : links.need first 0 ≤ n) (hidle : n = 0 → links = .nil) :
    (links.extend first).height ≤ level.heightLimit n := by
  by_cases hnil : links = .nil
  · rw [hnil, Links.extend]
    exact Nat.le_trans hfirst (level.heightLimit_tighter_le n)
  · obtain ⟨n, rfl⟩ := Nat.exists_eq_succ_of_ne_zero fun h => hnil (hidle h)
    have hswitches := links.height_extend_le_of_switches hoperands
      (Nat.le_succ_of_le hfirst) (Nat.zero_le _) hneed
    -- a level without operators has no links, so four levels remain
    cases level with
    | disjunction => exact links.height_extend_le_of_single rfl hoperands (.inl hfirst)
    | conjunction => exact links.height_extend_le_of_single rfl hoperands (.inl hfirst)
    | sum =>
        simp only [Level.heightLimit, Level.tighter] at hswitches ⊢
        omega
    | product =>
        simp only [Level.heightLimit, Level.tighter] at hswitches ⊢
        omega
    | _ => exact absurd (Links.eq_nil rfl links) hnil

mutual

/-- **The tree of a phrase** is no higher than its level allows with the levels of nesting
that the phrase takes up. -/
theorem Phrase.height_tree_le : {level : Level} → (phrase : Phrase level) → {n : Nat} →
    phrase.need ≤ n → phrase.tree.height ≤ level.heightLimit n
  | _, .literal _ _ _, n, _ => by
      cases n <;> simp [Phrase.tree, Expr.height, Level.heightLimit]
  | _, .name _ _, n, _ => by
      cases n <;> simp [Phrase.tree, Grammar.name, Expr.height, Level.heightLimit]
  | _, .emptyCall _, n, _ => by
      cases n <;> simp [Phrase.tree, Grammar.call, Expr.height, Expr.heightOfAll, Level.heightLimit]
  | _, .call _ list, 0, h => by simp [Phrase.need] at h
  | _, .call _ list, n + 1, h => by
      rw [Phrase.need] at h
      have hlist : Expr.heightOfAll list.trees ≤ Grammar.heightLimit n :=
        Expr.heightOfAll_le_iff.mpr (list.height_trees_le (by omega))
      rw [Phrase.tree, Grammar.call, Expr.height_clause, Level.heightLimit]
      omega
  | _, .group _ inner _, 0, h => by simp [Phrase.need] at h
  | _, .group _ inner _, n + 1, h => by
      rw [Phrase.need] at h
      have hinner := inner.height_tree_le (n := n) (by omega)
      have hle := Level.heightLimit_le .disjunction n
      rw [Phrase.tree, Level.heightLimit]
      omega
  | _, .signed sign operand, 0, h => by simp [Phrase.need] at h
  | _, .signed sign operand, n + 1, h => by
      rw [Phrase.need] at h
      have hoperand := operand.height_tree_le (n := n) (by omega)
      have hle := Level.heightLimit_le .signed n
      have hunary := height_unary_le sign.op sign.token.span operand.tree
      rw [Phrase.tree, Level.heightLimit]
      omega
  | _, .negated sign operand, 0, h => by simp [Phrase.need] at h
  | _, .negated sign operand, n + 1, h => by
      rw [Phrase.need] at h
      have hoperand := operand.height_tree_le (n := n) (by omega)
      have hle := Level.heightLimit_le .negation n
      have hunary := height_unary_le sign.op sign.token.span operand.tree
      rw [Phrase.tree, Level.heightLimit]
      omega
  | _, .compared left sign right, n, h => by
      rw [Phrase.need, Nat.max_le] at h
      have hleft := left.height_tree_le h.1
      have hright := right.height_tree_le h.2
      rw [Phrase.tree, height_binary]
      cases n <;> simp only [Level.heightLimit] at hleft hright ⊢ <;> omega
  | level, .chain _ first links, n, h => by
      rw [Phrase.need, Nat.max_le] at h
      refine height_extend_le links (first.height_tree_le h.1) (links.height_operands_le h.2) h.2 ?_
      rintro rfl
      exact links.eq_nil_of_need (fun op hop =>
        first.isChainOf_tree (not_mem_comparisons_of_mem_joiners hop) (by omega)) (by omega)

theorem Links.height_operands_le : {level : Level} → (links : Links level) → {left : Expr} →
    {switches n : Nat} → links.need left switches ≤ n →
    ∀ x ∈ links.operands, x.height ≤ level.tighter.heightLimit n
  | _, .nil, _, _, _, _ => fun _ hx => absurd hx List.not_mem_nil
  | _, .cons _ operand links, _, _, _, h => by
      rw [Links.need, Nat.max_le] at h
      exact List.forall_mem_cons.mpr
        ⟨operand.height_tree_le (by omega), links.height_operands_le h.2⟩

theorem Arguments.height_trees_le : (list : Arguments) → {n : Nat} → list.need ≤ n →
    ∀ x ∈ list.trees, x.height ≤ Grammar.heightLimit n
  | .last argument, n, h =>
      List.forall_mem_singleton.mpr
        (Nat.le_trans (argument.height_tree_le h) (Level.heightLimit_le .disjunction n))
  | .cons argument _ others, n, h => by
      rw [Arguments.need, Nat.max_le] at h
      exact List.forall_mem_cons.mpr
        ⟨Nat.le_trans (argument.height_tree_le h.1) (Level.heightLimit_le .disjunction n),
          others.height_trees_le h.2⟩

end

/-! ### The highest trees -/

/-- Links with two operators by turns. -/
def Links.alternate {level : Level} (sign other : OperatorToken level.joiners)
    (operand : Phrase level.tighter) : Nat → Links level
  | 0 => .nil
  | n + 1 => .cons sign operand (alternate other sign operand n)

/-- A chain that extends the chain it begins with, and then switches so many times. -/
def Phrase.pile {level : Level} (above : level ≠ .primary) (head big leaf : Phrase level.tighter)
    (sign other : OperatorToken level.joiners) (n : Nat) : Phrase level :=
  .chain above head (.cons sign big (.alternate other sign leaf n))

/-- A phrase of the next tighter level alone. -/
def Phrase.alone {level : Level} (above : level ≠ .primary) (phrase : Phrase level.tighter) :
    Phrase level :=
  .chain above phrase .nil

theorem Phrase.need_alone (above : level ≠ .primary) (phrase : Phrase level.tighter) :
    (phrase.alone above).need = phrase.need :=
  Nat.max_zero _

section Alternate

variable {sign other : OperatorToken level.joiners} {leaf : Phrase level.tighter}

theorem Links.need_alternate_le (hne : sign.op.symbol ≠ other.op.symbol) (hleaf : leaf.need = 0)
    (n : Nat) {left : Expr} {switches : Nat} (hleft : isChainOf left sign.op = false) :
    (alternate sign other leaf n).need left switches ≤ switches + n := by
  induction n generalizing sign other left switches with
  | zero => simp [alternate, Links.need]
  | succ n ih =>
      have hnext : isChainOf (appendOperand left sign.op leaf.tree) other.op = false := by
        rw [appendOperand_of_not_chain hleft, isChainOf_binary]
        simpa using hne
      have hrest : (alternate other sign leaf n).need (appendOperand left sign.op leaf.tree)
          (switches + 1) ≤ switches + 1 + n := ih hne.symm hnext
      rw [alternate, Links.need, switchesAfter, hleft]
      simp only [Bool.false_eq_true, if_false, hleaf]
      omega

theorem Links.height_extend_alternate (hne : sign.op.symbol ≠ other.op.symbol)
    (hleaf : leaf.tree.height = 1) (n : Nat) {left : Expr}
    (hleft : isChainOf left sign.op = false) :
    ((alternate sign other leaf n).extend left).height = left.height + n := by
  induction n generalizing sign other left with
  | zero => rfl
  | succ n ih =>
      have hpositive := left.one_le_height
      have hjoined := appendOperand_of_not_chain hleft leaf.tree
      have hnext : isChainOf (appendOperand left sign.op leaf.tree) other.op = false := by
        rw [hjoined, isChainOf_binary]
        simpa using hne
      rw [alternate, Links.extend, ih hne.symm hnext, hjoined, height_binary, hleaf]
      omega

variable {head big : Phrase level.tighter} {n : Nat} (above : level ≠ .primary)

/-- What an operator joins is no chain of the other operator. -/
theorem isChainOf_joined (hne : sign.op.symbol ≠ other.op.symbol) (right : Expr) :
    isChainOf (appendOperand head.tree sign.op right) other.op = false := by
  refine Bool.eq_false_iff.mpr fun hother => hne ?_
  exact symbol_eq_of_isChainOf (isChainOf_appendOperand head.tree right sign.op) hother

theorem Phrase.need_pile_le (hne : sign.op.symbol ≠ other.op.symbol)
    (hhead : isChainOf head.tree sign.op = true) (hleaf : leaf.need = 0) (hneed : head.need ≤ n)
    (hbig : big.need ≤ n) : (pile above head big leaf sign other n).need ≤ n := by
  have hrest : (Links.alternate other sign leaf n).need
      (appendOperand head.tree sign.op big.tree) 0 ≤ 0 + n :=
    Links.need_alternate_le hne.symm hleaf n (isChainOf_joined hne big.tree)
  rw [pile, Phrase.need, Links.need, switchesAfter, hhead]
  simp only [if_true]
  omega

theorem Phrase.height_pile (hne : sign.op.symbol ≠ other.op.symbol)
    (hhead : isChainOf head.tree sign.op = true) (hleaf : leaf.tree.height = 1)
    (hlow : head.tree.height ≤ big.tree.height + 1) :
    (pile above head big leaf sign other n).tree.height = big.tree.height + 1 + n := by
  rw [pile, Phrase.tree, Links.extend, Links.height_extend_alternate hne.symm hleaf n
    (isChainOf_joined hne big.tree), height_appendOperand_of_chain hhead]
  omega

end Alternate

/-- A chain of two operands. -/
def Phrase.pair (above : level ≠ .primary) (first : Phrase level.tighter)
    (sign : OperatorToken level.joiners) (operand : Phrase level.tighter) : Phrase level :=
  .chain above first (.cons sign operand .nil)

section Pair

variable {first operand : Phrase level.tighter} {sign : OperatorToken level.joiners}
  (above : level ≠ .primary)

theorem Phrase.tree_pair (hfirst : isChainOf first.tree sign.op = false) :
    (pair above first sign operand).tree = binary first.tree sign.op operand.tree :=
  appendOperand_of_not_chain hfirst operand.tree

theorem Phrase.height_pair (hfirst : isChainOf first.tree sign.op = false)
    (hoperand : operand.tree.height = 1) :
    (pair above first sign operand).tree.height = first.tree.height + 1 := by
  have hpositive := first.tree.one_le_height
  rw [tree_pair above hfirst, height_binary, hoperand, Nat.max_eq_left hpositive]

theorem Phrase.need_pair_le {n : Nat} (hfirst : first.need ≤ n + 1)
    (hoperand : operand.need ≤ n) :
    (pair above first sign operand).need ≤ n + 1 := by
  rw [pair, Phrase.need, Links.need, Links.need, switchesAfter]
  split <;> omega

end Pair

/-- The text that the tokens of the highest formulas are cut from.  Tokens need not follow
one another in their text, and the name of a function may be a sign. -/
def pieces : String := "f+-*/=(),and or true"

/-- A piece of the text as a token. -/
def piece (kind : TokenClass) (start stop : Nat) : Token :=
  ⟨kind, String.ofList ((pieces.toList.take stop).drop start), ⟨start, stop⟩⟩

/-- A piece of the text as an operator. -/
def sign (op : Operator) (start stop : Nat) {ops : List Operator} (among : op ∈ ops) :
    OperatorToken ops :=
  ⟨piece (.operator op) start stop, op, rfl, among⟩

namespace Phrase

/-- A truth value as an expression of a level. -/
def truth (level : Level) : Phrase level :=
  let primary : Phrase .primary :=
    .literal (piece (.literal (.boolean true)) 16 20) (.boolean true) rfl
  let signed : Phrase .signed := .alone signed_ne_primary primary
  let product : Phrase .product := .alone (by decide) signed
  let sum : Phrase .sum := .alone (by decide) product
  let comparison : Phrase .comparison := .alone (by decide) sum
  let negation : Phrase .negation := .alone (by decide) comparison
  let conjunction : Phrase .conjunction := .alone (by decide) negation
  match level with
  | .primary => primary
  | .signed => signed
  | .product => product
  | .sum => sum
  | .comparison => comparison
  | .negation => negation
  | .conjunction => conjunction
  | .disjunction => .alone disjunction_ne_primary conjunction

theorem tree_truth (level : Level) :
    (truth level).tree = .literal (.boolean true) (some ⟨16, 20⟩) := by
  cases level <;> rfl

theorem height_truth (level : Level) : (truth level).tree.height = 1 := by
  rw [tree_truth]
  rfl

theorem need_truth (level : Level) : (truth level).need = 0 := by
  cases level <;> rfl

/-- A call of the function whose name begins at `start` and is one letter or sign long. -/
def calling (start : Nat) (bare : (piece .identifier start (start + 1)).isBracketed = false)
    (arguments : Arguments) : Phrase .signed :=
  .alone signed_ne_primary (.call
    ⟨piece .identifier start (start + 1), sign .openParenthesis 6 7 (by decide),
      sign .closeParenthesis 7 8 (by decide), rfl, bare⟩ arguments)

/-- Two truth values. -/
def truths : Arguments :=
  .cons (truth .disjunction) (sign .comma 8 9 (by decide)) (.last (truth .disjunction))

/-- A product higher than the expression in it by the levels of nesting that it takes up, and
three more: for the call around the expression, for the product that begins with a call
called like the operator, and for its first switch. -/
def tallestProduct (inner : Phrase .disjunction) (n : Nat) : Phrase .product :=
  .pile (by decide) (calling 3 (by decide) truths) (calling 0 (by decide) (.last inner))
    (truth .signed) (sign .star 3 4 (by decide)) (sign .slash 4 5 (by decide)) n

/-- The same for a sum of the product. -/
def tallestSum (inner : Phrase .disjunction) (n : Nat) : Phrase .sum :=
  .pile (by decide) (.alone (by decide) (calling 1 (by decide) truths)) (tallestProduct inner n)
    (truth .product) (sign .plus 1 2 (by decide)) (sign .minus 2 3 (by decide)) n

/-- A comparison, for which no level of nesting is needed. -/
def comparing (left : Phrase .sum) : Phrase .negation :=
  .alone (by decide) (.compared left (sign .equal 5 6 (by decide)) (truth .sum))

/-- A comparison and something else. -/
def conjoining (left : Phrase .sum) : Phrase .conjunction :=
  .pair (by decide) (comparing left) (sign .and 9 12 (by decide)) (truth .negation)

/-- The highest formula that takes up so many levels of nesting. -/
def tallest : Nat → Phrase .disjunction
  | 0 => .alone disjunction_ne_primary (.alone (by decide) (comparing (truth .sum)))
  | n + 1 =>
    .pair disjunction_ne_primary (conjoining (tallestSum (tallest n) (n + 1)))
      (sign .or 13 15 (by decide)) (truth .conjunction)

section Calling

variable {start : Nat} (bare : (piece .identifier start (start + 1)).isBracketed = false)

theorem need_calling (arguments : Arguments) :
    (calling start bare arguments).need = 1 + arguments.need :=
  Nat.max_zero _

theorem height_calling (arguments : Arguments) :
    (calling start bare arguments).tree.height = Expr.heightOfAll arguments.trees + 1 :=
  rfl

theorem height_trees_truths : Expr.heightOfAll truths.trees = 1 := by
  simp [truths, Arguments.trees, Expr.heightOfAll, height_truth]

theorem need_truths : truths.need = 0 := by
  simp [truths, Arguments.need, need_truth]

theorem height_calling_truths : (calling start bare truths).tree.height = 2 := by
  rw [height_calling, height_trees_truths]

theorem need_calling_truths : (calling start bare truths).need = 1 := by
  rw [need_calling, need_truths]

/-- No function is called like one of the operators that the highest trees pile up. -/
theorem clauseNamed?_symbol : ∀ op ∈ [Operator.plus, .star], clauseNamed? op.symbol = none := by
  decide +kernel

/-- A call of a function that is called like an operator is a chain. -/
theorem isChainOf_calling {op : Operator} (hop : op ∈ [Operator.plus, .star])
    (htext : (piece .identifier start (start + 1)).text = op.symbol) :
    isChainOf (calling start bare truths).tree op = true := by
  have hunknown := clauseNamed?_symbol op hop
  have htree : (calling start bare truths).tree =
      Grammar.call (piece .identifier start (start + 1)) truths.trees ⟨7, 8⟩ := rfl
  rw [htree, Grammar.call, htext, hunknown]
  simp [isChainOf, truths, Arguments.trees]

end Calling

theorem height_tallestProduct (inner : Phrase .disjunction) (n : Nat) :
    (tallestProduct inner n).tree.height = inner.tree.height + n + 2 := by
  have hbig : (calling 0 (by decide) (.last inner)).tree.height = inner.tree.height + 1 := by
    rw [height_calling, Arguments.trees, Expr.heightOfAll, Expr.heightOfAll, Nat.max_zero]
  have hpositive := inner.tree.one_le_height
  refine (height_pile (by decide) (by decide)
    (isChainOf_calling (by decide) (by decide) (by decide)) (height_truth .signed) ?_).trans ?_
  · exact Nat.le_trans (Nat.le_of_eq (height_calling_truths _)) (hbig ▸ by omega)
  · exact (congrArg (· + 1 + n) hbig).trans (by omega)

theorem need_tallestProduct_le {inner : Phrase .disjunction} {n : Nat} (h : inner.need < n) :
    (tallestProduct inner n).need ≤ n := by
  have hbig : (calling 0 (by decide) (.last inner)).need ≤ n := by
    rw [need_calling, Arguments.need]
    omega
  have hhead : (calling 3 (by decide) truths).need ≤ n := by
    rw [need_calling_truths]
    omega
  exact need_pile_le (by decide) (by decide)
    (isChainOf_calling (by decide) (by decide) (by decide)) (need_truth _) hhead hbig

theorem height_tallestSum (inner : Phrase .disjunction) (n : Nat) :
    (tallestSum inner n).tree.height = inner.tree.height + 2 * n + 3 := by
  have hbig := height_tallestProduct inner n
  refine (height_pile (by decide) (by decide)
    (isChainOf_calling (by decide) (by decide) (by decide)) (height_truth .product) ?_).trans ?_
  · exact Nat.le_trans (Nat.le_of_eq (height_calling_truths _)) (hbig ▸ by omega)
  · exact (congrArg (· + 1 + n) hbig).trans (by omega)

theorem need_tallestSum_le {inner : Phrase .disjunction} {n : Nat} (h : inner.need < n) :
    (tallestSum inner n).need ≤ n := by
  have hhead : (calling 1 (by decide) truths).need ≤ n := by
    rw [need_calling_truths]
    omega
  exact need_pile_le (by decide) (by decide)
    (isChainOf_calling (by decide) (by decide) (by decide)) (need_truth _)
    (Nat.le_trans (Nat.le_of_eq (need_alone _ _)) hhead) (need_tallestProduct_le h)

theorem tree_comparing (left : Phrase .sum) :
    (comparing left).tree = binary left.tree .equal (truth .sum).tree :=
  rfl

theorem need_comparing (left : Phrase .sum) : (comparing left).need = left.need :=
  calc (comparing left).need
    _ = max left.need (truth .sum).need := need_alone _ _
    _ = left.need := by rw [need_truth, Nat.max_zero]

theorem height_comparing (left : Phrase .sum) :
    (comparing left).tree.height = left.tree.height + 1 := by
  rw [tree_comparing, height_binary, height_truth, Nat.max_eq_left left.tree.one_le_height]

theorem tree_conjoining (left : Phrase .sum) :
    (conjoining left).tree = binary (comparing left).tree .and (truth .negation).tree :=
  tree_pair _ (isChainOf_binary _ _ _ _)

theorem height_conjoining (left : Phrase .sum) :
    (conjoining left).tree.height = left.tree.height + 2 :=
  calc (conjoining left).tree.height
    _ = (comparing left).tree.height + 1 :=
      height_pair _ (isChainOf_binary _ _ _ _) (height_truth .negation)
    _ = left.tree.height + 2 := by rw [height_comparing]

theorem need_tallest_le (n : Nat) : (tallest n).need ≤ n := by
  induction n with
  | zero => decide
  | succ n ih =>
      have hleaf (level : Level) : (truth level).need ≤ n :=
        Nat.le_trans (Nat.le_of_eq (need_truth level)) (Nat.zero_le n)
      have hcomparing : (comparing (tallestSum (tallest n) (n + 1))).need ≤ n + 1 := by
        rw [need_comparing]
        exact need_tallestSum_le (Nat.lt_succ_of_le ih)
      exact need_pair_le _ (need_pair_le _ hcomparing (hleaf _)) (hleaf _)

theorem height_tallest (n : Nat) : (tallest n).tree.height = heightLimit n := by
  induction n with
  | zero => rfl
  | succ n ih =>
      have hchain (left : Phrase .sum) : isChainOf (conjoining left).tree .or = false := by
        rw [tree_conjoining]
        exact isChainOf_binary _ _ _ _
      calc (tallest (n + 1)).tree.height
        _ = (conjoining (tallestSum (tallest n) (n + 1))).tree.height + 1 :=
          height_pair _ (hchain _) (height_truth .conjunction)
        _ = heightLimit (n + 1) := by
          rw [height_conjoining, height_tallestSum, ih, heightLimit]
          omega

end Phrase

end Grammar

open Grammar

/-- **The limit of nesting bounds the height of every tree.** -/
theorem height_le_of_parse {source : String} {tokens : List Token} {tree : Expr}
    (h : parse source tokens = .ok tree) : tree.height ≤ 4546 := by
  obtain ⟨phrase, -, rfl, hneed⟩ := exists_phrase_of_parse h
  exact phrase.height_tree_le hneed

theorem height_le_of_parse_tallest :
    parse pieces (Phrase.tallest 64).tokens = .ok (Phrase.tallest 64).tree ∧
      (Phrase.tallest 64).tree.height ≤ 4546 :=
  have h := parse_of_phrase pieces _ (Phrase.need_tallest_le 64)
  ⟨h, height_le_of_parse h⟩

/-- **The bound is reached.** -/
theorem parse_tallest :
    parse pieces (Phrase.tallest 64).tokens = .ok (Phrase.tallest 64).tree ∧
      (Phrase.tallest 64).tree.height = 4546 :=
  ⟨parse_of_phrase pieces _ (Phrase.need_tallest_le 64), Phrase.height_tallest 64⟩

end QueryFormula
