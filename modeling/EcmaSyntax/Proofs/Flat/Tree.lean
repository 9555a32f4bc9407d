import EcmaSyntax.Proofs.Grouping

/-! # Trees of operators

An expression without parentheses is a first operand and a list of operators with their right
operands. It is read by precedence: what is applied last splits the list in two. A tree in which
operators are grouped is the reading of the list that it is written as, so there is only one. -/
namespace EcmaSyntax

/-- Names joined by binary operators. -/
inductive OperatorTree
  | name (text : String)
  | binary (left : OperatorTree) (operator : Kind) (right : OperatorTree)
deriving DecidableEq

namespace OperatorTree

/-- The first name of a tree. -/
def first : OperatorTree → String
  | name text => text
  | binary left _ _ => left.first

/-- The operators of a tree in the order of the source, each with the name behind it. -/
def rest : OperatorTree → List (Kind × String)
  | name _ => []
  | binary left operator right => left.rest ++ (operator, right.first) :: right.rest

/-- A node is the tree of operators over its names. -/
def Describes : OperatorTree → Node → Prop
  | name text, n => n.form = .identifier false text none
  | binary left operator right, n =>
    ∃ l r, n.form = .binary l operator r ∧ left.Describes l ∧ right.Describes r

end OperatorTree

/-! ## The reading by precedence -/

/-- A binary operator between two values, which is no assertion about a type. -/
def Kind.IsValueOperator (k : Kind) : Prop :=
  (Precedence.ofOperator k).isBinary = true ∧ Grammar.assertionSort? k = none

instance (k : Kind) : Decidable k.IsValueOperator := inferInstanceAs (Decidable (_ ∧ _))

/-- Whether an operator is applied after another one that stands behind it: it is looser, or both
group to the right. -/
def Kind.waits (k behind : Kind) : Bool :=
  (Precedence.ofOperator k).level < (Precedence.ofOperator behind).level
    || k == .asteriskAsteriskToken && behind == .asteriskAsteriskToken

/-- The operator that is applied last, with what stands before and behind it. -/
def splitLast : Kind × String → List (Kind × String) →
    List (Kind × String) × (Kind × String) × List (Kind × String)
  | o, [] => ([], o, [])
  | o, next :: rest =>
    let (before, last, behind) := splitLast next rest
    if o.1.waits last.1 then ([], o, next :: rest) else (o :: before, last, behind)

theorem splitLast_append (o : Kind × String) (rest : List (Kind × String)) :
    (splitLast o rest).1 ++ (splitLast o rest).2.1 :: (splitLast o rest).2.2 = o :: rest := by
  induction rest generalizing o with
  | nil => rfl
  | cons next rest ih =>
    rw [splitLast]
    dsimp only
    split
    · rfl
    · exact congrArg (o :: ·) (ih next)

theorem splitLast_lengths (o : Kind × String) (rest : List (Kind × String)) :
    (splitLast o rest).1.length + (splitLast o rest).2.2.length = rest.length := by
  have h := congrArg List.length (splitLast_append o rest)
  simp only [List.length_append, List.length_cons] at h
  omega

/-- The standard reading of names and operators: the operator that is applied last is at the top,
and what stands on its two sides is read in the same way. -/
def OperatorTree.standard (first : String) : List (Kind × String) → OperatorTree
  | [] => name first
  | o :: rest =>
    binary (standard first (splitLast o rest).1) (splitLast o rest).2.1.1
      (standard (splitLast o rest).2.1.2 (splitLast o rest).2.2)
termination_by rest => rest.length
decreasing_by
  all_goals
    have := splitLast_lengths o rest
    simp only [List.length_cons]
    omega

/-- Equal operators group to the left, but powers to the right. -/
example : OperatorTree.standard "a" [(.minusToken, "b"), (.asteriskAsteriskToken, "c"),
    (.asteriskAsteriskToken, "d"), (.minusToken, "e")] =
      .binary (.binary (.name "a") .minusToken (.binary (.name "b") .asteriskAsteriskToken
        (.binary (.name "c") .asteriskAsteriskToken (.name "d")))) .minusToken (.name "e") := by
  cbv

/-! ## Grouped trees -/

namespace OperatorTree

/-- The operator at the top of a tree. -/
def top? : OperatorTree → Option Kind
  | name _ => none
  | binary _ operator _ => some operator

/-- The operators of a tree are grouped by precedence. -/
def Grouped : OperatorTree → Prop
  | name _ => True
  | binary left operator right => left.Grouped ∧ right.Grouped ∧
    (∀ k ∈ left.top?, operator ≠ .asteriskAsteriskToken ∧
      (Precedence.ofOperator operator).level ≤ (Precedence.ofOperator k).level) ∧
    ∀ k ∈ right.top?, Precedence.FollowsOn operator k

variable {tree : OperatorTree} {n : Node}

theorem Describes.operator? (h : tree.Describes n) : n.operator? = tree.top? := by
  cases tree with
  | name text => simp [Node.operator?, show n.form = _ from h, top?]
  | binary left operator right =>
    obtain ⟨l, r, hform, -⟩ := h
    simp [Node.operator?, hform, top?]

/-- The tree of a node whose operators are grouped. -/
theorem Describes.grouped (h : tree.Describes n)
    (hn : ∀ inner : Node, inner.Within n → inner.Grouped)
    (hrest : ∀ o ∈ tree.rest, o.1.IsValueOperator) : tree.Grouped := by
  induction tree generalizing n with
  | name => trivial
  | binary left operator right ihl ihr =>
    obtain ⟨l, r, hform, hl, hr⟩ := h
    obtain ⟨header, form⟩ := n
    obtain rfl : form = _ := hform
    obtain ⟨hbefore, hhere, hbehind⟩ : (∀ o ∈ left.rest, o.1.IsValueOperator) ∧
        operator.IsValueOperator ∧ ∀ o ∈ right.rest, o.1.IsValueOperator := by
      simpa [rest, or_imp, forall_and] using hrest
    have hcomma : operator ≠ .commaToken := by
      rintro rfl
      exact absurd hhere.1 (by decide)
    have hgrouped := hn _ .root
    have hchild {c inner : Node} (hc : c = l ∨ c = r) (h : inner.Within c) : inner.Grouped := by
      refine hn inner (h.trans (.child .root ?_))
      rcases hc with rfl | rfl <;> simp [Node.children, Node.form, Form.children, Form.fields, Field.children]
    refine ⟨ihl hl (fun _ h => hchild (.inl rfl) h) hbefore,
      ihr hr (fun _ h => hchild (.inr rfl) h) hbehind, fun k hk => ?_, fun k hk => ?_⟩
    · cases left with
      | name => cases hk
      | binary =>
        obtain ⟨l', r', hform, -⟩ := hl
        cases hk
        exact (hgrouped.left _ _ _ rfl hcomma l' _ r' hform).2
    · exact (hgrouped.right _ _ _ rfl hcomma k (hr.operator? ▸ hk)).2

/-- Where the operator at the top is of some level, no operator of a grouped tree is looser. -/
theorem Grouped.le_level (h : tree.Grouped) {level : Nat}
    (htop : ∀ k ∈ tree.top?, level ≤ (Precedence.ofOperator k).level) :
    ∀ o ∈ tree.rest, level ≤ (Precedence.ofOperator o.1).level := by
  induction tree with
  | name => nofun
  | binary left operator right ihl ihr =>
    obtain ⟨hl, hr, hleft, hright⟩ := h
    have hhere := htop operator rfl
    intro o ho
    rcases List.mem_append.mp ho with ho | ho
    · exact ihl hl (fun k hk => Nat.le_trans hhere (hleft k hk).2) o ho
    rcases List.mem_cons.mp ho with rfl | ho
    · exact hhere
    · refine ihr hr (fun k hk => ?_) o ho
      rcases hright k hk with hlt | ⟨-, heq⟩ <;> omega

end OperatorTree

/-! ## One reading -/

/-- The only operator of the highest level. -/
theorem Kind.IsValueOperator.power_of_level {k : Kind} (h : k.IsValueOperator)
    (hlevel : Precedence.exponentiation.level ≤ (Precedence.ofOperator k).level) :
    k = .asteriskAsteriskToken := by
  by_contra hne
  exact absurd (Precedence.level_lt_exponentiation h.1 hne) (Nat.not_lt.mpr hlevel)

theorem splitLast_mem (o : Kind × String) (rest : List (Kind × String)) :
    (splitLast o rest).2.1 ∈ o :: rest := by
  rw [← splitLast_append]
  exact List.mem_append_right _ List.mem_cons_self

/-- An operator that waits for all behind it, and for which all before it do not wait, is applied
last. -/
theorem splitLast_eq {before behind : List (Kind × String)} {o c : Kind × String}
    {cs : List (Kind × String)} (hlist : c :: cs = before ++ o :: behind)
    (hbefore : ∀ b ∈ before, b.1.waits o.1 = false)
    (hbehind : ∀ b ∈ behind, o.1.waits b.1 = true) : splitLast c cs = (before, o, behind) := by
  induction before generalizing c cs with
  | nil =>
    obtain ⟨rfl, rfl⟩ := List.cons.inj hlist
    cases cs with
    | nil => rfl
    | cons next rest =>
      rw [splitLast]
      exact if_pos (hbehind _ (splitLast_mem next rest))
  | cons b before ih =>
    rw [List.cons_append] at hlist
    obtain ⟨rfl, rfl⟩ := List.cons.inj hlist
    obtain ⟨next, rest, hrest⟩ := List.exists_cons_of_ne_nil
      (List.append_ne_nil_of_right_ne_nil before (List.cons_ne_nil o behind))
    rw [hrest, splitLast, ih hrest.symm fun b hb => hbefore b (List.mem_cons_of_mem _ hb)]
    exact if_neg (by simp [hbefore c List.mem_cons_self])

namespace OperatorTree
variable {tree : OperatorTree} {before behind : List (Kind × String)} {o : Kind × String}

theorem standard_append (first : String) (hbefore : ∀ b ∈ before, b.1.waits o.1 = false)
    (hbehind : ∀ b ∈ behind, o.1.waits b.1 = true) :
    standard first (before ++ o :: behind) =
      binary (standard first before) o.1 (standard o.2 behind) := by
  obtain ⟨c, cs, hlist⟩ := List.exists_cons_of_ne_nil
    (List.append_ne_nil_of_right_ne_nil before (List.cons_ne_nil o behind))
  rw [hlist, standard, splitLast_eq hlist.symm hbefore hbehind]

/-- A grouped tree is the standard reading of what it is written as. -/
theorem Grouped.eq_standard (h : tree.Grouped) (hrest : ∀ o ∈ tree.rest, o.1.IsValueOperator) :
    tree = standard tree.first tree.rest := by
  induction tree with
  | name text => rw [rest, standard, first]
  | binary left operator right ihl ihr =>
    obtain ⟨hl, hr, hleft, hright⟩ := h
    obtain ⟨hbefore, hhere, hbehind⟩ : (∀ o ∈ left.rest, o.1.IsValueOperator) ∧
        operator.IsValueOperator ∧ ∀ o ∈ right.rest, o.1.IsValueOperator := by
      simpa [rest, or_imp, forall_and] using hrest
    rw [first, rest, standard_append, ← ihl hl hbefore, ← ihr hr hbehind]
    · intro b hb
      have hle := hl.le_level (fun k hk => (hleft k hk).2) b hb
      have hpower : operator ≠ .asteriskAsteriskToken := by
        cases left with
        | name => cases hb
        | binary _ k _ => exact (hleft k rfl).1
      simp [Kind.waits, hpower, Nat.not_lt.mpr hle]
    · intro b hb
      by_cases hpower : operator = .asteriskAsteriskToken
      · subst hpower
        have hle := hr.le_level (fun k hk => (hright k hk).elim Nat.le_of_lt
          fun h => Nat.le_of_eq h.2) b hb
        simp [Kind.waits, (hbehind b hb).power_of_level hle]
      · have hlt := hr.le_level (fun k hk => (hright k hk).resolve_right fun h => hpower h.1) b hb
        simp [Kind.waits, Nat.lt_of_succ_le hlt]

end OperatorTree
end EcmaSyntax
