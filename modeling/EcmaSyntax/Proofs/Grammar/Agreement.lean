import EcmaSyntax.Proofs.Grammar.Source

/-! # Answers at a higher bound

A rule that is met is read with a bound on the weight of the rules within it. Where it has an answer
the bound has never been reached, so a higher bound leads to the same answer. In particular the
bounds with which the grammar is read from the top are only there for it to end. -/
namespace EcmaSyntax
open Parse

/-- Two routines run alike from a state. -/
structure Parse.Alike {α : Type} (p q : Parse α) (s : ParseState) : Prop where
  run_eq : p.run s = q.run s
  visits_eq : p.visits s = q.visits s

/-- Routines that run alike are the same. -/
theorem Parse.eq_of_alike {α : Type} {p q : Parse α} (h : ∀ s, p.Alike q s) : p = q := by
  obtain ⟨_, _, _, _, _⟩ := p
  obtain ⟨_, _, _, _, _⟩ := q
  obtain rfl := funext fun s => (h s).run_eq
  obtain rfl := funext fun s => (h s).visits_eq
  rfl

/-- A look at the state comes through nothing but the state. -/
theorem Parse.observe_visits {α β : Type} {f : ParseState → α} {g : α → Parse β} {s : ParseState} :
    (observe f >>= g).visits s = fun u => u = s ∨ (g (f s)).visits s u := by
  funext u
  refine propext (or_congr_right ⟨?_, fun h => ⟨_, _, rfl, h⟩⟩)
  rintro ⟨a, t, hobserve, h⟩
  cases hobserve
  exact h

/-- Every answer of a routine is the answer of another one. -/
def Parse.Agrees {α : Type} (p q : Parse α) : Prop :=
  ∀ ⦃s a t⦄, p.run s = some (a, t) → q.run s = some (a, t)

namespace Parse.Agrees
variable {α β : Type} {p q : Parse α} {f g : α → Parse β}

theorem refl (p : Parse α) : p.Agrees p := fun _ _ _ h => h

theorem bind (h : p.Agrees q) (hf : ∀ a, (f a).Agrees (g a)) : (p >>= f).Agrees (q >>= g) := by
  intro s b t hrun
  obtain ⟨a, u, hp, hfa⟩ := run_bind.mp hrun
  exact run_bind.mpr ⟨a, u, h hp, hf a hfa⟩

/-- A routine whose first line is the same. -/
theorem behind (hf : ∀ a, (f a).Agrees (g a)) : (p >>= f).Agrees (p >>= g) := bind (.refl p) hf

/-- A routine whose other lines are the same. -/
theorem first (h : p.Agrees q) : (p >>= f).Agrees (q >>= f) := bind h fun a => .refl (f a)

theorem ite {c : Prop} [Decidable c] {p' q' : Parse α} (h : p.Agrees q) (h' : p'.Agrees q') :
    (if c then p else p').Agrees (if c then q else q') := by
  split
  · exact h
  · exact h'

theorem turns {step step' : α → Parse (Turn α)} (h : ∀ a, (step a).Agrees (step' a)) (n : Nat)
    (a : α) : (Parse.turns step n a).Agrees (Parse.turns step' n a) := by
  induction n generalizing a with
  | zero => exact .refl _
  | succ n ih =>
    refine behind fun start => bind (h a) fun turn => ?_
    cases turn with
    | done b => exact .refl _
    | again b => exact behind fun _ => ite (ih b) (.refl _)

theorem loop {step step' : α → Parse (Turn α)} (h : ∀ a, (step a).Agrees (step' a)) (a : α) :
    (Parse.loop step a).Agrees (Parse.loop step' a) := behind fun _ => turns h _ a

end Parse.Agrees

/-- Every answer of a grammar to a rule is that of another grammar. -/
def Recursion.Agrees (R R' : Recursion) : Prop :=
  ∀ {α : Type} (rule : Rule α), (R.recur rule).Agrees (R'.recur rule)

namespace Grammar

/-! ## Routines that meet their rules -/

section Routines
variable {R R' : Recursion} {ctx : Context} {m : Mark} {left : Node}

theorem bodyTurn_agrees (h : R.Agrees R') (inModule : Bool) (isEnd : Kind → Bool) (b : Body) :
    (@bodyTurn R inModule isEnd b).Agrees (@bodyTurn R' inModule isEnd b) :=
  .behind fun _ => .ite (.refl _) (.ite (.behind fun _ => .first (h _)) (.refl _))

theorem functionBlock_agrees (h : R.Agrees R') (ctx : Context) :
    (@functionBlock R ctx).Agrees (@functionBlock R' ctx) := by
  have hlist : (@statementList R ctx false true isBlockEnd).Agrees
      (@statementList R' ctx false true isBlockEnd) :=
    .first (.loop (bodyTurn_agrees h _ _) _)
  exact .behind fun _ => .first (.behind fun _ => .ite (.first hlist) (.refl _))

theorem argumentList_agrees (h : R.Agrees R') :
    (@argumentList R ctx).Agrees (@argumentList R' ctx) := by
  have hspread (ctx : Context) : (@spread R ctx).Agrees (@spread R' ctx) :=
    .behind fun _ => .behind fun _ => .first (h _)
  have hargument (ctx : Context) : (@argument R ctx).Agrees (@argument R' ctx) :=
    .behind fun _ => .ite (.first (hspread ctx)) (.ite (.first (h _)) (.refl _))
  have hturn (l : Listed) :
      (commaTurn .closeParenToken (fun _ => @argument R ctx.argument) l).Agrees
        (commaTurn .closeParenToken (fun _ => @argument R' ctx.argument) l) :=
    .behind fun _ => .ite (.refl _) (.behind fun _ => .first (hargument _))
  exact .behind fun _ => .first (.behind fun _ => .first (.loop hturn _))

theorem arrowFunction_agrees (h : R.Agrees R') (isAsync : Bool) (parameters : Node) :
    (@arrowFunction R ctx m isAsync parameters).Agrees
      (@arrowFunction R' ctx m isAsync parameters) := by
  have hbody : (@arrowBody R ctx isAsync).Agrees (@arrowBody R' ctx isAsync) :=
    .behind fun _ => .ite (functionBlock_agrees h _) (h _)
  exact .behind fun _ => .first hbody

theorem conditionalRest_agrees (h : R.Agrees R') (condition : Node) :
    (@conditionalRest R ctx m condition).Agrees (@conditionalRest R' ctx m condition) := by
  have hfalse : (@falseBranch R ctx).Agrees (@falseBranch R' ctx) :=
    .behind fun _ => .ite (h _) (.refl _)
  exact .behind fun _ => .bind (h _) fun _ => .first hfalse

theorem assignmentRest_agrees (h : R.Agrees R') :
    (@assignmentRest R ctx m left).Agrees (@assignmentRest R' ctx m left) :=
  .behind fun _ => .ite (arrowFunction_agrees h _ _) <| .ite (arrowFunction_agrees h _ _) <|
    .ite (.behind fun _ => .first (h _)) <| .ite (conditionalRest_agrees h _) (.refl _)

theorem operation_agrees (h : R.Agrees R') (precedence : Precedence) :
    (@operation R ctx precedence m left).Agrees (@operation R' ctx precedence m left) := by
  refine .behind fun _ => .behind fun operator => .ite ?_ (.refl _)
  refine .ite (.refl _) ?_
  split
  case h_1 sort _ =>
    have htype : (@assertedType R ctx sort).Agrees (@assertedType R' ctx sort) :=
      .behind fun _ => .ite (.refl _) (h _)
    exact .behind fun _ => .ite (.refl _) (.behind fun _ => .first htype)
  case h_2 => exact .behind fun _ => .first (h _)

theorem operand_agrees (h : R.Agrees R') (precedence : Precedence) :
    (@operand R ctx precedence).Agrees (@operand R' ctx precedence) :=
  .behind fun _ => .bind (h _) fun _ => .loop (fun _ => operation_agrees h _) _

end Routines

/-! ## Bounds -/

section Below
variable {read : {α : Type} → Rule α → Parse α} {W : Nat} {α : Type} {rule : Rule α}
  {s t : ParseState} {a : α}

theorem below_run (h : rule.weight s < W) :
    ((below W read).recur rule).run s = (read rule).run s := by
  change (if rule.weight s < W then read rule else unanswered).run s = _
  rw [if_pos h]

theorem below_run_eq_some :
    ((below W read).recur rule).run s = some (a, t) ↔
      rule.weight s < W ∧ (read rule).run s = some (a, t) := by
  by_cases h : rule.weight s < W
  · rw [below_run h, and_iff_right h]
  · change (if rule.weight s < W then read rule else unanswered).run s = _ ↔ _
    rw [if_neg h]
    exact ⟨nofun, fun hrun => absurd hrun.1 h⟩

end Below

theorem below_agrees {read : {α : Type} → Rule α → Parse α} {W W' : Nat} (h : W ≤ W') :
    (below W read).Agrees (below W' read) := by
  intro α rule s a t hrun
  obtain ⟨hlt, hread⟩ := below_run_eq_some.mp hrun
  exact below_run_eq_some.mpr ⟨Nat.lt_of_lt_of_le hlt h, hread⟩

theorem below_agrees_top (W : Nat) : (below W top.recur).Agrees top := by
  intro α rule s a t hrun
  exact (below_run_eq_some.mp hrun).2

/-- Below a bound the rules are read as the grammar says. -/
theorem below_lawful (W : Nat) : @Lawful (below W top.recur) W := by
  let _ := below W top.recur
  refine ⟨fun rule s _ hlt hfits => ?_⟩
  obtain ⟨a, t, hrun, hreads⟩ := (top_lawful W).recur_reads rule s hlt hfits
  exact ⟨a, t, (below_run hlt).trans hrun, hreads⟩

theorem below_congr {read read' : {α : Type} → Rule α → Parse α} {W : Nat}
    (h : ∀ {α : Type} (rule : Rule α) (s : ParseState), rule.weight s < W →
      (read rule).Alike (read' rule) s) : below W read = below W read' := by
  refine congrArg (fun f => Recursion.mk fun {α} => f α) (funext fun α => funext fun rule => ?_)
  refine Parse.eq_of_alike fun s => ?_
  by_cases hlt : rule.weight s < W
  · refine ⟨(below_run hlt).trans ((h rule s hlt).run_eq.trans (below_run hlt).symm), ?_⟩
    rw [observe_visits, observe_visits, if_pos hlt, if_pos hlt, (h rule s hlt).visits_eq]
  · constructor
    · change (if rule.weight s < W then read rule else unanswered).run s =
        (if rule.weight s < W then read' rule else unanswered).run s
      rw [if_neg hlt, if_neg hlt]
    · rw [observe_visits, observe_visits, if_neg hlt, if_neg hlt]

theorem read_succ_visits {α : Type} {rule : Rule α} {s : ParseState} {n : Nat} :
    (read (n + 1) rule).visits s =
      fun u => u = s ∨ (@readHere (below (rule.weight s) (read n)) α rule).visits s u :=
  observe_visits

/-- A rule is read alike at all bounds that are enough for it. -/
theorem read_congr {α : Type} {rule : Rule α} {s : ParseState} {n n' : Nat}
    (hn : rule.weight s < n) (hn' : rule.weight s < n') :
    (read n rule).Alike (read n' rule) s := by
  induction n generalizing α s n' with
  | zero => exact absurd hn (Nat.not_lt_zero _)
  | succ n ih =>
    cases n' with
    | zero => exact absurd hn' (Nat.not_lt_zero _)
    | succ n' =>
      have hbelow : below (rule.weight s) (read n) = below (rule.weight s) (read n') :=
        below_congr fun rule' t hlt => ih (by omega) (by omega)
      constructor
      · change (@readHere (below (rule.weight s) (read n)) α rule).run s = _
        rw [hbelow]
        rfl
      · rw [read_succ_visits, read_succ_visits, hbelow]

/-- A rule is read alike from the top and at a bound that is enough for it. -/
theorem read_alike_top {α : Type} {rule : Rule α} {s : ParseState} {n : Nat}
    (hn : rule.weight s < n) : (read n rule).Alike (top.recur rule) s := by
  have hcongr := read_congr hn (Nat.lt_succ_self (rule.weight s))
  refine ⟨hcongr.run_eq, hcongr.visits_eq.trans ?_⟩
  have htop : (top.recur rule).visits s =
      fun u => u = s ∨ (read (rule.weight s + 1) rule).visits s u := observe_visits
  rw [htop, read_succ_visits]
  funext u
  rw [← or_assoc, or_self]

/-- Seen from the top, a rule is read with the lighter rules seen from the top. -/
theorem top_run {α : Type} (rule : Rule α) (s : ParseState) :
    (top.recur rule).run s =
      (@readHere (below (rule.weight s) top.recur) α rule).run s := by
  have hbelow : below (rule.weight s) (read (rule.weight s)) = below (rule.weight s) top.recur :=
    below_congr fun rule' t hlt => read_alike_top hlt
  rw [← hbelow]
  rfl

end Grammar
end EcmaSyntax
