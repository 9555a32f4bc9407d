import EcmaSyntax.Proofs.Coupling.Statement
import EcmaSyntax.Proofs.Grammar.Agreement
import EcmaSyntax.Proofs.Texts

/-! # Grammars side by side

Two runs of the grammar as a whole. A rule meets lighter rules only, so that the induction is on the
bound of the weight; the characters that the second run has more to read raise its bound. -/
namespace EcmaSyntax
open Parse Grammar

namespace Coupling
variable {K : Coupling} {α : Type} [Coupled K α] {rule rule' : Rule α} {s s' : ParseState}

/-! ## Rules -/

namespace Rules
variable (h : K.Rules rule rule')
include h

theorem isNested_eq : rule'.isNested = rule.isNested := by
  cases h <;> rfl

theorem weight_eq (hs : K.Aligned s s') : rule'.weight s' = rule.weight s + K.extra * 8 := by
  have hrank : rule'.rank = rule.rank := by cases h <;> rfl
  unfold Rule.weight
  rw [hs.left_eq, hrank]
  omega

variable [K.Lawful]

theorem absent_follows : K.Follows rule.absent rule'.absent := by
  have htype : K.Follows missingType missingType :=
    .bind missingIdentifier_follows fun n => .missing (.typeReference n none)
  cases h with
  | item | statement | declaration => exact .missing .emptyStatement
  | coverElement | objectElement | classElement | typeMember => exact .pure none rfl
  | type | typeOperator => exact htype
  | assignment | operand | unary | leftHandSide | newExpression | element =>
    exact missingIdentifier_follows

theorem readRule_follows {R R' : Recursion} [K.Recurs R R'] :
    K.Follows (@readRule R α rule) (@readRule R' α rule') := by
  cases h with
  | item inModule => exact item_follows inModule
  | statement site => exact statement_follows site
  | declaration m => exact declaration_follows m
  | coverElement => exact .some coverElement_follows
  | assignment => exact assignment_follows
  | operand precedence => exact operand_follows precedence
  | unary => exact unary_follows
  | leftHandSide => exact leftHandSide_follows
  | newExpression => exact newExpression_follows
  | objectElement => exact .some objectElement_follows
  | classElement => exact .some classElement_follows
  | type => exact type_follows
  | typeOperator => exact typeOperator_follows
  | typeMember => exact .some typeMember_follows
  | element inExpression => exact element_follows inExpression

theorem readHere_follows {R R' : Recursion} [K.Recurs R R'] :
    K.Follows (@readHere R α rule) (@readHere R' α rule') := by
  unfold readHere
  rw [h.isNested_eq]
  exact .ite (.nested h.absent_follows h.readRule_follows) h.readRule_follows

end Rules

/-! ## Grammars -/

/-- Routines that run as others do, and come through no fewer states. -/
theorem FollowsAt.of_eq {p p' q q' : Parse α} (h : K.FollowsAt p' q' s s')
    (hp : p.run s = p'.run s) (hvisits : ∀ u, p'.visits s u → p.visits s u)
    (hq : q.run s' = q'.run s') : K.FollowsAt p q s s' := by
  intro hcalm a t hrun
  obtain ⟨c, t', hleft, hright, ht⟩ :=
    h (fun u hu => hcalm u (hvisits u hu)) a t (hp.symm.trans hrun)
  exact ⟨c, t', hleft, hq.trans hright, ht⟩

omit [Coupled K α] in
/-- A rule that is read from the top comes through what it comes through with lighter rules. -/
theorem top_visits {u : ParseState}
    (h : (@readHere (below (rule.weight s) top.recur) α rule).visits s u) :
    (top.recur rule).visits s u := by
  have hbelow : below (rule.weight s) (read (rule.weight s)) = below (rule.weight s) top.recur :=
    below_congr fun rule' t hlt => read_alike_top hlt
  rw [← hbelow] at h
  have htop : (top.recur rule).visits s =
      fun u => u = s ∨ (read (rule.weight s + 1) rule).visits s u := observe_visits
  rw [htop]
  refine .inr ?_
  rw [read_succ_visits]
  exact .inr h

theorem recur_followsAt [K.Lawful] (h : K.Rules rule rule') (hs : K.state s s')
    (hlighter : K.Recurs (below (rule.weight s) top.recur)
      (below (rule.weight s + K.extra * 8) top.recur)) :
    K.FollowsAt (top.recur rule) (top.recur rule') s s' := by
  rw [← h.weight_eq (Lawful.aligned hs)] at hlighter
  exact (h.readHere_follows s s' hs).of_eq (top_run rule s) (fun u => top_visits) (top_run rule' s')

/-- A directive has been read before the token behind it. -/
theorem directive_begins {inModule : Bool} {ctx : Context} {t : ParseState} {n : Node}
    {text : String} {range : Range} (hs : s.Ready)
    (hrun : (top.recur (.item inModule ctx)).run s = some (n, t))
    (htext : n.directiveText? = some (text, range)) : range.pos ≤ t.start.offset := by
  let _ := top
  have _ := top_lawful (s.left * 8 + 8)
  have hbuilt := (item_rule (s := s) (Nat.le_refl _)).of_run hrun
  have hbegun : Node.Begun s.start.offset [n] t.start.offset := hbuilt.derived.begun hs
  obtain ⟨header, form⟩ := n
  unfold Node.directiveText? at htext
  split at htext
  case h_2 => cases htext
  case h_1 e hform =>
    split at htext
    case h_2 => cases htext
    case h_1 =>
      cases htext
      cases hform
      exact (hbegun.child List.mem_cons_self).pos_le.2

/-- An element of a list is left out at the limit of nesting only. -/
theorem covered_of_none {ctx : Context} {t : ParseState}
    (hrun : (top.recur (.coverElement ctx)).run s = some (none, t)) : t.limitReported = true := by
  rw [top_run] at hrun
  have hlimit (s : ParseState) : reportLimit.Gives s fun _ t => t.limitReported = true := by
    intro _ t hrun
    cases hrun
    unfold ParseState.reportLimit
    split <;> first | assumption | rfl
  have hgives (R : Recursion) : (@readHere R _ (.coverElement ctx)).Gives s
      fun answer t => answer = none → t.limitReported = true :=
    .look (.ite (fun _ => .deeper (.behind fun _ _ _ => .pure nofun)) fun _ =>
      (hlimit s).bind fun _ _ _ hl => .behind fun _ _ hm => .pure fun _ => hm.limitReported hl)
  exact hgives _ hrun rfl

/-- Two grammars in which the rules follow each other up to a bound. -/
theorem below_meets [K.Lawful] {W : Nat}
    (hlighter : ∀ V < W, K.Recurs (below V top.recur) (below (V + K.extra * 8) top.recur)) :
    K.Meets (below W top.recur) (below (W + K.extra * 8) top.recur) where
  recur {α _ rule rule'} h s s' hs := by
    refine .look fun _ => ?_
    rw [h.weight_eq (Lawful.aligned hs)]
    simp only [Nat.add_lt_add_iff_right]
    split
    case isTrue hlt => exact recur_followsAt h hs (hlighter _ hlt)
    case isFalse => exact Follows.unanswered s s' hs
  directive hs hrun := directive_begins hs (below_run_eq_some.mp hrun).2
  covered hrun := covered_of_none (below_run_eq_some.mp hrun).2

theorem top_meets [K.Lawful]
    (hlighter : ∀ W, K.Recurs (below W top.recur) (below (W + K.extra * 8) top.recur)) :
    K.Meets top top where
  recur h _ _ hs := recur_followsAt h hs (hlighter _)
  directive hs hrun := directive_begins hs hrun
  covered hrun := covered_of_none hrun

/-- Where the runs report alike, the routines that decide by the number of diagnostics follow each
other if the rules do. -/
theorem Meets.recurs [K.Lawful] {R R' : Recursion} (h : K.Meets R R') (hexact : K.exact) :
    K.Recurs R R' where
  typeArguments := callTypeArguments?_follows hexact
  functionType := startsFunctionType_follows (skipParameterStart_follows hexact)

theorem below_recurs [K.Lawful] (hexact : K.exact) (W : Nat) :
    K.Recurs (below W top.recur) (below (W + K.extra * 8) top.recur) := by
  induction W using Nat.strongRecOn with
  | ind W ih => exact (below_meets ih).recurs hexact

theorem top_recurs [K.Lawful] (hexact : K.exact) : K.Recurs top top :=
  (top_meets (below_recurs hexact)).recurs hexact

/-! ## Sources -/

theorem sourceStatements_follows [K.Lawful] [hR : K.Recurs top top] {ctx ctx' : Context}
    [K.Contexts ctx ctx'] : K.Follows (sourceStatements ctx) (sourceStatements ctx') := by
  unfold sourceStatements Context.isModule
  rw [K.has_eq ctx ctx' .moduleGoal rfl]
  exact statementList_follows _ _ _

end Coupling

/-- The modes of a whole source, each with the option that asks for it. -/
theorem Context.has_ofOptions (o : ParseOptions) (m : Mode) : (ofOptions o).has m =
    (m = .conditionalTypes ||
      o.goal == .module && [Mode.moduleGoal, .strict, .awaitOperator].contains m ||
      o.impliedStrict && m = .strict || !o.webCompat && m = .withoutWebCompat ||
      o.jsx && m = .jsx) := by
  obtain ⟨goal, webCompat, impliedStrict, jsx⟩ := o
  cases goal <;> cases webCompat <;> cases impliedStrict <;> cases jsx <;> cases m <;> rfl

/-- Options for the same goal lead to contexts that may differ in the modes of other options. -/
theorem Coupling.contexts_ofOptions {K : Coupling} {o o' : ParseOptions} (hgoal : o'.goal = o.goal)
    (hstrict : o'.impliedStrict = o.impliedStrict ∨
      K.free .strict = true ∧ o.impliedStrict = true)
    (hweb : o'.webCompat = o.webCompat ∨ K.free .withoutWebCompat = true ∧ o.webCompat = false)
    (hjsx : o'.jsx = o.jsx ∨ K.free .jsx = true ∧ o.jsx = true) :
    K.Contexts (.ofOptions o) (.ofOptions o') := by
  constructor <;> intro m hm
  · rw [Context.has_ofOptions, Context.has_ofOptions, hgoal]
    cases m <;> simp_all
  · rw [Context.has_ofOptions] at hm ⊢
    rw [hgoal] at hm
    cases m <;> simp_all <;> grind

/-- What a parse answers, given what the grammar answers from the first token on. -/
theorem run_eq (source : String) (options : ParseOptions) :
    run source options = ((Grammar.sourceStatements (.ofOptions options)).run
      (.firstToken source.toList)).map fun answer => (answer.1, answer.2.flush) := by
  have hsource : run source options = (do
      let statements ← sourceStatements (.ofOptions options)
      flush
      return statements : Parse (List Node)).run (.firstToken source.toList) := rfl
  rw [hsource]
  refine Option.ext fun ⟨statements, t⟩ => ?_
  rw [run_bind, Option.map_eq_some_iff]
  constructor
  · rintro ⟨_, u, hrun, hflush⟩
    cases hflush
    exact ⟨_, hrun, rfl⟩
  · rintro ⟨⟨_, u⟩, hrun, heq⟩
    cases heq
    exact ⟨_, u, hrun, rfl⟩

end EcmaSyntax
