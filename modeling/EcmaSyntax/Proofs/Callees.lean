import EcmaSyntax.Proofs.Spans
import Mathlib.Logic.Relation

/-! # Callees of `new`

The expression behind `new` leaves calls alone, so that the argument list behind it belongs to
`new`. One call gets in: the word `async` is read together with an argument list as a primary
expression, and this may begin a callee as it may begin anything else. Along the expressions that
accesses and tagged templates begin with, no other call is reached. -/
namespace EcmaSyntax

namespace Form
variable {α : Type}

/-- The expression that an access or a tagged template begins with. -/
def base? : Form α → Option α
  | .propertyAccess base .. | .elementAccess base .. | .nonNull base
  | .taggedTemplate base .. => some base
  | _ => none

/-- The expression behind `new`. -/
def callee? : Form α → Option α
  | .new callee .. => some callee
  | _ => none

end Form

namespace Node

/-- A node is reached from another one by going to what accesses and tagged templates begin with. -/
def BeginsWith : Node → Node → Prop := Relation.ReflTransGen fun n base => n.form.base? = some base

/-- What is called is the word `async`, in the plainest way. -/
def CallsOnlyAsync (n : Node) : Prop :=
  ∀ callee optional typeArguments arguments,
    n.form = .call callee optional typeArguments arguments →
      callee.isWord .asyncKeyword = true ∧ optional = false ∧ typeArguments = none

/-- No calls are reached from a node but such of `async`. -/
def LeavesCalls (n : Node) : Prop := ∀ base, n.BeginsWith base → base.CallsOnlyAsync

namespace LeavesCalls
variable {n base : Node}

theorem of_base? (hn : n.CallsOnlyAsync) (hbase : ∀ b ∈ n.form.base?, b.LeavesCalls) :
    n.LeavesCalls := by
  intro base h
  rcases h.cases_head with rfl | ⟨b, hb, h⟩
  · exact hn
  · exact hbase b hb base h

theorem of_plain (hcall : n.CallsOnlyAsync) (hbase : n.form.base? = none) : n.LeavesCalls :=
  of_base? hcall (hbase ▸ nofun)

theorem of_access (hb : n.form.base? = some base) (h : base.LeavesCalls) : n.LeavesCalls := by
  refine of_base? (fun _ _ _ _ heq => ?_) fun b hb' => ?_
  · rw [heq] at hb
    cases hb
  · cases hb.symm.trans hb'
    exact h

end LeavesCalls
end Node

/-! ## Phrases -/

namespace Phrase

/-- The phrases of callees, and of what they begin with. -/
def isHead : Phrase → Bool
  | .suffixed false | .primary | .identifier | .privateName | .word | .literal | .keyword
  | .pattern | .function .expression | .classLike .expression | .arrowParameters | .arrowFunction
  | .newExpression | .element | .template => true
  | _ => false

theorem isHead_of_choice {ph ph' : Phrase} (h : ph ∈ ph'.choices) (hhead : ph'.isHead = true) :
    ph.isHead = true := by
  revert ph
  cases ph'
  case suffixed calls => cases calls <;> simp_all [choices, isHead]
  case function placement | classLike placement => cases placement <;> simp_all [choices, isHead]
  all_goals simp_all [choices, isHead]

theorem isHead_body (ph : Phrase) : ph.body.isHead = ph.isHead := by
  cases ph <;> rfl

end Phrase

section Trees
variable {faulty : Prop} {ph ph' : Phrase} {ctx ctx' : Context} {form : Form Node} {n : Node}

theorem Leaf.leavesCalls {header : Header} {r : Reading} (hl : Leaf faulty r ph ctx form) :
    (Node.mk header form).LeavesCalls := by
  have hname : (Node.mk header (Grammar.nameForm r)).LeavesCalls := by
    unfold Grammar.nameForm
    split <;> exact .of_plain nofun rfl
  cases hl <;> first | exact hname | exact .of_plain nofun rfl

theorem Node.LeavesCalls.of_arrowParameters (h : n.isArrowParameters = true) : n.LeavesCalls := by
  obtain ⟨_, form⟩ := n
  cases form <;> first | (cases h; done) | exact .of_plain nofun rfl

/-- A node that begins with another expression does so with its first part. -/
theorem Production.leavesCalls {header : Header} {ps : List Part}
    (hp : Production faulty ph ctx form ps) (hhead : ph.isHead = true)
    (hparts : ∀ p ∈ ps, p.phrase.isHead = true → p.node.LeavesCalls) :
    (Node.mk header form).LeavesCalls := by
  cases hp
  case asyncCall hasync _ =>
    exact .of_plain (fun _ _ _ _ heq => by cases heq; exact ⟨hasync, rfl, rfl⟩) rfl
  case propertyAccess calls e _ _ _ | elementAccess calls e _ _ _ | nonNull calls e _
    | taggedTemplate calls e _ _ _ =>
    exact .of_access rfl (hparts ⟨.suffixed calls, ctx, e⟩ (by simp) hhead)
  all_goals first | (cases hhead; done) | exact .of_plain nofun rfl

theorem Parsed.leavesCalls {p : Part} (h : Parsed faulty p) (hhead : p.phrase.isHead = true) :
    p.node.LeavesCalls := by
  induction h with
  | node hp _ ih => exact hp.leavesCalls hhead ih
  | leaf _ hl => exact hl.leavesCalls
  | missing _ ha => cases ha <;> exact .of_plain nofun rfl
  | serve _ hs ih =>
    cases hs with
    | choice hs => exact ih (Phrase.isHead_of_choice hs hhead)
    | enclosed | asyncArrow => exact ih rfl
    | arrow hn | coveredArrow hn => exact .of_arrowParameters hn
    | _ => cases hhead
  | simple | parenthesized => exact .of_plain nofun rfl
  | deeper _ ih => exact ih ((Phrase.isHead_body _).trans hhead)

/-- The callee of a node, if it has one, leaves calls alone. -/
def Node.CalleeLeavesCalls (n : Node) : Prop := ∀ callee ∈ n.form.callee?, callee.LeavesCalls

theorem Parsed.calleeLeavesCalls {p : Part} (h : Parsed faulty p) :
    ∀ n : Node, n.Within p.node → n.CalleeLeavesCalls := by
  have hplain {n : Node} (hn : n.form.callee? = none) : n.CalleeLeavesCalls := by
    rw [Node.CalleeLeavesCalls, hn]
    exact nofun
  refine h.forall_within (fun hp hparts => ?_) (fun {_ r _ _ _} hl => ?_)
    (fun ha => ?_) (fun _ => hplain rfl) (fun _ _ => hplain rfl) fun _ _ => hplain rfl
  · cases hp
    case new ctx callee _ _ =>
      rintro _ ⟨⟩
      exact (hparts ⟨.suffixed false, ctx, callee⟩ (by simp)).leavesCalls rfl
    all_goals exact hplain rfl
  · have hname : (Grammar.nameForm r).callee? = none := by
      unfold Grammar.nameForm
      split <;> rfl
    cases hl <;> first | exact hplain hname | exact hplain rfl
  · cases ha <;> exact hplain rfl

end Trees

/-! ## Sources -/

/-- In every tree, what is called within the callee of a `new` expression, outside of parentheses
and arguments, is the word `async`. -/
theorem parse_callees (source : String) (options : ParseOptions) {n callee base : Node}
    (hn : n.Within (parse source options).root) (hcallee : n.form.callee? = some callee)
    (hbase : callee.BeginsWith base) : base.CallsOnlyAsync := by
  rcases parse_within hn with ⟨header, statements, rfl⟩ | ⟨p, hp, hin⟩
  · cases hcallee
  · exact hp.calleeLeavesCalls n hin callee hcallee base hbase

/-- A property of what a call of `async` gives, behind `new`. -/
theorem async_member_callee : ∃ n callee base : Node,
    n.Within (parse "new async(x).y(z);" {}).root ∧ n.form.callee? = some callee ∧
      callee.BeginsWith base ∧ base.kind = .callExpression ∧ base.CallsOnlyAsync := by
  have hpath : ((parse "new async(x).y(z);" {}).root.at?
      [("statements", 0), ("expression", 0)]).any (fun n => n.form.callee?.any fun callee =>
        callee.form.base?.any (·.kind == .callExpression)) = true := by
    decide +kernel
  obtain ⟨n, hwithin, hn⟩ := Node.within_of_any hpath
  obtain ⟨callee, hcallee, hn⟩ := (Option.any_eq_true _ _).mp hn
  obtain ⟨base, hbase, hkind⟩ := (Option.any_eq_true _ _).mp hn
  have hbegins : callee.BeginsWith base := .single hbase
  exact ⟨n, callee, base, hwithin, hcallee, hbegins, eq_of_beq hkind,
    parse_callees _ _ hwithin hcallee hbegins⟩

/-- The only argument list behind `new` goes to a call, which is all that the `new` expression has. -/
theorem callee_calls_async : (parse "new async(x);" {}).diagnostics = ∅ ∧
    ∃ n callee : Node, n.Within (parse "new async(x);" {}).root ∧
      n.form.callee? = some callee ∧ callee.kind = .callExpression ∧
        n.form.children.length = 1 := by
  have hpath : ((parse "new async(x);" {}).root.at?
      [("statements", 0), ("expression", 0)]).any (fun n => n.form.children.length == 1 &&
        n.form.callee?.any fun callee => callee.kind == .callExpression) = true := by
    decide +kernel
  obtain ⟨n, hwithin, hn⟩ := Node.within_of_any hpath
  rw [Bool.and_eq_true] at hn
  obtain ⟨callee, hcallee, hkind⟩ := (Option.any_eq_true _ _).mp hn.2
  exact ⟨by decide +kernel, n, callee, hwithin, hcallee, eq_of_beq hkind, eq_of_beq hn.1⟩

end EcmaSyntax
