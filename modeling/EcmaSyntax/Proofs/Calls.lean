import EcmaSyntax.Proofs.Arguments
import EcmaSyntax.Proofs.Coupling.Shift
import EcmaSyntax.Proofs.Flat.Reading
import EcmaSyntax.Proofs.LineBreaks

/-! # Calls of async

A call of a name and the same call of the word `async` are read by different grammars. Where the
first is read without a diagnostic, and its arguments are elements too, the second has the same
arguments, moved behind the longer word. -/
namespace EcmaSyntax
open Parse Grammar ParseState

/-! ## A statement that is a call -/

/-- The callee and the arguments of a call. -/
def Node.call? (n : Node) : Option (Node × Node) :=
  match n.form with
  | .call callee _ _ arguments => some (callee, arguments)
  | _ => none

/-- Whether a node is the call of a name. -/
def Node.callsName (n : Node) : Bool := n.call?.any (·.1.isIdentifier)

section Peeling
variable {ctx : Context} {m : Mark} {n left : Node} {s t : ParseState}

/-- A loop that answers a call has made no turn, if what its turns make is no call of a name. -/
theorem loop_peel {step : Node → Parse (Turn Node)} {I : Node → Prop} (hn : n.callsName = true)
    (hI : I left) (hstep : ∀ left t, I left → (step left).Gives t
      (TurnGives (fun n _ => I n ∧ n.callsName = false) fun n _ => n = left))
    (hrun : (loop step left).run s = some (n, t)) : n = left := by
  have hgives : (loop step left).Gives s fun n _ => n = left ∨ n.callsName = false := by
    refine .loop (I := fun n _ => I n ∧ (n = left ∨ n.callsName = false)) ⟨hI, .inl rfl⟩
      fun a u _ ha => ?_
    refine (hstep a u ha.1).mono fun turn _ _ hturn => ?_
    cases turn with
    | done b => exact hturn.symm ▸ ha.2
    | again b => exact ⟨hturn.1, .inr hturn.2⟩
  exact (hgives hrun).resolve_right fun h => Bool.noConfusion (hn.symm.trans h)

/-- What a turn answers that makes no call of a name. -/
abbrev TurnStays (I : Node → Prop) (left : Node) : Turn Node → ParseState → Prop :=
  TurnGives (fun n _ => I n ∧ n.callsName = false) fun n _ => n = left

/-- The last lines of a turn that makes a node. -/
theorem again_stays {I : Node → Prop} {form : Form Node}
    (h : ∀ header, I (.mk header form) ∧ (Node.mk header form).callsName = false) :
    (do return .again (← node m form) : Parse (Turn Node)).Gives s (TurnStays I left) :=
  .bind (.observe (h _)) fun _ _ _ hn => .pure hn

variable [Recursion]

theorem expressionTurn_stays :
    (expressionTurn ctx m left).Gives s (TurnStays (fun _ => True) left) :=
  .behind fun _ _ _ => .ite (fun _ => .behind fun _ _ _ => again_stays fun _ => ⟨trivial, rfl⟩)
    fun _ => .pure rfl

theorem operation_stays {p : Precedence} :
    (operation ctx p m left).Gives s (TurnStays (fun _ => True) left) := by
  refine .behind fun _ t _ => .look (.ite (fun _ => ?_) fun _ => .pure rfl)
  refine .ite (fun _ => .pure rfl) fun _ => ?_
  split
  · refine .behind fun _ _ _ => .ite (fun _ => .pure rfl) fun _ => ?_
    exact .behind fun _ _ _ => .behind fun _ _ _ => again_stays fun _ => ⟨trivial, rfl⟩
  · exact .behind fun _ _ _ => .behind fun _ _ _ => again_stays fun _ => ⟨trivial, rfl⟩

/-- Behind a call, what follows is no call of a name. -/
theorem suffix_stays {calls : Bool} (h : left.isIdentifier = false) :
    (suffix ctx m calls left).Gives s (TurnStays (·.isIdentifier = false) left) := by
  have hnode {form : Form Node} {m : Mark} {t : ParseState}
      (hform : ∀ header, (Node.mk header form).isIdentifier = false ∧
        (Node.mk header form).callsName = false) :
      (node m form).Gives t fun n _ => n.isIdentifier = false ∧ n.callsName = false :=
    .observe (hform _)
  have hchain {t : ParseState} : (chainLink ctx m left).Gives t
      fun n _ => n.isIdentifier = false ∧ n.callsName = false := by
    refine .look ?_
    split
    · exact .behind fun _ _ _ => .behind fun _ _ _ => hnode fun _ => ⟨rfl, h⟩
    · exact .behind fun _ _ _ => .behind fun _ _ _ => hnode fun _ => ⟨rfl, h⟩
    · exact .behind fun _ _ _ => hnode fun _ => ⟨rfl, rfl⟩
    · exact .behind fun _ _ _ => hnode fun _ => ⟨rfl, rfl⟩
  have hgeneric {t : ParseState} {l : List Node} : (genericCall ctx m left l).Gives t
      fun n _ => n.isIdentifier = false ∧ n.callsName = false :=
    .behind fun _ _ _ => .ite (fun _ => .behind fun _ _ _ => hnode fun _ => ⟨rfl, h⟩)
      fun _ => .behind fun _ _ _ => hnode fun _ => ⟨rfl, rfl⟩
  refine .look ?_
  split
  · exact .behind fun _ _ _ => .behind fun _ _ _ => again_stays fun _ => ⟨rfl, rfl⟩
  · refine .ite (fun _ => ?_) fun _ => .pure rfl
    exact .behind fun _ _ _ => .bind hchain fun _ _ _ hn => .pure hn
  · refine .ite (fun _ => .pure rfl) fun _ => ?_
    exact .behind fun _ _ _ => again_stays fun _ => ⟨rfl, rfl⟩
  · refine .behind fun _ _ _ => .ite (fun _ => .pure rfl) fun _ => ?_
    exact .behind fun _ _ _ => again_stays fun _ => ⟨rfl, rfl⟩
  · exact .behind fun _ _ _ => again_stays fun _ => ⟨rfl, rfl⟩
  · exact .behind fun _ _ _ => again_stays fun _ => ⟨rfl, rfl⟩
  · refine .ite (fun _ => ?_) fun _ => .pure rfl
    exact .behind fun _ _ _ => again_stays fun _ => ⟨rfl, h⟩
  · refine .ite (fun _ => .behind fun answer _ _ => ?_) fun _ => .pure rfl
    cases answer with
    | none => exact .pure rfl
    | some l => exact .bind hgeneric fun _ _ _ hn => .pure hn
  · exact .pure rfl

/-- What is read behind the leftmost operand of a call that is an assignment. -/
theorem assignmentRest_peel (hn : n.callsName = true)
    (hrun : (assignmentRest ctx m left).run s = some (n, t)) : n = left := by
  have hother : (assignmentRest ctx m left).Gives s fun n _ => n.callsName = false ∨ n = left := by
    have harrow {parameters : Node} : (arrowFunction ctx m false parameters).Gives s
        fun n _ => n.callsName = false ∨ n = left := by
      refine arrowFunction_isArrowFunction.mono fun n _ _ hn => .inl ?_
      obtain ⟨header, form⟩ := n
      cases form <;> first | rfl | cases hn
    refine .look (.ite (fun _ => harrow) fun _ => .ite (fun _ => harrow) fun _ => ?_)
    refine .ite (fun _ => .behind fun _ _ _ => .behind fun _ _ _ => .observe (.inl rfl)) fun _ => ?_
    refine .ite (fun _ => ?_) fun _ => .pure (.inr rfl)
    exact .behind fun _ _ _ => .behind fun _ _ _ => .behind fun _ _ _ => .observe (.inl rfl)
  exact (hother hrun).resolve_left fun h => Bool.noConfusion (hn.symm.trans h)

/-- The leftmost operand of a call that is an assignment. -/
theorem assignment_peel (hs : s.AtOperand) (hn : n.callsName = true)
    (hrun : (assignment ctx).run s = some (n, t)) :
    ∃ u, (operand ctx .comma).run s = some (n, u) ∧ Moves u t := by
  have hgeneric : (genericArrow? ctx).run s = some (none, s) := genericArrow?_run hs.not_lessThan
  obtain ⟨_, _, hyield, hrun⟩ := run_bind.mp hrun
  cases (isAt_run_ne hs.not_yield).symm.trans hyield
  obtain ⟨_, _, hmark, hrun⟩ := run_bind.mp hrun
  cases hmark
  obtain ⟨_, _, hnone, hrun⟩ := run_bind.mp hrun
  cases hgeneric.symm.trans hnone
  obtain ⟨_, _, hasync, hrun⟩ := run_bind.mp hrun
  cases hs.startsAsyncArrow_run.symm.trans hasync
  obtain ⟨left, u, hoperand, hrest⟩ := run_bind.mp hrun
  obtain rfl := assignmentRest_peel hn hrest
  exact ⟨u, hoperand, Parse.moves _ hrest⟩

theorem operand_peel {p : Precedence} (hn : n.callsName = true)
    (hrun : (operand ctx p).run s = some (n, t)) :
    ∃ u, (recur (.unary ctx)).run s = some (n, u) ∧ Moves u t := by
  obtain ⟨_, _, hmark, hrun⟩ := run_bind.mp hrun
  cases hmark
  obtain ⟨left, u, hunary, hloop⟩ := run_bind.mp hrun
  obtain rfl := loop_peel hn trivial (fun _ _ _ => operation_stays) hloop
  exact ⟨u, hunary, Parse.moves _ hloop⟩

theorem expression_peel (hn : n.callsName = true)
    (hrun : (expression ctx).run s = some (n, t)) :
    ∃ u, (recur (.assignment ctx)).run s = some (n, u) ∧ Moves u t := by
  obtain ⟨_, _, hmark, hrun⟩ := run_bind.mp hrun
  cases hmark
  obtain ⟨left, u, hassignment, hloop⟩ := run_bind.mp hrun
  obtain rfl := loop_peel hn trivial (fun _ _ _ => expressionTurn_stays) hloop
  exact ⟨u, hassignment, Parse.moves _ hloop⟩

theorem unary_peel (hs : s.token = .identifier) (hn : n.callsName = true)
    (hrun : (unary ctx).run s = some (n, t)) :
    ∃ u, (leftHandSide ctx).run s = some (n, u) ∧ Moves u t := by
  obtain ⟨_, _, hmark, hrun⟩ := run_bind.mp hrun
  cases hmark
  obtain ⟨_, _, hk, hrun⟩ := run_bind.mp hrun
  cases hk
  rw [if_neg (by simp [hs, isPrefixOperator]), if_neg (by simp [hs])] at hrun
  obtain ⟨left, u, hleft, hrun⟩ := run_bind.mp hrun
  obtain ⟨_, _, hk, hpostfix⟩ := run_bind.mp hrun
  cases hk
  have hgives : (do
      if (u.token == .plusPlusToken || u.token == .minusMinusToken) && !(← afterLineBreak) then
        advance
        return ← node s.mark (.postfixUnary left u.token)
      return left : Parse Node).Gives u fun n _ => n.callsName = false ∨ n = left :=
    .look <| .ite (fun _ => .behind fun _ _ _ => .observe (.inl rfl)) fun _ => .pure (.inr rfl)
  obtain rfl := (hgives hpostfix).resolve_left fun h => Bool.noConfusion (hn.symm.trans h)
  exact ⟨u, hleft, Parse.moves _ hrun⟩

/-- A parenthesis behind a callee begins a call. -/
theorem suffix_call {turn : Turn Node} (hopen : s.token = .openParenToken)
    (hrun : (suffix ctx m true left).run s = some (turn, t)) :
    ∃ arguments, (argumentList ctx).run s = some (arguments, t) ∧
      turn = .again (.mk (t.header m) (.call left false none arguments)) := by
  obtain ⟨_, _, hk, hrun⟩ := run_bind.mp hrun
  cases hk
  dsimp only at hrun
  rw [hopen] at hrun
  obtain ⟨arguments, u, harguments, hrun⟩ := run_bind.mp hrun
  cases hrun
  exact ⟨arguments, harguments, rfl⟩

/-- The call of a name that the leftmost operand begins with. -/
theorem leftHandSide_peel [s.Ready] (hs : s.token = .identifier)
    (hopen : (s.consume .plain).token = .openParenToken) (hn : n.callsName = true)
    (hrun : (leftHandSide ctx).run s = some (n, t)) :
    ∃ callee arguments u, (argumentList ctx).run (s.consume .plain) = some (arguments, u) ∧
      n = .mk (u.header s.mark) (.call callee false none arguments) ∧ Moves u t := by
  obtain ⟨_, _, hmark, hrun⟩ := run_bind.mp hrun
  cases hmark
  obtain ⟨base, _, hbase, hloop⟩ := run_bind.mp hrun
  have hbase' : (memberBase ctx).run s =
      some (.mk ((s.consume .plain).header s.mark) (nameForm s.reading), s.consume .plain) := by
    refine run_bind.mpr ⟨false, s, isAt_run_ne (by simp [hs]), run_bind.mpr ⟨s.token, s, rfl, ?_⟩⟩
    rw [hs]
    exact run_bind.mpr ⟨true, s, congrArg (fun k => some (admits ctx k, s)) hs, rfl⟩
  cases hbase'.symm.trans hbase
  have hform : nameForm s.reading = .identifier false s.reading.text none := by
    rw [nameForm, show s.reading.token = .identifier from hs]
  rw [hform] at hloop
  have hready := (Parse.moves _ hbase).ready inferInstance
  cases looped_of_loop hloop with
  | done hstep =>
    obtain ⟨_, -, hturn⟩ := suffix_call hopen hstep
    cases hturn
  | again hstep _ hrest =>
    obtain ⟨arguments, harguments, hturn⟩ := suffix_call hopen hstep
    cases hturn
    have hready := (Parse.moves _ hstep).ready inferInstance
    obtain rfl := loop_peel (I := (·.isIdentifier = false)) hn rfl
      (fun _ _ => suffix_stays) (loop_of_looped hrest)
    exact ⟨_, arguments, _, harguments, rfl, hrest.moves⟩

/-- The expression of a statement. -/
theorem expressionStatement_peel {header : Header}
    (hrun : (expressionStatement ctx).run s = some (.mk header (.expressionStatement n), t)) :
    ∃ u, (expression ctx).run s = some (n, u) ∧ Moves u t := by
  obtain ⟨_, _, hmark, hrun⟩ := run_bind.mp hrun
  cases hmark
  obtain ⟨_, _, hname, hrun⟩ := run_bind.mp hrun
  cases hname
  obtain ⟨inner, u, hinner, hrest⟩ := run_bind.mp hrun
  have hmoves := Parse.moves _ hrest
  obtain ⟨_, _, hk, hrest⟩ := run_bind.mp hrest
  cases hk
  split at hrest
  · obtain ⟨_, _, -, hrest⟩ := run_bind.mp hrest
    obtain ⟨_, _, -, hrest⟩ := run_bind.mp hrest
    cases hrest
  · obtain ⟨_, _, -, hrest⟩ := run_bind.mp hrest
    obtain ⟨_, _, -, hrest⟩ := run_bind.mp hrest
    obtain ⟨_, _, -, hrest⟩ := run_bind.mp hrest
    cases hrest
    exact ⟨u, hinner, hmoves⟩

end Peeling

/-- Where the arguments of a call begin that is a statement, behind the callee. -/
def ParseState.behindCallee (s : ParseState) : ParseState :=
  s.deeper.deeper.deeper.deeper.consume .plain

section Statement
variable {ctx : Context} {n : Node} {s t : ParseState}

instance [s.Ready] : s.behindCallee.Ready :=
  inferInstanceAs (s.deeper.deeper.deeper.deeper.consume .plain).Ready

/-- What is read without a diagnostic is read one level deeper. -/
theorem top_clean {α : Type} {rule : Rule α} {a : α} [s.Ready] (hnested : rule.isNested = true)
    (hclean : t.sink = ∅) (hrun : (top.recur rule).run s = some (a, t)) :
    ∃ u, (@readRule (below (rule.weight s) top.recur) α rule).run s.deeper = some (a, u) ∧
      u.sink = ∅ := by
  rw [top_run] at hrun
  change (if rule.isNested then nested rule.absent _ else _ : Parse α).run s = _ at hrun
  rw [if_pos hnested] at hrun
  obtain ⟨-, u, hread, rfl⟩ := nested_clean hclean hrun
  exact ⟨u, hread, hclean⟩

/-- The call of a name that is an item. -/
theorem item_peel {inModule : Bool} {header : Header} [s.Ready]
    (hs : s.token = .identifier) (hopen : s.behindCallee.token = .openParenToken)
    (hn : n.callsName = true) (hclean : t.sink = ∅)
    (hrun : (top.recur (.item inModule ctx)).run s =
      some (.mk header (.expressionStatement n), t)) :
    ∃ callee arguments u, (@argumentList top ctx).run s.behindCallee = some (arguments, u) ∧
      n.form = .call callee false none arguments ∧ u.sink = ∅ := by
  have hname : s.OnName := .inl hs
  obtain ⟨u, hitem, hu⟩ := top_clean rfl hclean hrun
  have hplain : (@plainStatement (below _ top.recur) ctx).run s.deeper = _ :=
    (@item_run _ _ (below _ top.recur) _ (.inr hname.deeper)).symm.trans hitem
  obtain ⟨v, hstatement, hv⟩ := top_clean rfl hu (below_agrees_top _ _ hplain)
  have hexpression :=
    (@statement_run _ _ (below _ top.recur) _ hname.deeper.deeper).symm.trans hstatement
  obtain ⟨w, hexpression, hm⟩ := @expressionStatement_peel _ _ _ _ (below _ top.recur) _ hexpression
  obtain ⟨x, hassignment, hm'⟩ := @expression_peel _ _ _ _ (below _ top.recur) hn hexpression
  obtain ⟨y, hassignment, hy⟩ := top_clean rfl ((hm'.trans hm).sink_eq_empty hv)
    (below_agrees_top _ _ hassignment)
  obtain ⟨z, hoperand, hm⟩ := @assignment_peel _ _ _ _ (below _ top.recur)
    (.inr hname.deeper.deeper.deeper) hn hassignment
  obtain ⟨a, hunary, hm'⟩ := @operand_peel _ _ _ _ (below _ top.recur) _ hn hoperand
  obtain ⟨b, hunary, hb⟩ := top_clean rfl ((hm'.trans hm).sink_eq_empty hy)
    (below_agrees_top _ _ hunary)
  obtain ⟨c, hleft, hm⟩ := @unary_peel _ _ s.deeper.deeper.deeper.deeper _
    (below _ top.recur) hs hn hunary
  obtain ⟨callee, arguments, d, harguments, rfl, hm'⟩ :=
    @leftHandSide_peel _ _ s.deeper.deeper.deeper.deeper _ (below _ top.recur) _ hs hopen hn hleft
  exact ⟨callee, arguments, d, argumentList_agrees (below_agrees_top _) harguments, rfl,
    (hm'.trans hm).sink_eq_empty hb⟩

/-- A list of statements grows with every turn. -/
theorem bodyTurns_grow {step : Body → Parse (Turn Body)} {b body : Body}
    (hstep : ∀ b t, (step b).Gives t (TurnGives
      (fun b' _ => b.statements.toList <+: b'.statements.toList) fun b' _ => b' = b))
    (hrun : (loop step b).run s = some (body, t)) :
    b.statements.toList <+: body.statements.toList := by
  have hgives : (loop step b).Gives s fun b' _ => b.statements.toList <+: b'.statements.toList := by
    refine .loop (I := fun b' _ => b.statements.toList <+: b'.statements.toList) List.prefix_rfl
      fun b' u _ hb => (hstep b' u).mono fun turn _ _ hturn => ?_
    cases turn with
    | done c => exact hturn.symm ▸ hb
    | again c => exact hb.trans hturn
  exact hgives hrun

theorem bodyTurn_grows [Recursion] {inModule : Bool} {isEnd : Kind → Bool} (b : Body) :
    (bodyTurn inModule isEnd b).Gives s (TurnGives
      (fun b' _ => b.statements.toList <+: b'.statements.toList) fun b' _ => b' = b) := by
  have hpush (n : Node) : b.statements.toList <+: (b.push n).statements.toList := by
    rw [Body.statements_push, Array.toList_push]
    exact List.prefix_append _ _
  refine .look (.ite (fun _ => .pure rfl) fun _ => ?_)
  refine .ite (fun _ => .look ?_) fun _ => .behind fun _ _ _ => ?_
  · exact .behind fun n _ _ => .behind fun _ _ _ => .behind fun _ _ _ => .pure (hpush n)
  · exact .behind fun _ _ _ => .pure List.prefix_rfl

/-- A turn through statements where one may begin. -/
theorem bodyTurn_item [Recursion] {inModule : Bool} {b : Body} {turn : Turn Body}
    (hstart : s.token.canStartStatement = true)
    (hrun : (bodyTurn inModule (fun _ => false) b).run s = some (turn, t)) :
    ∃ n u, (recur (.item inModule b.ctx)).run s = some (n, u) ∧ Moves u t ∧
      turn = .again (b.push n) := by
  have hne : s.token ≠ .endOfFileToken := fun h => by cases h ▸ hstart
  obtain ⟨_, _, hk, hrun⟩ := run_bind.mp hrun
  cases hk
  rw [if_neg (by simp [hne]), if_pos hstart] at hrun
  obtain ⟨_, _, hoffset, hrun⟩ := run_bind.mp hrun
  cases hoffset
  obtain ⟨n, u, hitem, hrun⟩ := run_bind.mp hrun
  have hmoves := Parse.moves _ hrun
  obtain ⟨_, _, -, hrun⟩ := run_bind.mp hrun
  obtain ⟨_, _, -, hrun⟩ := run_bind.mp hrun
  cases hrun
  exact ⟨n, u, hitem, hmoves, rfl⟩

/-- The only statement of a list. -/
theorem statementList_peel {inModule directives : Bool} [s.Ready]
    (hstart : s.token.canStartStatement = true)
    (hrun : (@statementList top ctx inModule directives fun _ => false).run s = some ([n], t)) :
    ∃ u, (top.recur (.item inModule ctx)).run s = some (n, u) ∧ Moves u t := by
  obtain ⟨body, _, hloop, hrun⟩ := run_bind.mp hrun
  obtain ⟨hbody, rfl⟩ := Prod.mk.inj (Option.some.inj hrun)
  have hbody : body.statements.toList = [n] := hbody
  cases looped_of_loop hloop with
  | done hstep =>
    obtain ⟨_, _, -, -, hturn⟩ := @bodyTurn_item _ _ top _ _ _ hstart hstep
    cases hturn
  | again hstep _ hrest =>
    obtain ⟨m, u, hitem, hmoves, hturn⟩ := @bodyTurn_item _ _ top _ _ _ hstart hstep
    cases hturn
    have hready := (Parse.moves _ hstep).ready inferInstance
    have hgrown := bodyTurns_grow (fun b _ => @bodyTurn_grows _ top _ _ b) (loop_of_looped hrest)
    rw [hbody, Body.statements_push] at hgrown
    obtain rfl : m = n := by simpa using hgrown
    exact ⟨u, hitem, hmoves.trans hrest.moves⟩

end Statement

/-! ## The word as a callee -/

/-- A call of the word `async` with some arguments. -/
def Node.CallsAsync (n : Node) (text : String) (arguments : Node) : Prop :=
  ∃ callee : Node, n.form = .call callee false none arguments ∧
    callee.form = .identifier false text (some .asyncKeyword)

section Async
variable {ctx : Context} {arguments : Node} {s t : ParseState}

theorem Node.CallsAsync.no_directive {n arguments : Node} {text : String}
    (h : n.CallsAsync text arguments) (header : Header) :
    (Node.mk header (.expressionStatement n)).directiveText? = none := by
  obtain ⟨_, hform, -⟩ := h
  obtain ⟨_, form⟩ := n
  cases hform
  rfl

/-- A call of `async` whose arguments are read as those of a plain call. -/
theorem asyncExpression_call {R : Recursion} [s.Ready] (hasync : s.token = .asyncKeyword)
    (hflush : s.flush = s) (hopen : (s.consume .plain).token = .openParenToken)
    (hline : (s.consume .plain).OnLine)
    (hlist : (@coverList R ctx (s.consume .plain).mark none).run (s.consume .plain) =
      some (arguments, t))
    (hplain : arguments.isArrowParameters = false)
    (helements : (argumentElements arguments).any (·.isParameter) = false) :
    ∃ n : Node, n.CallsAsync s.reading.text arguments ∧
      (@asyncExpression R ctx).run s = some (n, t) := by
  have hform : nameForm s.reading = .identifier false s.reading.text (some .asyncKeyword) := by
    rw [nameForm, show s.reading.token = .asyncKeyword from hasync]
  have hnext : (nextIs (onSameLine (· == .openParenToken))).run s = some (true, s) := by
    refine nextIs_run (t := s.consume .plain) hflush ?_
    have hsame : (!(s.consume .plain).reading.hasPrecedingLineBreak &&
        (s.consume .plain).token == .openParenToken) = true := by
      rw [hopen, show (s.consume .plain).reading.hasPrecedingLineBreak = false from hline]
      rfl
    exact congrArg (fun b => some (b, s.consume .plain)) hsame
  have hcheck : (checkCall arguments).run t = some ((), t) := by
    unfold checkCall
    rw [helements]
    rfl
  let callee : Node := .mk ((s.consume .plain).header s.mark) (nameForm s.reading)
  refine ⟨.mk (t.header s.mark) (.call callee false none arguments), ⟨callee, rfl, hform⟩, ?_⟩
  refine run_bind.mpr ⟨false, s, isBeforeFunction_run hflush (by simp [hopen]), ?_⟩
  refine run_bind.mpr ⟨true, s, hnext, run_bind.mpr ⟨s.mark, s, rfl, ?_⟩⟩
  refine run_bind.mpr ⟨_, s.consume .plain, rfl, ?_⟩
  refine run_bind.mpr ⟨_, s.consume .plain, rfl, run_bind.mpr ⟨arguments, t, hlist, ?_⟩⟩
  rw [if_neg (by simp [hplain])]
  exact run_bind.mpr ⟨(), t, hcheck, rfl⟩

/-- An operand that is a call of `async`. -/
theorem unary_async [R : Recursion] [t.Ready] {n : Node} (hasync : s.token = .asyncKeyword)
    (hsemicolon : t.token = .semicolonToken)
    (hrun : (asyncExpression ctx).run s = some (n, t)) :
    (unary ctx).run s = some (n, t) := by
  have hbase : (memberBase ctx).run s = some (n, t) := by
    refine run_bind.mpr ⟨false, s, isAt_run_ne (by simp [hasync]), ?_⟩
    refine run_bind.mpr ⟨s.token, s, rfl, ?_⟩
    rw [hasync]
    exact hrun
  have hsuffix (m : Mark) : (suffix ctx m true n).run t = some (.done n, t) :=
    suffix_stops (by rw [hsemicolon]; rfl)
  refine run_bind.mpr ⟨_, s, rfl, run_bind.mpr ⟨s.token, s, rfl, ?_⟩⟩
  rw [hasync]
  refine run_bind.mpr ⟨n, t, ?_, run_bind.mpr ⟨t.token, t, rfl, ?_⟩⟩
  · exact run_bind.mpr ⟨_, s, rfl, run_bind.mpr ⟨n, t, hbase, suffixes_done (hsuffix _)⟩⟩
  · rw [hsemicolon]
    rfl

/-- A call of `async` that is an item. -/
theorem item_async (inModule : Bool) [hs : s.Ready] (hasync : s.token = .asyncKeyword)
    (hflush : s.flush = s) (hopen : s.behindCallee.token = .openParenToken)
    (hline : s.behindCallee.OnLine)
    (hdepth : s.depth + 3 < nestingLimit)
    (hctx : ∀ m ∈ [Mode.withoutIn, .conditionalBranch, .decorator], ctx.has m = false)
    (hcover : ∀ p, ArgumentAt ctx s.behindCallee p → p.token ≠ .closeParenToken →
      ArgumentCoverable ctx p)
    (hrun : (@argumentList top ctx).run s.behindCallee = some (arguments, t))
    (hsemicolon : t.token = .semicolonToken) (hclean : t.sink = ∅) :
    ∃ header, ∃ n : Node, n.CallsAsync s.reading.text arguments ∧
      (top.recur (.item inModule ctx)).run s = some (.mk header (.expressionStatement n),
        (t.shallower.shallower.consume .plain).shallower.shallower) := by
  have hready : t.Ready := (Parse.moves _ hrun).ready inferInstance
  have hlt : s.behindCallee.left < s.left :=
    consume_left_lt (s := s.deeper.deeper.deeper.deeper) .plain fun h => by
      cases hasync.symm.trans h
  let R := below (s.left * 8 + 2) top.recur
  have hR (p : ParseState) (hp : p.left < s.behindCallee.left) :
      (R.recur (.coverElement ctx)).run p = (top.recur (.coverElement ctx)).run p := by
    refine below_run ?_
    change p.left * 8 + 5 < _
    omega
  obtain ⟨hlist, hplain, helements⟩ := coverList_of_arguments hR (hctx _ List.mem_cons_self)
    (Context.excluding_eq_self hctx) hcover hopen hrun hclean (by simp [hsemicolon])
    (by simp [hsemicolon])
  obtain ⟨n, hn, hcall⟩ := asyncExpression_call (s := s.deeper.deeper.deeper.deeper)
    hasync (congrArg (fun s => s.deeper.deeper.deeper.deeper) hflush) hopen hline hlist hplain
    helements
  have hunary := unary_async (s := s.deeper.deeper.deeper.deeper) hasync hsemicolon hcall
  have hrule : (top.recur (.unary ctx)).run s.deeper.deeper.deeper = some (n, t.shallower) := by
    rw [top_run]
    exact nested_run hdepth hunary
  have hoperand : (@operand (below (s.left * 8 + 4) top.recur) ctx .comma).run
      s.deeper.deeper.deeper = some (n, t.shallower) := by
    refine run_bind.mpr ⟨_, _, rfl, run_bind.mpr ⟨n, t.shallower, ?_, ?_⟩⟩
    · exact (below_run (Nat.add_lt_add_left (show 2 < 4 by decide) _)).trans hrule
    · let _ := below (s.left * 8 + 4) top.recur
      refine operators_done (t := t.shallower) (fun h => by cases hsemicolon.symm.trans h) ?_
      rw [show t.shallower.token = .semicolonToken from hsemicolon]
      rfl
  have hname : s.OnName := .inr ⟨hasync, hflush, hopen⟩
  have hplain : n.isArrowParameters = false := by
    obtain ⟨_, hform, -⟩ := hn
    simp [Node.isArrowParameters, hform]
  obtain ⟨header, hitem⟩ := item_of_operand inModule hname (Nat.lt_of_succ_lt hdepth)
    (t := t.shallower) hsemicolon hplain hoperand
  exact ⟨header, n, hn, hitem⟩

end Async

/-! ## Where the arguments lie -/

section Places
variable {ctx : Context} {arguments : Node} {s t : ParseState} {kind : Kind} {text : List Char}

/-- The parenthesis behind a callee. -/
theorem behindCallee_on [hs : s.Ready] (h : s.On kind ('(' :: text)) :
    s.behindCallee.On .openParenToken text ∧ s.behindCallee.OnLine := by
  have hdeeper : s.deeper.deeper.deeper.deeper.On kind ([] ++ (['('] ++ text)) :=
    ⟨h.token, h.behind, h.pending, h.clean⟩
  have hgap (b : Bool) : Trivia.extent (.betweenTokens b) ('(' :: text) = {} := by
    cases b <;> rfl
  refine ⟨(ParseState.On.consume (s := s.deeper.deeper.deeper.deeper) [] ['(']
    hs.token.stop_sound hdeeper hgap rfl).1, ?_⟩
  have hfull : s.behindCallee.full = s.scanner.stop :=
    (Scanner.advance_movedOn (s := s.flush.scanner) .plain hs.token.stop_sound).full_eq
  have hfollows : s.behindCallee.reading.FollowsGap :=
    Seated.consume_followsGap s.deeper.deeper.deeper.deeper
  have hextent : s.behindCallee.full.gap = {} := by
    rw [Cursor.gap, hfull, h.behind, hgap]
  refine hfollows.flag_eq.trans ?_
  rw [show s.behindCallee.reading.full = s.behindCallee.full from rfl, hextent]

/-- What stands behind two callees, if it is the same. -/
theorem behindCallee_moved {s' : ParseState} {kind' : Kind} {n : Nat} [s.Ready] [s'.Ready]
    (h : s.On kind ('(' :: text)) (h' : s'.On kind' ('(' :: text))
    (hstop : s.scanner.stop.Moved n s'.scanner.stop) (hdepth : s'.depth = s.depth)
    (hlimit : s'.limitReported = s.limitReported) : s.behindCallee.Moved n 0 s'.behindCallee where
  ready := inferInstance
  ready' := inferInstance
  scanner := .scan_of_stop (s := s.flush.scanner) hstop (.empty n)
  sink := by
    rw [(behindCallee_on h).1.clean, (behindCallee_on h').1.clean]
    exact .empty n
  depth_eq := congrArg (· + 4) hdepth
  limitReported_eq := hlimit
  floor_le := Nat.zero_le _

theorem behindCallee_placed {source : String} (h : s.reading.Placed source) :
    s.behindCallee.reading.Placed source :=
  (Moves.single (.consume .plain s)).placed h

/-- Arguments end with a parenthesis. -/
theorem argumentList_ends {R : Recursion} [s.Ready] (hclean : t.sink = ∅)
    (hrun : (@argumentList R ctx).run s = some (arguments, t)) :
    ∃ w, Moves s w ∧ w.token = .closeParenToken ∧ t = w.consume .plain ∧
      arguments.range = (t.header s.mark).range := by
  obtain ⟨_, _, hmark, hrun⟩ := run_bind.mp hrun
  cases hmark
  obtain ⟨l, _, hlist, hnode⟩ := run_bind.mp hrun
  cases hnode
  obtain ⟨_, r, hopen, hrun⟩ := run_bind.mp hlist
  obtain ⟨_, u, hloop, hrun⟩ := run_bind.mp hrun
  obtain ⟨_, v, hexpect, hrun⟩ := run_bind.mp hrun
  cases hrun
  obtain ⟨-, hclose, rfl⟩ := (expect_gives hexpect).resolve_left (not_faulty hclean)
  exact ⟨u, (Parse.moves _ hopen).trans (Parse.moves _ hloop), hclose, rfl, rfl⟩

/-- Behind the last parenthesis a semicolon ends the source. -/
theorem arguments_end {R : Recursion} [hs : s.Ready] {source : String} {before : List Char}
    (hsource : source.toList = before ++ [';']) (hplaced : s.reading.Placed source)
    (hclean : t.sink = ∅) (hrun : (@argumentList R ctx).run s = some (arguments, t))
    {first : Nat} (hspan : arguments.range = ⟨first, (String.ofList before).utf8ByteSize⟩)
    (hfirst : first < (String.ofList before).utf8ByteSize) :
    t.On .semicolonToken [] ∧ (t.consume .plain).On .endOfFileToken [] := by
  obtain ⟨w, hmoves, hclose, rfl, hrange⟩ := argumentList_ends hclean hrun
  have hw : w.Ready := hmoves.ready hs
  have hlast : Moves w (w.consume .plain) := .single (.consume .plain w)
  have hflush : w.flush = w := flush_eq_of_consume (by simp [hclose]) (.refl _) hclean
  have hpending : w.scanner.pending = ∅ := congrArg (fun s => s.scanner.pending) hflush.symm
  have hfull : (w.consume .plain).full = w.scanner.stop :=
    (Scanner.advance_movedOn (s := w.flush.scanner) .plain hw.token.stop_sound).full_eq
  have hoffset : w.scanner.stop.offset = (String.ofList before).utf8ByteSize := by
    rw [← hfull]
    obtain ⟨rfl, hstop⟩ := Range.mk.inj (hrange.symm.trans hspan)
    exact hstop.symm ▸ (max_eq_left_of_lt (by omega)).symm
  have hreaches : (Cursor.start source.toList).Reaches w.scanner.stop :=
    (hmoves.placed hplaced).reaches_stop
  rw [hsource] at hreaches
  have hon : w.On .closeParenToken ([] ++ ([';'] ++ [])) :=
    ⟨hclose, Cursor.rest_of_offset hreaches hoffset, hpending, hlast.sink_eq_empty hclean⟩
  have hgap (b : Bool) : Trivia.extent (.betweenTokens b) [';'] = {} := by
    cases b <;> rfl
  have hsemicolon : (w.consume .plain).On .semicolonToken ([] ++ ([] ++ [])) :=
    (hon.consume [] [';'] hw.token.stop_sound hgap rfl).1
  have hready : (w.consume .plain).Ready := inferInstance
  exact ⟨hsemicolon, (hsemicolon.consume [] [] hready.token.stop_sound (fun _ => rfl) rfl).1⟩

/-- Arguments at moved places are the same ones, moved. -/
theorem argumentList_moved {n floor : Nat} {s' : ParseState} (h : s.Moved n floor s')
    (hrun : (@argumentList top ctx).run s = some (arguments, t)) :
    ∃ arguments' t', (@argumentList top ctx).run s' = some (arguments', t') ∧
      arguments.Matches (fun h h' => h' = { h with range := h.range.moved n }) arguments' ∧
      t.Moved n floor t' := by
  have := Coupling.contexts_rfl (.moved n floor) ctx
  obtain ⟨c, t', rfl, hrun', ht⟩ :=
    (argumentList_follows : (Coupling.moved n floor).Follows (@argumentList top ctx)
      (@argumentList top ctx)) s s' h (fun _ _ => trivial) _ _ hrun
  exact ⟨c.right, t', hrun', c.matched.mono fun _ _ => Coupling.moved_header, ht⟩

end Places

/-! ## Whole sources -/

/-- The expression of the only statement of a source. -/
def Node.soleExpression? (root : Node) : Option Node :=
  match root.form with
  | .sourceBody _ [statement] =>
    match statement.form with
    | .expressionStatement n => some n
    | _ => none
  | _ => none

/-- The callee and the arguments of the only statement of a source. -/
def Node.soleCall? (root : Node) : Option (Node × Node) := root.soleExpression?.bind Node.call?

section Sources
variable {options : ParseOptions} {n : Node}

/-- How a source is read that consists of a single expression. -/
theorem run_of_sole {source : String} (hclean : (parse source options).diagnostics = ∅)
    (hsole : (parse source options).root.soleExpression? = some n) :
    ∃ header t, (sourceStatements (.ofOptions options)).run (.firstToken source.toList) =
      some ([.mk header (.expressionStatement n)], t) ∧ t.sink = ∅ := by
  unfold parse at hclean hsole
  cases hrun : run source options with
  | none =>
    rw [hrun] at hsole
    cases hsole
  | some answer =>
    obtain ⟨statements, t⟩ := answer
    rw [hrun] at hclean hsole
    rw [run_eq, Option.map_eq_some_iff] at hrun
    obtain ⟨⟨_, u⟩, hrun, heq⟩ := hrun
    cases heq
    have hu : u.sink = ∅ := (Moves.single (.flush u)).sink_eq_empty hclean
    unfold Node.soleExpression? at hsole
    split at hsole
    case h_2 => cases hsole
    case h_1 statement heq =>
      obtain ⟨-, rfl⟩ := Form.sourceBody.inj heq
      obtain ⟨header, form⟩ := statement
      split at hsole
      case h_2 => cases hsole
      case h_1 heq =>
        cases hsole
        obtain rfl : form = _ := heq
        exact ⟨header, u, hrun, hu⟩

/-- A call as the only statement of a source. -/
def callOf (callee arguments : String) : String := callee ++ "(" ++ arguments ++ ");"

theorem toList_callOf (callee arguments : String) : (callOf callee arguments).toList =
    callee.toList ++ '(' :: (arguments.toList ++ [')', ';']) := by
  simp [callOf]

/-- The first token of a call is its callee. -/
theorem firstToken_callOf {word : String} (hword : IsWord word.toList) (text : String) :
    (ParseState.firstToken (callOf word text).toList).On
        ((Kind.ofKeyword? word).getD .identifier) ('(' :: (text.toList ++ [')', ';'])) ∧
      (ParseState.firstToken (callOf word text).toList).reading.text = word := by
  have hends : EndsWord ('(' :: (text.toList ++ [')', ';'])) :=
    ⟨'(', rfl, by decide +kernel, by decide⟩
  have h := firstToken_word hword hends
  rwa [String.ofList_toList, ← toList_callOf] at h

/-- The arguments of two calls stand at moved places. -/
theorem behindCallee_callOf {word word' : String} {n : Nat} (hword : IsWord word.toList)
    (hword' : IsWord word'.toList) (text : String)
    (hline : Trivia.atLineStart word'.toList = Trivia.atLineStart word.toList)
    (hbytes : word'.utf8ByteSize = word.utf8ByteSize + n) :
    (ParseState.firstToken (callOf word text).toList).behindCallee.Moved n 0
      (ParseState.firstToken (callOf word' text).toList).behindCallee := by
  obtain ⟨hon, -⟩ := firstToken_callOf hword text
  obtain ⟨hon', -⟩ := firstToken_callOf hword' text
  have hreaches (word : String) : (Cursor.start (callOf word text).toList).Reaches
      (ParseState.firstToken (callOf word text).toList).scanner.stop :=
    (firstToken_placed (callOf word text)).reaches_stop
  have hstop := Cursor.moved_of_reaches (hreaches word) (hreaches word') (toList_callOf word text)
    (toList_callOf word' text) hon.behind hon'.behind hline
    (by rw [String.ofList_toList, String.ofList_toList, hbytes])
  have hdepth (text : List Char) : (ParseState.firstToken text).depth = 0 := rfl
  have hlimit (text : List Char) : (ParseState.firstToken text).limitReported = false := rfl
  exact behindCallee_moved hon hon' hstop (by rw [hdepth, hdepth]) (by rw [hlimit, hlimit])

/-- The arguments of a call of `f` that is read without a diagnostic are those of a call of `async`,
too, moved behind the longer word, unless one of them is of a kind that elements leave out. -/
theorem parse_asyncCall {text : String} {callee arguments : Node}
    (hclean : (parse (callOf "f" text) options).diagnostics = ∅)
    (hcall : (parse (callOf "f" text) options).root.soleCall? = some (callee, arguments))
    (hcallee : callee.isIdentifier = true)
    (hspan : arguments.range = ⟨1, text.utf8ByteSize + 3⟩)
    (hcover : ∀ p, ArgumentAt (.ofOptions options)
      (ParseState.firstToken (callOf "async" text).toList).behindCallee p →
        p.token ≠ .closeParenToken → ArgumentCoverable (.ofOptions options) p) :
    (parse (callOf "async" text) options).diagnostics = ∅ ∧ ∃ n' arguments' : Node,
      (parse (callOf "async" text) options).root.soleExpression? = some n' ∧
      n'.CallsAsync "async" arguments' ∧
      arguments.Matches (fun h h' => h' = { h with range := h.range.moved 4 }) arguments' := by
  have hword : IsWord "f".toList := ⟨⟨'f', rfl, by decide +kernel⟩,
    List.all_eq_true.mp (by decide +kernel)⟩
  have hasync : IsWord "async".toList := ⟨⟨'a', rfl, by decide +kernel⟩,
    List.all_eq_true.mp (by decide +kernel)⟩
  -- the arguments behind `f`
  obtain ⟨n, hsole, hcall⟩ := Option.bind_eq_some_iff.mp hcall
  obtain ⟨header, t, hrun, ht⟩ := run_of_sole hclean hsole
  obtain ⟨hon, -⟩ := firstToken_callOf hword text
  obtain ⟨u, hitem, hmoves⟩ := statementList_peel (by rw [hon.token]; rfl) hrun
  have hn : n.callsName = true := by
    rw [Node.callsName, hcall]
    exact hcallee
  obtain ⟨_, _, v, hlist, hform, hv⟩ := item_peel hon.token (behindCallee_on hon).1.token hn
    (hmoves.sink_eq_empty ht) hitem
  rw [Node.call?, hform] at hcall
  cases hcall
  have hplaced := behindCallee_placed (firstToken_placed (callOf "f" text))
  have hsource : (callOf "f" text).toList = ("f(" ++ text ++ ")").toList ++ [';'] := by
    simp [toList_callOf]
  have hbytes : (String.ofList ("f(" ++ text ++ ")").toList).utf8ByteSize =
      text.utf8ByteSize + 3 := by
    rw [String.ofList_toList, String.utf8ByteSize_append, String.utf8ByteSize_append,
      show "f(".utf8ByteSize = 2 from rfl, show ")".utf8ByteSize = 1 from rfl]
    omega
  obtain ⟨hsemicolon, hend⟩ := arguments_end hsource hplaced hv hlist
    (by rw [hbytes, hspan]) (by omega)
  -- the arguments behind `async`
  have hmoved := behindCallee_callOf (n := 4) hword hasync text (by decide +kernel)
    (by decide +kernel)
  obtain ⟨arguments', v', hlist', hmatches, hstate⟩ := argumentList_moved hmoved hlist
  obtain ⟨hon', hname⟩ := firstToken_callOf hasync text
  obtain ⟨hopen, hline⟩ := behindCallee_on hon'
  obtain ⟨header', n', hn', hitem'⟩ := item_async (Context.ofOptions options).isModule hon'.token
    (flush_eq_self hon'.pending) hopen.token hline (show 0 + 3 < 500 by decide)
    (Context.ofOptions_argument options) hcover hlist'
    (hstate.scanner.reading.token_eq.trans hsemicolon.token) (hstate.sink.eq_empty hv)
  have hlast := hstate.consume .plain
  have hend' : (v'.consume .plain).token = .endOfFileToken :=
    hlast.scanner.reading.token_eq.trans hend.token
  have hclean' : (v'.consume .plain).flush.sink = ∅ := by
    rw [flush_eq_self (hlast.scanner.pending.eq_empty hend.pending)]
    exact hlast.sink.eq_empty hend.clean
  rw [parse_of_item (t := (v'.shallower.shallower.consume .plain).shallower.shallower)
    (by rw [hon'.token]; rfl) hend' (hn'.no_directive header') hitem']
  exact ⟨hclean', n', arguments', rfl, hname ▸ hn', hmatches⟩

/-- A name and a spread name. -/
theorem spread_asyncCall : ∃ arguments : Node, arguments.kind = .argumentList ∧
    (parse (callOf "async" "a, ...b") {}).diagnostics = ∅ ∧ ∃ n' arguments' : Node,
      (parse (callOf "async" "a, ...b") {}).root.soleExpression? = some n' ∧
      n'.CallsAsync "async" arguments' ∧
      arguments.Matches (fun h h' => h' = { h with range := h.range.moved 4 }) arguments' := by
  have hread : (parse (callOf "f" "a, ...b") {}).root.soleCall?.any (fun a => a.1.isIdentifier &&
      a.2.range == ⟨1, 10⟩ && a.2.kind == .argumentList) = true := by decide +kernel
  have hspread : ((@argument top (.ofOptions {})).run ((ParseState.firstToken
      (callOf "async" "a, ...b").toList).behindCallee.consume .plain)).any (fun a =>
        (a.2.consume .plain).token == .dotDotDotToken &&
        startsWithName (.ofOptions {}) ((a.2.consume .plain).consume .plain) &&
        ((@operand top (.ofOptions {}) .comma).run
          ((a.2.consume .plain).consume .plain).deeper).all (fun b =>
            b.2.token != .equalsToken && b.2.token != .equalsGreaterThanToken) &&
        ((@argument top (.ofOptions {})).run (a.2.consume .plain)).any fun b =>
          b.2.token != .commaToken) = true := by decide +kernel
  obtain ⟨⟨callee, arguments⟩, hcall, htest⟩ := (Option.any_eq_true _ _).mp hread
  obtain ⟨⟨a, u⟩, ha, hsecond⟩ := (Option.any_eq_true _ _).mp hspread
  simp only [Bool.and_eq_true, beq_iff_eq] at htest hsecond
  obtain ⟨⟨hcallee, hspan⟩, hkind⟩ := htest
  obtain ⟨⟨⟨hdots, hname⟩, hstops⟩, hthird⟩ := hsecond
  obtain ⟨⟨b, v⟩, hb, hlast⟩ := (Option.any_eq_true _ _).mp hthird
  refine ⟨arguments, hkind, parse_asyncCall (by decide +kernel) hcall hcallee hspan
    fun p hp => ?_⟩
  have hat : p = (ParseState.firstToken
      (callOf "async" "a, ...b").toList).behindCallee.consume .plain ∨ p = u.consume .plain := by
    induction hp with
    | first => exact .inl rfl
    | next _ hnext hcomma ih =>
      rcases ih with rfl | rfl
      · cases ha.symm.trans hnext
        exact .inr rfl
      · cases hb.symm.trans hnext
        simp [hcomma] at hlast
  have := (Parse.moves _ ha).ready inferInstance
  rcases hat with rfl | rfl
  · exact fun _ => ⟨fun _ => .of_startsWithName (by decide +kernel),
      fun h => absurd h (by decide +kernel)⟩
  · exact fun _ => ⟨fun h => absurd hdots h, fun _ => .of_startsWithName hname hstops⟩

/-- A spread arrow function is an argument of `f`, but none of `async`. -/
theorem spreadArrow_not_asyncCall :
    (parse (callOf "f" "...async x => x") {}).diagnostics = ∅ ∧
    (parse (callOf "f" "...async x => x") {}).root.soleCall?.any (fun a =>
      a.1.isIdentifier && a.2.range == ⟨1, 18⟩) = true ∧
    (parse (callOf "async" "...async x => x") {}).diagnostics ≠ ∅ ∧
    ∀ d ∈ (parse (callOf "async" "...async x => x") {}).diagnostics.toList,
      d.isOf .nestingTooDeep = false :=
  ⟨by decide +kernel, by decide +kernel, by decide +kernel, by decide +kernel⟩

end Sources
end EcmaSyntax
