import EcmaSyntax.Proofs.Coupling.Markup
import EcmaSyntax.Proofs.Elements
import EcmaSyntax.Proofs.Errors

/-! # Parenthesized lists side by side

Lists between parentheses as arguments, as parameters or as an expression. What is wrong with an
expression made of a list is reported at the closing parenthesis, which has been read. -/
namespace EcmaSyntax
open Parse Grammar

namespace Coupling
variable {K : Coupling}

/-- Corresponding lists with how sure it is that they are parameters. -/
instance (K : Coupling) : Coupled K Cover where
  Pair := K.ListedPair × Certainty
  left c := ⟨c.1.left, c.2⟩
  right c := ⟨c.1.right, c.2⟩

/-! ## Elements of lists -/

/-- The elements of corresponding argument lists. -/
theorem exists_argumentElements (n : K.NodePair) : ∃ qs : List K.NodePair,
    qs.map EcmaSyntax.NodePair.left = argumentElements n.left ∧
      qs.map EcmaSyntax.NodePair.right = argumentElements n.right := by
  obtain ⟨form, -, hform, hform', hchildren⟩ := n.matched
  unfold argumentElements
  rw [hform, hform']
  cases form
  case argumentList elements comma =>
    refine EcmaSyntax.NodePair.exists_list ?_
    change List.Forall₂ _ (elements.map Prod.fst) (elements.map Prod.snd)
    rw [List.forall₂_map_left_iff, List.forall₂_map_right_iff, List.forall₂_same]
    exact fun p hp => hchildren p (by simpa [Form.children, Form.fields, Field.children] using hp)
  all_goals exact ⟨[], rfl, rfl⟩

theorem elementExpression_matches {H : Header → Header → Prop} {n n' : Node} (h : n.Matches H n') :
    (elementExpression n).Matches H (elementExpression n') := by
  have hn := h
  obtain ⟨form, -, hform, hform', hchildren⟩ := hn
  unfold elementExpression
  rw [hform, hform']
  cases form
  case formalParameter decorators rest binding optional type value =>
    exact hchildren binding (by simp [Form.children, Form.fields, Field.children])
  all_goals exact h

/-- What corresponding elements stand for in an expression. -/
def expressionPair (n : K.NodePair) : K.NodePair := ⟨_, _, elementExpression_matches n.matched⟩

/-- Corresponding expressions joined by a comma. -/
def joinedPair (m n : K.NodePair) : K.NodePair :=
  have hm := m.matched.header
  have hn := n.matched.header
  have hheader : K.header { range := ⟨m.left.range.pos, n.left.range.stop⟩ }
      { range := ⟨m.right.range.pos, n.right.range.stop⟩ } :=
    ⟨congrArg₂ Range.mk (congrArg Range.pos hm.range_eq) (congrArg Range.stop hn.range_eq),
      hm.floor_le, hm.edge_pos, hn.edge_stop, rfl, rfl, fun _ => rfl⟩
  .ofForm hheader (.binary m .commaToken n)

theorem foldl_joinedPair (first : K.NodePair) (more : List K.NodePair) :
    (more.foldl joinedPair first).left =
        (more.map EcmaSyntax.NodePair.left).foldl commaJoined first.left ∧
      (more.foldl joinedPair first).right =
        (more.map EcmaSyntax.NodePair.right).foldl commaJoined first.right := by
  induction more generalizing first with
  | nil => exact ⟨rfl, rfl⟩
  | cons n more ih => exact ih (joinedPair first n)

/-- A parenthesis has been read where a node ends. -/
def EndsInParen (r : ParseState) (n : Node) : Prop :=
  ∃ u, Moves r u ∧ (u.token = .openParenToken ∨ u.token = .closeParenToken) ∧
    n.range.stop = u.scanner.stop.offset

/-- A list between parentheses has been read. It ends with a parenthesis if a comma is the last thing
in it, or if there is nothing in it and the limit of nesting has not been reported. -/
structure Enclosed (r : ParseState) (n : Node) (s : ParseState) : Prop where
  pos_lt : n.range.pos < n.range.stop
  stop_le : n.range.stop ≤ s.start.offset
  comma : n.isArrowParameters = false → endsInComma n = true → EndsInParen r n
  empty : n.isArrowParameters = false → argumentElements n = [] →
    s.limitReported = true ∨ EndsInParen r n

theorem Enclosed.move {n : Node} {r s t : ParseState} (h : Enclosed r n s) (hm : Moves s t)
    (hs : s.Ready) : Enclosed r n t :=
  ⟨h.pos_lt, Nat.le_trans h.stop_le (hm.offset_le hs), h.comma,
    fun hlist hempty => (h.empty hlist hempty).imp_left hm.limitReported⟩

end Coupling

namespace Grammar
open Coupling
variable {K : Coupling} [K.Lawful] {R R' : Recursion} [K.Recurs R R'] {ctx ctx' : Context}
  [K.Contexts ctx ctx'] {s s' : ParseState}

/-! ## Lists -/

theorem startsReturnType_follows (certainty : Certainty) :
    K.Follows (@startsReturnType R ctx certainty) (@startsReturnType R' ctx' certainty) := by
  unfold startsReturnType
  rw [K.has_eq ctx ctx' .conditionalBranch rfl]
  refine .ite (.lookAhead ?_) (.ite (.lookAhead ?_) (.pure true rfl))
  · exact .same .advance fun _ => .bind typeOrPredicate_follows fun _ => .same (.accept _) fun _ =>
      .ite (.bind (Meets.recur .assignment) fun _ => .isAt _) (.pure false rfl)
  · exact .same .advance fun _ => .bind typeOrPredicate_follows fun _ => .isAt _

theorem coverTurn_follows (c : Coupled.Pair K Cover) :
    K.Follows (@coverTurn R ctx (Coupled.left c)) (@coverTurn R' ctx' (Coupled.right c)) := by
  refine .same (.isAtAny _) fun _ => .ite (.pure (Turn.done c) rfl) <| .tokenStart fun start =>
    .same .token fun _ => .ite (.bind (Meets.recur .coverElement) fun answer => ?_)
      (.same (.reportHere _ _ _) fun _ => .pure (Turn.done c) rfl)
  cases answer with
  | none => exact .pure (Turn.done c) rfl
  | some answer =>
    obtain ⟨element, certainty⟩ := answer
    refine .bind (afterItem_follows _ start (c.1.push element)) fun turn => ?_
    cases turn with
    | again l => exact .pure (Turn.again (l, certainty)) rfl
    | done l => exact .pure (Turn.done (l, certainty)) rfl

theorem coverRest_follows (m : K.MarkPair) (typeParameters : Option (List K.NodePair))
    (c : Coupled.Pair K Cover) :
    K.Follows
      (@coverRest R ctx m.left (typeParameters.map (List.map NodePair.left)) (Coupled.left c))
      (@coverRest R' ctx' m.right (typeParameters.map (List.map NodePair.right))
        (Coupled.right c)) := by
  obtain ⟨l, certainty⟩ := c
  obtain ⟨qs, hleft, hright⟩ := l.exists_list
  have hl : (Coupled.left (K := K) (α := Cover) (l, certainty)).listed.toList =
      qs.map NodePair.left := hleft.symm
  have hr : (Coupled.right (K := K) (α := Cover) (l, certainty)).listed.toList =
      qs.map NodePair.right := hright.symm
  have hcl : (Coupled.left (K := K) (α := Cover) (l, certainty)).listed.hasTrailingComma =
      l.trailingComma.isSome := l.hasTrailingComma_left
  have hcr : (Coupled.right (K := K) (α := Cover) (l, certainty)).listed.hasTrailingComma =
      l.trailingComma.isSome := l.hasTrailingComma_right
  simp only [coverRest, hl, hr, hcl, hcr]
  refine .ite ?_ (.node m (.argumentList qs _))
  refine .same (.and (.isAt _) (startsReturnType_follows certainty)) fun _ => .ite ?_ ?_
  · exact .same .advance fun _ => .bind typeOrPredicate_follows fun result =>
      .node m (.arrowParameters typeParameters qs (some result) _)
  · exact .same (.isAt _) fun _ => .ite (.node m (.arrowParameters typeParameters qs none _))
      (.node m (.argumentList qs _))

theorem coverList_follows (m : K.MarkPair) (typeParameters : Option (List K.NodePair)) :
    K.Follows (@coverList R ctx m.left (typeParameters.map (List.map NodePair.left)))
      (@coverList R' ctx' m.right (typeParameters.map (List.map NodePair.right))) := by
  have hstart : Coupled.Pair K Cover := (ListedPair.empty K, .yes)
  exact .bind (.between _ _ (.loop (Prod.mk (ListedPair.empty K) Certainty.yes) rfl coverTurn_follows))
    fun c => coverRest_follows m typeParameters c

/-! ## Parenthesized expressions -/

theorem coverRest_header [Recursion] {m : Mark} {typeParameters : Option (List Node)} {c : Cover} :
    (coverRest ctx m typeParameters c).Gives s fun n t => n.header = t.header m :=
  .ite (fun _ => .behind fun _ _ _ => .ite
      (fun _ => .behind fun _ _ _ => .behind fun _ _ _ => .observe rfl)
      fun _ => .look (.ite (fun _ => .observe rfl) fun _ => .observe rfl))
    fun _ => .observe rfl

/-- Where a list is one of arguments, nothing behind it has been consumed. -/
theorem coverRest_arguments [Recursion] {m : Mark} {typeParameters : Option (List Node)}
    {c : Cover} : (coverRest ctx m typeParameters c).Gives s fun n t => n.isArrowParameters = false →
      t.full = s.full ∧ argumentElements n = c.listed.toList ∧
        endsInComma n = c.listed.hasTrailingComma := by
  have harrow {t : ParseState} {result : Option Node} :
      (node m (.arrowParameters typeParameters c.listed.toList result c.listed.hasTrailingComma)).Gives t
        fun n t => n.isArrowParameters = false → t.full = s.full ∧
          argumentElements n = c.listed.toList ∧ endsInComma n = c.listed.hasTrailingComma :=
    .observe fun h => Bool.noConfusion h
  refine .ite (fun _ => ?_) fun _ => .observe fun _ => ⟨rfl, rfl, rfl⟩
  refine Gives.bind (Q := fun _ t => t.full = s.full) ?_ fun b t _ ht => .ite
    (fun _ => .behind fun _ _ _ => .behind fun _ _ _ => harrow)
    fun _ => .look (.ite (fun _ => harrow) fun _ => .observe fun _ => ⟨ht, rfl, rfl⟩)
  refine .look ?_
  cases s.token == .colonToken with
  | false => exact .pure rfl
  | true =>
    exact .ite (fun _ => Gives.lookAhead.mono fun _ _ _ h => h ▸ rfl) fun _ => .ite
      (fun _ => Gives.lookAhead.mono fun _ _ _ h => h ▸ rfl) fun _ => .pure rfl

/-- A token that is expected has been consumed, or nothing has. -/
theorem expect_full {kind : Kind} : (expect kind).Gives s fun _ t =>
    (s.token = kind ∧ t = s.consume .plain) ∨ (s.token ≠ kind ∧ t.full = s.full) := by
  intro b t hrun
  by_cases ht : s.token = kind
  · rw [expect_run ht] at hrun
    cases hrun
    exact .inl ⟨ht, rfl⟩
  · obtain ⟨_, u, haccept, hrun⟩ := run_bind.mp hrun
    rw [accept_run_ne ht] at haccept
    cases haccept
    obtain ⟨_, v, hreport, hrun⟩ := run_bind.mp hrun
    cases hrun
    exact .inr ⟨ht, (reportHere_reads.of_run hreport).still.full_eq⟩

/-- Behind an item a comma is the last thing of a list only in front of the closing token. -/
theorem afterItem_comma {close : Kind} {start : Nat} {l : Listed}
    (hl : l.hasTrailingComma = false) :
    (afterItem close start l).Gives s (TurnGives
      (fun l' t => l'.items = l.items ∧ (l'.hasTrailingComma = true → t.token = close))
      fun l' t => l'.items = l.items ∧ (l'.hasTrailingComma = true → t.token = close)) := by
  have hnone {t : ParseState} : l.items = l.items ∧ (l.hasTrailingComma = true → t.token = close) :=
    ⟨rfl, fun h => Bool.noConfusion (hl.symm.trans h)⟩
  refine .look (.ite (fun _ => .pure hnone) fun _ => .look (.behind fun b t _ =>
    .ite (fun _ => .look (.pure ⟨rfl, fun hcomma => ?_⟩)) fun _ => .behind fun _ u _ => .look (.pure ?_)))
  · by_contra hne
    rw [Listed.hasTrailingComma, if_neg (by simpa using hne)] at hcomma
    cases hcomma
  · split <;> exact hnone

/-- A list under construction that began at a state. A comma is its last thing only in front of a
closing parenthesis. -/
structure Cover.ReadFrom (r : ParseState) (c : Cover) (t : ParseState) : Prop where
  comma : c.listed.hasTrailingComma = true → t.token = .closeParenToken
  empty : c.listed.toList = [] → t.limitReported = true ∨ t.full = r.full

theorem coverTurn_readFrom [Recursion] {r : ParseState} {c : Cover}
    (hcovered : ∀ {ctx : Context} {s t : ParseState},
      (recur (.coverElement ctx)).run s = some (none, t) → t.limitReported = true)
    (h : c.ReadFrom r s) :
    (coverTurn ctx c).Gives s (TurnGives (Cover.ReadFrom r) (Cover.ReadFrom r)) := by
  refine .look (.ite (fun _ => .pure h) fun hend => .look (.look (.ite (fun _ => ?_) fun _ => ?_)))
  · have hne : s.token ≠ .closeParenToken := fun ht => hend (by rw [ht]; rfl)
    have hnone : c.listed.hasTrailingComma = false :=
      Bool.eq_false_iff.mpr fun hc => hne (h.comma hc)
    refine Gives.bind (Q := fun answer t => answer = none → t.limitReported = true)
      (fun _ _ hrun hanswer => hcovered (hanswer ▸ hrun)) fun answer t _ hlimit => ?_
    cases answer with
    | none =>
      exact .pure ⟨fun hc => Bool.noConfusion (hnone.symm.trans hc), fun _ => .inl (hlimit rfl)⟩
    | some answer =>
      obtain ⟨element, certainty⟩ := answer
      have hpush {l : Listed} {u : ParseState} (hitems : l.items = (c.listed.push element).items)
          (hcomma : l.hasTrailingComma = true → u.token = .closeParenToken) :
          Cover.ReadFrom r ⟨l, certainty⟩ u := by
        refine ⟨hcomma, fun hempty => ?_⟩
        rw [Listed.toList, hitems, Listed.push, Array.toList_push] at hempty
        cases List.append_eq_nil_iff.mp hempty |>.2
      refine (afterItem_comma (l := c.listed.push element) hnone).bind fun turn u _ hturn => .pure ?_
      cases turn with
      | again l => exact hpush hturn.1 hturn.2
      | done l => exact hpush hturn.1 hturn.2
  · refine Gives.bind (Q := fun _ t => s.Still t)
      (.of_reads (reportHere_reads.mono fun _ _ h => h.still)) fun _ t hm hstill => .pure ?_
    exact ⟨fun hc => hstill.token_eq.trans (h.comma hc),
      fun hempty => (h.empty hempty).imp hm.limitReported hstill.full_eq.trans⟩

/-- Where a closing parenthesis is expected, a list ends with it, or with the opening one. -/
theorem Cover.ReadFrom.endsInParen {c : Cover} {b : Bool} {t u : ParseState} {n : Node} (hs : s.Ready)
    (hopen : s.token = .openParenToken) (h : c.ReadFrom (s.consume .plain) t) (hm : Moves s t)
    (hclose : (expect .closeParenToken).run t = some (b, u)) (hstop : n.range.stop = u.full.offset) :
    (c.listed.hasTrailingComma = true → EndsInParen s n) ∧
      (c.listed.toList = [] → t.limitReported = true ∨ EndsInParen s n) := by
  rcases expect_full hclose with ⟨ht, rfl⟩ | ⟨hne, hfull⟩
  · rw [(hm.ready hs).consume_full] at hstop
    have hends : EndsInParen s n := ⟨t, hm, .inr ht, hstop⟩
    exact ⟨fun _ => hends, fun _ => .inr hends⟩
  · refine ⟨fun hcomma => absurd (h.comma hcomma) hne, fun hempty => (h.empty hempty).imp_right ?_⟩
    intro hfirst
    rw [hfull, hfirst, hs.consume_full] at hstop
    exact ⟨s, .refl s, .inl hopen, hstop⟩

/-- A list that begins with a parenthesis and was read up to its end. -/
theorem coverList_encloses [Recursion] (hs : s.Ready) (ht : s.token = .openParenToken)
    (hcovered : ∀ {ctx : Context} {s t : ParseState},
      (recur (.coverElement ctx)).run s = some (none, t) → t.limitReported = true)
    {typeParameters : Option (List Node)} :
    (coverList ctx s.mark typeParameters).Gives s fun n t => Enclosed s n t := by
  intro n t hrun
  have htready := (Parse.moves _ hrun).ready hs
  obtain ⟨_, v, hbetween, hrest⟩ := run_bind.mp hrun
  obtain ⟨b, u, hexpect, hinner⟩ := run_bind.mp hbetween
  rw [expect_run ht] at hexpect
  cases hexpect
  obtain ⟨c, w, hloop, hinner⟩ := run_bind.mp hinner
  obtain ⟨_, _, hclose, hpure⟩ := run_bind.mp hinner
  cases hpure
  have hne : s.token ≠ .endOfFileToken := by simp [ht]
  have hlt := hs.consume_wide .plain hne
  have hconsume : Moves s (s.consume .plain) := .single (.consume .plain s)
  have hu := hconsume.ready hs
  have hmw := hconsume.trans (Parse.moves _ hloop)
  have hmt := (Parse.moves _ hclose).trans (Parse.moves _ hrest)
  have hfull := (((Parse.moves _ hloop).trans hmt).full_reaches hu).offset_le hu.full_sound
  have hend := htready.full_start.offset_le htready.full_sound
  have hrange : n.range = ⟨s.start.offset, max t.full.offset s.start.offset⟩ :=
    congrArg Header.range (coverRest_header hrest)
  have hpos : n.range.pos = s.start.offset := congrArg Range.pos hrange
  have hstop : n.range.stop = t.full.offset := by
    rw [hrange]
    exact Nat.max_eq_left (Nat.le_of_lt (Nat.lt_of_lt_of_le hlt hfull))
  have hread : Cover.ReadFrom (s.consume .plain) c w :=
    Gives.loop (I := Cover.ReadFrom (s.consume .plain))
      ⟨fun h => Bool.noConfusion h, fun _ => .inr rfl⟩ (fun c t _ hc => coverTurn_readFrom hcovered hc) hloop
  have hends (hlist : n.isArrowParameters = false) := by
    obtain ⟨hlast, helements, hcomma⟩ := coverRest_arguments hrest hlist
    have hparen := hread.endsInParen hs ht hmw hclose (hstop.trans (congrArg Cursor.offset hlast))
    rwa [← helements, ← hcomma] at hparen
  refine ⟨?_, hstop ▸ hend, fun hlist => (hends hlist).1, fun hlist hempty => ?_⟩
  · rw [hpos, hstop]
    exact Nat.lt_of_lt_of_le hlt hfull
  · exact ((hends hlist).2 hempty).imp_left hmt.limitReported

omit [K.Lawful] in
theorem closingSpan_eq {r : ParseState} {n : K.NodePair} (hn : Enclosed r n.left s) :
    closingSpan n.right = (closingSpan n.left).moved K.shift := by
  have hpos := hn.pos_lt
  have hstop : n.right.range.stop = n.left.range.stop + K.shift :=
    congrArg Range.stop n.matched.header.range_eq
  rw [closingSpan, closingSpan, hstop, Span.moved_between]
  congr 1
  omega

/-- The front of a parenthesis that a node ends with is an edge. -/
theorem EndsInParen.edge {r r' : ParseState} {n : Node} (h : EndsInParen r n) (hr : K.state r r') :
    K.edge (n.range.stop - 1) := by
  obtain ⟨u, hm, hparen, hstop⟩ := h
  exact hstop ▸ (Lawful.edged hr hm).paren hparen

/-- A report at the closing parenthesis of a list. -/
theorem reportClosing_followsAt {r : ParseState} {n : K.NodePair} {message : Message}
    {h : message.isGrammatical = true} (hs : K.state s s') (hn : Enclosed r n.left s)
    (hedge : K.edge (n.left.range.stop - 1) ∨
      (s.limitReported = true ∧ message = .expressionExpected)) :
    K.FollowsAt (reportAt (closingSpan n.left) message none h)
      (reportAt (closingSpan n.right) message none h) s s' := by
  have hheader := n.matched.header
  have hfloor : K.floor ≤ n.left.range.pos := hheader.floor_le
  have hpos := hn.pos_lt
  have hstop := hn.stop_le
  have hlength : (closingSpan n.left).length = 1 := by
    change n.left.range.stop - (n.left.range.stop - 1) = 1
    omega
  rw [closingSpan_eq hn]
  refine .act fun _ _ => Lawful.push (.report (closingSpan n.left) message) ⟨?_, ?_, ?_, ?_⟩ hs
  · change K.floor ≤ n.left.range.stop - 1
    omega
  · change n.left.range.stop - 1 ≤ s.start.offset
    omega
  · refine hedge.imp_right fun hlimit => ⟨hlimit.1, ?_, hlength⟩
    rw [hlimit.2]
    rfl
  · change K.edge (n.left.range.stop - 1 + (closingSpan n.left).length)
    rw [hlength, Nat.sub_add_cancel (by omega)]
    exact hheader.edge_stop

theorem checkEnd_followsAt {r r' : ParseState} {n : K.NodePair} (hr : K.state r r')
    (hs : K.state s s') (hn : Enclosed r n.left s) (hlist : n.left.isArrowParameters = false) :
    K.FollowsAt (checkEnd n.left) (checkEnd n.right) s s' := by
  unfold checkEnd
  rw [n.matched.endsInComma_eq]
  split
  case isTrue hcomma =>
    exact reportClosing_followsAt hs hn (.inl (EndsInParen.edge (hn.comma hlist hcomma) hr))
  case isFalse => exact .pure hs () rfl

omit [K.Lawful] in
/-- Corresponding lists pass the same tests of their elements. -/
theorem any_argumentElements (n : K.NodePair) {test : Node → Bool}
    (htest : ∀ e : K.NodePair, test e.right = test e.left) :
    (argumentElements n.right).any test = (argumentElements n.left).any test := by
  obtain ⟨qs, hleft, hright⟩ := exists_argumentElements n
  rw [← hleft, ← hright, List.any_map, List.any_map]
  exact congrArg (List.any qs) (funext htest)

theorem checkElements_follows (n : K.NodePair) :
    K.Follows (checkElements n.left) (checkElements n.right) := by
  unfold checkElements
  rw [any_argumentElements n fun e => by rw [e.matched.isParameter_eq, e.matched.isSpread_eq]]
  exact .ite (.reportMissing _) (.pure () rfl)

theorem checkCall_follows (n : K.NodePair) : K.Follows (checkCall n.left) (checkCall n.right) := by
  unfold checkCall
  rw [any_argumentElements n fun e => e.matched.isParameter_eq]
  exact .ite (.reportMissing _) (.pure () rfl)

theorem joinedElements_followsAt {r r' : ParseState} {n : K.NodePair} (hr : K.state r r')
    (hs : K.state s s') (hn : Enclosed r n.left s) (hlist : n.left.isArrowParameters = false) :
    K.FollowsAt (joinedElements n.left) (joinedElements n.right) s s' := by
  obtain ⟨qs, hleft, hright⟩ := exists_argumentElements n
  unfold joinedElements
  rw [← hleft, ← hright, List.map_map, List.map_map]
  cases qs with
  | nil =>
    have hedge := (hn.empty hlist hleft.symm).symm.imp_left fun h => EndsInParen.edge h hr
    refine .bind (reportClosing_followsAt hs hn (hedge.imp_right fun h => ⟨h, rfl⟩))
      fun _ t t' _ _ ht => ?_
    exact missingIdentifier_follows t t' ht
  | cons first more =>
    obtain ⟨hleft, hright⟩ := foldl_joinedPair (expressionPair first) (more.map expressionPair)
    rw [List.map_map] at hleft hright
    exact .pure hs ((more.map expressionPair).foldl joinedPair (expressionPair first))
      (congrArg₂ Prod.mk hleft hright)

theorem parenthesizedOf_followsAt {r r' : ParseState} {n : K.NodePair} (hr : K.state r r')
    (hs : K.state s s') (hn : Enclosed r n.left s) (hlist : n.left.isArrowParameters = false) :
    K.FollowsAt (parenthesizedOf n.left) (parenthesizedOf n.right) s s' := by
  have hready := (Lawful.aligned hs).ready
  refine .look fun _ => .bind (checkEnd_followsAt hr hs hn hlist) fun _ t t' hrun _ ht => ?_
  refine .bind (checkElements_follows n t t' ht) fun _ u u' hrun' _ hu => ?_
  have hm := (Parse.moves _ hrun).trans (Parse.moves _ hrun')
  refine .bind (joinedElements_followsAt hr hu (hn.move hm hready) hlist)
    fun inner v v' _ _ hv => ?_
  refine .look fun _ => ?_
  have hmarked (h : K.exact) : (n.right.hasErrors || decide (s'.sink.size < v'.sink.size)) =
      (n.left.hasErrors || decide (s.sink.size < v.sink.size)) := by
    have hcount := Lawful.count_lt h (Lawful.aligned hs).counted (Lawful.aligned hv).counted
    rw [hasErrors_eq n h, decide_eq_decide.mpr hcount]
  exact .pure hv (NodePair.ofForm (n.matched.header.marked hmarked) (.parenthesized inner)) rfl

theorem parenthesized_followsAt (hs : K.state s s') (ht : s.token = .openParenToken) :
    K.FollowsAt (@parenthesized R ctx) (@parenthesized R' ctx') s s' := by
  have hready := (Lawful.aligned hs).ready
  refine .bind (Follows.mark s s' hs) fun m t t' hmark _ hstate => ?_
  obtain ⟨hm, rfl⟩ := Prod.mk.inj (Option.some.inj hmark)
  refine .bind (coverList_follows m none s t' hstate) fun list u u' hrun _ hu => ?_
  change (@coverList R ctx (Coupled.left (K := K) m) none).run s = _ at hrun
  rw [← hm] at hrun
  have hlist : Enclosed s list.left u :=
    @coverList_encloses ctx s R hready ht (Meets.covered K R') none _ _ hrun
  change K.FollowsAt (if list.left.isArrowParameters then _ else _)
    (if list.right.isArrowParameters then _ else _) u u'
  rw [list.matched.isArrowParameters_eq]
  split
  case isTrue => exact .pure hu list rfl
  case isFalse harrow =>
    exact parenthesizedOf_followsAt hs hu hlist (Bool.eq_false_iff.mpr harrow)

/-! ## Arrow functions -/

theorem asyncCallOrArrow_follows :
    K.Follows (@asyncCallOrArrow R ctx) (@asyncCallOrArrow R' ctx') := by
  refine .bind .mark fun m => .bind identifierToken_follows fun callee => .bind .mark fun inner =>
    .bind (coverList_follows inner none) fun list => ?_
  change K.Follows (if list.left.isArrowParameters then _ else _)
    (if list.right.isArrowParameters then _ else _)
  rw [list.matched.isArrowParameters_eq]
  refine .ite (arrowFunction_follows m true list) ?_
  exact .same (checkCall_follows list) fun _ => .node m (.call callee false none list)

variable (ctx ctx') in
/-- The mode of elements is not asked for where it may differ. -/
theorem jsx_eq (hcalm : K.calm s) (ht : s.token = .lessThanToken) : ctx'.has .jsx = ctx.has .jsx := by
  refine Contexts.has_eq (K := K) .jsx (Bool.eq_false_iff.mpr fun hfree => ?_)
  exact Lawful.jsx hfree hcalm ht

theorem mayOpenTypeParameters_followsAt (hcalm : K.calm s) (ht : s.token = .lessThanToken)
    (hs : K.state s s') :
    K.FollowsAt (mayOpenTypeParameters ctx) (mayOpenTypeParameters ctx') s s' := by
  unfold mayOpenTypeParameters
  rw [jsx_eq ctx ctx' hcalm ht]
  refine .ite (Follows.lookAhead ?_ s s' hs) (.pure hs true rfl)
  exact .same .advance fun _ => .same .token fun _ => .ite
    (.same .advance fun _ => .isAtAny _) (.pure false rfl)

theorem genericParameters_follows :
    K.Follows (@genericParameters R ctx) (@genericParameters R' ctx') := by
  refine .bind .mark fun m => .bind typeParameters_follows fun typeParameters =>
    .same (.isAt _) fun _ => .ite ?_ (.pure none rfl)
  refine .bind (coverList_follows m (some typeParameters)) fun list => ?_
  change K.Follows (Pure.pure (if list.left.isArrowParameters then _ else _))
    (Pure.pure (if list.right.isArrowParameters then _ else _))
  rw [list.matched.isArrowParameters_eq]
  split
  · exact .pure (some list) rfl
  · exact .pure none rfl

end Grammar
end EcmaSyntax
