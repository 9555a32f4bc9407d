import EcmaSyntax.Proofs.Coupling.List

/-! # Literals and parameters side by side

Templates, array and object literals, and lists of parameters. Where a rest parameter is not the last
one, the report goes back to a place that has been read; a list of parameters knows that its items
and commas are such places. -/
namespace EcmaSyntax.Grammar
open Parse Coupling
variable {K : Coupling} [K.Lawful] {R R' : Recursion} [K.Meets R R'] {ctx ctx' : Context}
  [K.Contexts ctx ctx']

/-! ## Templates -/

theorem spread_follows : K.Follows (@spread R ctx) (@spread R' ctx') :=
  .bind .mark fun m => .same (.expect _) fun _ => .bind (Meets.recur .assignment) fun inner =>
    .node m (.spread inner)

theorem templateText_follows : K.Follows templateText templateText :=
  .same (.isAt _) fun _ => .ite (.same (.reread _) fun _ => literal_follows) <|
    .same (.reportExpected _) fun _ => .missing (.literal .templateTail "" ∅)

theorem templateSpan_follows : K.Follows (@templateSpan R ctx) (@templateSpan R' ctx') :=
  .bind .mark fun m => .bind expression_follows fun inner => .bind templateText_follows fun text =>
    .node m (.templateSpan inner text)

theorem continuesTemplate_eq {H : Header → Header → Prop} {n n' : Node} (h : n.Matches H n') :
    continuesTemplate n' = continuesTemplate n := by
  obtain ⟨form, -, hform, hform', hchildren⟩ := h
  unfold continuesTemplate
  rw [hform, hform']
  cases form
  case templateSpan inner tail =>
    have htail := (hchildren tail (by simp [Form.children, Form.fields, Field.children])).kind_eq
    exact congrArg (· == Kind.templateMiddle) htail
  all_goals rfl

theorem template_follows : K.Follows (@template R ctx) (@template R' ctx') := by
  refine .same (.isAt _) fun _ => .ite literal_follows <| .bind .mark fun m =>
    .bind literal_follows fun head => .bind (.collect fun ns => ?_) fun spans =>
      .node m (.template head spans)
  refine .bind templateSpan_follows fun span => ?_
  change K.Follows (Pure.pure (if continuesTemplate span.left then _ else _))
    (Pure.pure (if continuesTemplate span.right then _ else _))
  rw [continuesTemplate_eq span.matched]
  split
  · exact .pure (Turn.again (ns.push span)) rfl
  · exact .pure (Turn.done (ns.push span)) rfl

/-! ## Array and object literals -/

theorem hole_follows : K.Follows hole hole :=
  .observe fun s s' h hedged => by
    have hheader : K.header { range := ⟨s.start.offset, s.start.offset⟩ }
        { range := ⟨s'.start.offset, s'.start.offset⟩ } := by
      refine ⟨?_, h.floor_le, hedged.start, hedged.start, rfl, rfl, fun _ => rfl⟩
      simp only [Range.moved, h.offset_eq]
    exact ⟨.ofForm hheader .omitted, rfl, rfl⟩

theorem arrayElement_follows : K.Follows (@arrayElement R ctx) (@arrayElement R' ctx') :=
  .same (.isAt _) fun _ => .ite spread_follows (Meets.recur .assignment)

theorem arrayTurn_follows (l : K.ListedPair) :
    K.Follows (@arrayTurn R ctx l.left) (@arrayTurn R' ctx' l.right) :=
  .same (.isAtAny _) fun _ => .ite (.pure (Turn.done l) rfl) <| .tokenStart fun n =>
    .same (.isAt _) fun _ => .ite
      (.bind hole_follows fun h => .same .advance fun _ => .pure (Turn.again (l.push h)) rfl)
      (.bind arrayElement_follows fun item => afterItem_follows _ n (l.push item))

theorem arrayLiteral_follows : K.Follows (@arrayLiteral R ctx) (@arrayLiteral R' ctx') := by
  refine .bind .mark fun m =>
    .bind (.between _ _ (.loop (ListedPair.empty K) rfl arrayTurn_follows)) fun l => ?_
  obtain ⟨qs, hleft, hright⟩ := ListedPair.exists_list l
  rw [ListedPair.hasTrailingComma_left, ListedPair.hasTrailingComma_right, ← hleft, ← hright]
  exact .node m (.arrayLiteral qs _)

theorem objectLiteral_follows : K.Follows (@objectLiteral R ctx) (@objectLiteral R' ctx') := by
  refine .bind .mark fun m => .bind (.between _ _
    (commaList_follows _ fun _ => Meets.recur .objectElement)) fun l => ?_
  obtain ⟨qs, hleft, hright⟩ := ListedPair.exists_list l
  rw [← hleft, ← hright]
  exact .node m (.objectLiteral qs)

theorem bindingName_follows : K.Follows (@bindingName R ctx) (@bindingName R' ctx') := by
  refine .same .token fun k => ?_
  split
  · exact arrayLiteral_follows
  · exact objectLiteral_follows
  · exact identifier_follows

theorem computedName_follows : K.Follows (@computedName R ctx) (@computedName R' ctx') :=
  .bind .mark fun m => .same .advance fun _ => .bind (Meets.recur .assignment) fun inner =>
    .same (.expect _) fun _ => .node m (.computedName inner)

theorem propertyName_follows : K.Follows (@propertyName R ctx) (@propertyName R' ctx') := by
  refine .same .token fun k => ?_
  split
  · exact literal_follows
  · exact literal_follows
  · exact literal_follows
  · exact .same checkPrivate_follows fun _ => identifierToken_follows
  · exact computedName_follows
  · exact name_follows

/-! ## Parameters -/

theorem typeAscription_follows : K.Follows (@typeAscription R ctx) (@typeAscription R' ctx') :=
  .behind _ (Meets.recur .type)

theorem initializer_follows : K.Follows (@initializer R ctx) (@initializer R' ctx') :=
  .behind _ (Meets.recur .assignment)

theorem decorator_follows : K.Follows (@decorator R ctx) (@decorator R' ctx') :=
  .bind .mark fun m => .same .advance fun _ => .bind (Meets.recur .leftHandSide) fun inner =>
    .node m (.decorator inner)

theorem decorators_follows : K.Follows (@decorators R ctx) (@decorators R' ctx') :=
  .collect fun ns => .same (.isAt _) fun _ => .ite
    (.bind decorator_follows fun n => .pure (Turn.again (ns.push n)) rfl) (.pure (Turn.done ns) rfl)

theorem modifiers_follows (isModifier : Kind → Bool) {isBefore : Kind → Parse Bool}
    (h : ∀ k, K.Follows (isBefore k) (isBefore k)) :
    K.Follows (modifiers isModifier isBefore) (modifiers isModifier isBefore) :=
  .loop (∅ : ModifierFlags) rfl fun (found : ModifierFlags) => .same .token fun k => .ite
    (.same (.nextIs (h k)) fun _ => .ite
      (.same .advance fun _ => .pure (Turn.again (α := ModifierFlags) (found ∪ ModifierFlag.ofKind k)) rfl)
      (.pure (Turn.done found) rfl))
    (.pure (Turn.done found) rfl)

theorem parameterModifiers_follows : K.Follows parameterModifiers parameterModifiers :=
  modifiers_follows _ fun _ => .onSameLine _

theorem parameterTail_follows (m : K.MarkPair) (binding : K.NodePair) (decorators : List K.NodePair)
    (rest optional : Bool) :
    K.Follows
      (@parameterTail R ctx ⟨m.left, binding.left, decorators.map NodePair.left, rest, optional⟩)
      (@parameterTail R' ctx'
        ⟨m.right, binding.right, decorators.map NodePair.right, rest, optional⟩) :=
  .bind typeAscription_follows fun ascription => .bind initializer_follows fun value =>
    .node m (.formalParameter decorators rest binding optional ascription value)

theorem parameterBinding_follows : K.Follows (@parameterBinding R ctx) (@parameterBinding R' ctx') :=
  .same (.isAt _) fun _ => .ite identifierToken_follows bindingName_follows

theorem formalParameter_follows : K.Follows (@formalParameter R ctx) (@formalParameter R' ctx') :=
  .bind .mark fun m => .bind decorators_follows fun decorators =>
    .same parameterModifiers_follows fun modifiers => .same (.accept _) fun rest =>
      .bind parameterBinding_follows fun binding => .same (.accept _) fun optional =>
        parameterTail_follows (m.withModifiers modifiers) binding decorators rest optional

/-! ## Lists of parameters -/

/-- The last item of a list and the comma behind it have been read. -/
structure Listed.ReadAt (l : Listed) (s : ParseState) : Prop where
  items : ∀ n ∈ l.items.back?, n.range.pos ≤ s.start.offset
  trailingComma : ∀ comma ∈ l.trailingComma, comma.start ≤ s.start.offset

namespace Listed.ReadAt
variable {l : Listed} {s t : ParseState}

theorem move (h : l.ReadAt s) (hm : Moves s t) (hs : s.Ready) : l.ReadAt t :=
  have hle := hm.offset_le hs
  ⟨fun n hn => Nat.le_trans (h.items n hn) hle,
    fun comma hc => Nat.le_trans (h.trailingComma comma hc) hle⟩

theorem push {n : Node} (h : l.ReadAt s) (hn : n.range.pos ≤ s.start.offset) :
    (l.push n).ReadAt s := by
  refine ⟨fun n' hn' => ?_, h.trailingComma⟩
  rw [Listed.push, Array.back?_push] at hn'
  cases hn'
  exact hn

end Listed.ReadAt

theorem afterItem_gives {close : Kind} {start : Nat} {l : Listed} {s : ParseState} (hs : s.Ready)
    (h : l.ReadAt s) :
    (afterItem close start l).Gives s (TurnGives Listed.ReadAt Listed.ReadAt) := by
  refine .look (.ite (fun _ => .pure h) fun _ => .look ?_)
  refine .behind fun b t hm => .ite (fun _ => .look (.pure ?_)) fun _ => ?_
  · refine ⟨(h.move hm hs).items, fun comma hc => ?_⟩
    split at hc
    · cases hc
      exact hm.offset_le hs
    · cases hc
  · refine .behind fun _ u hm' => .look (.pure ?_)
    have hu := h.move (hm.trans hm') hs
    split
    · exact hu
    · exact hu

theorem commaTurn_gives {close : Kind} {item : Array Node → Parse (Option Node)} {l : Listed}
    {s : ParseState} (hs : s.Ready) (h : l.ReadAt s)
    (hitem : (item l.items).Gives s fun answer t => ∀ n ∈ answer, n.range.pos ≤ t.start.offset) :
    (commaTurn close item l).Gives s (TurnGives Listed.ReadAt Listed.ReadAt) := by
  refine .look (.ite (fun _ => .pure h) fun _ => .look (hitem.bind fun answer t hm hn => ?_))
  cases answer with
  | none => exact .pure (h.move hm hs)
  | some n => exact afterItem_gives (hm.ready hs) ((h.move hm hs).push (hn n rfl))

theorem formalParameter_pos [Recursion] {s : ParseState} :
    (formalParameter ctx).Gives s fun n _ => n.range.pos = s.start.offset :=
  .look <| .behind fun _ _ _ => .behind fun _ _ _ => .behind fun _ _ _ => .behind fun _ _ _ =>
    .behind fun _ _ _ => .behind fun _ _ _ => .behind fun _ _ _ => .observe rfl

theorem listedParameter_gives [Recursion] {before : Array Node} {s : ParseState} (hs : s.Ready) :
    (listedParameter ctx before).Gives s fun answer t =>
      ∀ n ∈ answer, n.range.pos ≤ t.start.offset := by
  refine .look (.ite (fun _ => ?_) fun _ => ?_)
  · refine .behind fun _ t hm => formalParameter_pos.bind fun n u hm' hn => .pure fun n' hn' => ?_
    cases hn'
    exact hn ▸ hm'.offset_le (hm.ready hs)
  · exact .behind fun _ _ _ => .pure nofun

theorem checkRestLast_followsAt {s s' : ParseState} {ns : K.ArrayPair} (hs : K.state s s')
    (hlast : ∀ n ∈ ns.left.back?, n.range.pos ≤ s.start.offset) :
    K.FollowsAt (checkRestLast ns.left) (checkRestLast ns.right) s s' := by
  obtain ⟨last, hleft, hright⟩ := ns.exists_back
  unfold checkRestLast
  rw [← hleft] at hlast ⊢
  rw [← hright]
  cases last with
  | none => exact .pure hs () rfl
  | some n =>
    have hn := n.matched.header
    change K.FollowsAt (if isRest n.left then _ else _)
      (if isRest n.right then reportAt n.right.header.range.toSpan _ _ _ else _) s s'
    rw [n.matched.isRest_eq, hn.range_eq, Range.toSpan_moved]
    exact .ite (.reportAt (.of_header hn) (hlast n.left rfl) hs) (.pure hs () rfl)

theorem checkTrailingComma_followsAt {s s' : ParseState} {l : K.ListedPair} (hs : K.state s s')
    (hcomma : ∀ comma ∈ l.left.trailingComma, comma.start ≤ s.start.offset) :
    K.FollowsAt (checkTrailingComma l.left) (checkTrailingComma l.right) s s' := by
  obtain ⟨items, comma⟩ := l
  obtain ⟨last, hleft, hright⟩ := items.exists_back
  have hrest : items.right.back?.any isRest = items.left.back?.any isRest := by
    rw [← hleft, ← hright]
    cases last with
    | none => rfl
    | some n => exact n.matched.isRest_eq
  cases comma with
  | none => exact .pure hs () rfl
  | some comma =>
    change K.FollowsAt (if items.left.back?.any isRest then _ else _)
      (if items.right.back?.any isRest then _ else _) s s'
    rw [hrest]
    exact .ite (.reportAt comma.property (hcomma _ rfl) hs) (.pure hs () rfl)

theorem listedParameter_followsAt {s s' : ParseState} {ns : K.ArrayPair} (hs : K.state s s')
    (hlast : ∀ n ∈ ns.left.back?, n.range.pos ≤ s.start.offset) :
    K.FollowsAt (@listedParameter R ctx ns.left) (@listedParameter R' ctx' ns.right) s s' := by
  refine .look fun _ => ?_
  rw [(Lawful.aligned hs).token_eq]
  refine .ite (.bind (checkRestLast_followsAt hs hlast) fun _ t t' _ _ ht => ?_) ?_
  · exact (Follows.some formalParameter_follows) t t' ht
  · exact (Follows.same (.reportHere _ _ _) fun _ => .pure (α := Option Node) none rfl) s s' hs

theorem parameterList_follows : K.Follows (@parameterList R ctx) (@parameterList R' ctx') := by
  intro s s' hs
  have hstart : Listed.ReadAt {} s := ⟨nofun, nofun⟩
  have hgives (l : Listed) (t : ParseState) (ht : t.Ready) (h : l.ReadAt t) :
      (commaTurn .closeParenToken (@listedParameter R ctx) l).Gives t
        (TurnGives Listed.ReadAt Listed.ReadAt) :=
    commaTurn_gives ht h (@listedParameter_gives ctx R _ _ ht)
  refine .bind (.loop Listed.ReadAt (ListedPair.empty K) (fun l t t' ht h => ?_) hgives hstart hs)
    fun l t t' hrun _ ht => ?_
  · exact commaTurn_followsAt ht (listedParameter_followsAt ht h.items)
  · have hl := Gives.loop hstart (fun l t hm => hgives l t (hm.ready (Lawful.aligned hs).ready)) hrun
    exact .bind (checkTrailingComma_followsAt ht hl.trailingComma) fun _ u u' _ _ hu => .pure hu l rfl

theorem formalParameters_follows : K.Follows (@formalParameters R ctx) (@formalParameters R' ctx') := by
  refine .bind .mark fun m =>
    .bind (.within _ _ (ListedPair.empty K) rfl parameterList_follows) fun l => ?_
  obtain ⟨qs, hleft, hright⟩ := ListedPair.exists_list l
  rw [ListedPair.hasTrailingComma_left, ListedPair.hasTrailingComma_right, ← hleft, ← hright]
  exact .node m (.formalParameters qs _)

end EcmaSyntax.Grammar
