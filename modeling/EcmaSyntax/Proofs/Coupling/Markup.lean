import EcmaSyntax.Proofs.Coupling.Function

/-! # Elements side by side

Markup elements with their tags, attributes and children. What is wrong with a closing tag is reported
at one of the tags, which have been read. -/
namespace EcmaSyntax
open Parse Grammar

namespace Coupling

/-- Corresponding tags. -/
structure TagPair (K : Coupling) where
  node : K.NodePair
  path : Node.TagPath
  spelling : String

instance (K : Coupling) : Coupled K Tag where
  Pair := K.TagPair
  left tag := ⟨tag.node.left, tag.path, tag.spelling⟩
  right tag := ⟨tag.node.right, tag.path, tag.spelling⟩

namespace TagPair
variable {K : Coupling}

abbrev left (tag : K.TagPair) : Tag := Coupled.left (K := K) tag
abbrev right (tag : K.TagPair) : Tag := Coupled.right (K := K) tag

end TagPair
end Coupling

namespace Grammar
open Coupling
variable {K : Coupling} [K.Lawful] {R R' : Recursion} [K.Recurs R R'] {ctx ctx' : Context}
  [K.Contexts ctx ctx']

/-! ## Tags -/

theorem advanceToChild_follows : K.Follows advanceToChild advanceToChild := .consume _

theorem tagSoFar_follows (m : K.MarkPair) (node : K.NodePair) (path : Node.TagPath) :
    K.Follows (tagSoFar m.left node.left path) (tagSoFar m.right node.right path) := by
  intro s s' hs
  refine .look fun _ => ?_
  rw [Lawful.text_eq m.start (Lawful.aligned hs).full]
  exact .pure hs (TagPair.mk node path _) rfl

omit [K.Lawful] in
theorem textOf_eq (n : K.NodePair) : textOf n.right = textOf n.left :=
  congrArg (Option.getD · "") n.matched.identifierText_eq

theorem hyphenatedName_follows : K.Follows hyphenatedName hyphenatedName :=
  .same (.reread _) fun _ => name_follows

theorem missingTag_follows : K.Follows missingTag missingTag :=
  .bind missingIdentifier_follows fun n => .pure (TagPair.mk n (.plain "") "") rfl

theorem tagTurn_follows (m : K.MarkPair) (tag : K.TagPair) :
    K.Follows (tagTurn m.left tag.left) (tagTurn m.right tag.right) := by
  refine .same (.accept _) fun _ => .ite ?_ (.pure (Turn.done tag) rfl)
  refine .bind name_follows fun member => .bind (.node m (.jsxMemberName tag.node member)) fun both => ?_
  have htext := textOf_eq (K := K) member
  change K.Follows (tagSoFar m.left _ (.member tag.path (textOf member.left)) >>= _)
    (tagSoFar m.right _ (.member tag.path (textOf member.right)) >>= _)
  rw [htext]
  exact .bind (tagSoFar_follows m both _) fun tag => .pure (Turn.again tag) rfl

theorem tagName_follows : K.Follows tagName tagName := by
  refine .bind .mark fun m => .same (.reread _) fun _ => .same .token fun _ => .ite ?_ ?_
  · refine .bind identifierToken_follows fun first => .same (.accept _) fun _ => .ite ?_ ?_
    · refine .bind hyphenatedName_follows fun second =>
        .bind (.node m (.jsxNamespacedName first second)) fun both => ?_
      change K.Follows (tagSoFar m.left _ (.namespaced (textOf first.left) (textOf second.left)))
        (tagSoFar m.right _ (.namespaced (textOf first.right) (textOf second.right)))
      rw [textOf_eq (K := K) first, textOf_eq (K := K) second]
      exact tagSoFar_follows m both _
    · change K.Follows (tagSoFar m.left _ (.plain (textOf first.left)) >>= _)
        (tagSoFar m.right _ (.plain (textOf first.right)) >>= _)
      rw [textOf_eq (K := K) first]
      exact .bind (tagSoFar_follows m first _) fun tag => .loop tag rfl (tagTurn_follows m)
  · exact .same (.reportHere _ _ _) fun _ => missingTag_follows

theorem closeTag_follows (inExpression : Bool) :
    K.Follows (closeTag inExpression) (closeTag inExpression) :=
  .same (.isAt _) fun _ => .ite (.ite .advance advanceToChild_follows) (.reportExpected _)

/-! ## Attributes -/

theorem closeEmbedded_follows (inChildren : Bool) :
    K.Follows (closeEmbedded inChildren) (closeEmbedded inChildren) :=
  .ite (.same (.isAt _) fun _ => .ite advanceToChild_follows (.reportExpected _))
    (.same (.expect _) fun _ => .pure () rfl)

theorem embedded_follows (inChildren : Bool) :
    K.Follows (@embedded R ctx inChildren) (@embedded R' ctx' inChildren) :=
  .bind .mark fun m => .same (.expect _) fun _ =>
    .same (.and (.pure inChildren rfl) (.accept _)) fun spreads =>
      .bind (.unlessAtAny _ expression_follows) fun inner =>
        .same (closeEmbedded_follows inChildren) fun _ => .node m (.jsxExpression spreads inner)

theorem spreadAttribute_follows : K.Follows (@spreadAttribute R ctx) (@spreadAttribute R' ctx') :=
  .bind .mark fun m => .same (.expect _) fun _ => .same (.expect _) fun _ =>
    .bind expression_follows fun inner => .same (.expect _) fun _ =>
      .node m (.jsxSpreadAttribute inner)

theorem attributeValue_follows : K.Follows (@attributeValue R ctx) (@attributeValue R' ctx') := by
  refine .same (.isAt _) fun _ => .ite ?_ (.pure none rfl)
  refine .same (.consume _) fun _ => .same .token fun k => ?_
  split
  · exact .some literal_follows
  · exact .some (embedded_follows false)
  · exact .some (Meets.recur (.element true))
  · exact .same (.reportHere _ _ _) fun _ => .pure none rfl

theorem attributeName_follows : K.Follows attributeName attributeName :=
  .bind .mark fun m => .same (.reread _) fun _ => .bind identifierToken_follows fun first =>
    .same (.accept _) fun _ => .ite
      (.bind hyphenatedName_follows fun second => .node m (.jsxNamespacedName first second))
      (.pure first rfl)

theorem tagAttribute_follows : K.Follows (@tagAttribute R ctx) (@tagAttribute R' ctx') :=
  .same (.isAt _) fun _ => .ite spreadAttribute_follows <| .bind .mark fun m =>
    .bind attributeName_follows fun name => .bind attributeValue_follows fun value =>
      .node m (.jsxAttribute name value)

theorem attributes_follows : K.Follows (@attributes R ctx) (@attributes R' ctx') := by
  refine .bind .mark fun m => .bind (.collect fun ns => ?_) fun found => .node m (.jsxAttributes found)
  refine .same (.isAtAny _) fun _ => .ite (.pure (Turn.done ns) rfl) <| .tokenStart fun start =>
    .same .token fun _ => .same (.isAt _) fun _ => .ite
      (.same (.reportHere _ _ _) fun _ => .pure (Turn.done ns) rfl) ?_
  refine .bind tagAttribute_follows fun n => .tokenStart fun stop => ?_
  have heq : (stop + K.shift == start + K.shift) = (stop == start) := by simp
  rw [heq]
  split
  · exact .pure (Turn.done (ns.push n)) rfl
  · exact .pure (Turn.again (ns.push n)) rfl

/-! ## Children -/

theorem childText_follows : K.Follows childText childText := by
  refine .leaf (fun _ => rfl) fun r r' _ hflags hspelling => ?_
  unfold textForm Reading.text
  rw [hflags, hspelling]

theorem children_follows : K.Follows (@children R ctx) (@children R' ctx') := by
  refine .bind .mark fun m => .bind (.collect fun ns => .same .token fun k => ?_) fun found =>
    .node m (.jsxChildren found)
  split
  · exact .bind childText_follows fun n => .pure (Turn.again (ns.push n)) rfl
  · exact .bind (embedded_follows true) fun n => .pure (Turn.again (ns.push n)) rfl
  · exact .bind (Meets.recur (.element false)) fun n => .pure (Turn.again (ns.push n)) rfl
  · exact .pure (Turn.done ns) rfl
  · exact .pure (Turn.done ns) rfl
  · exact .same advanceToChild_follows fun _ => .pure (Turn.again ns) rfl

/-! ## Closing tags -/

theorem leaf_pos {way : Scanner.Advance} {form : Reading → Form Node} {s : ParseState} :
    (leaf way form).Gives s fun n _ => n.range.pos = s.start.offset :=
  .look <| .look <| .behind fun _ _ _ => .observe rfl

theorem tagSoFar_node {m : Mark} {node : Node} {path : Node.TagPath} {s : ParseState} :
    (tagSoFar m node path).Gives s fun tag _ => tag.node = node := .look (.pure rfl)

theorem tagTurn_pos {m : Mark} {tag : Tag} {n : Nat} {s : ParseState} (hm : m.start.offset ≤ n)
    (h : tag.node.range.pos ≤ n) :
    (tagTurn m tag).Gives s (TurnGives (fun tag _ => tag.node.range.pos ≤ n)
      fun tag _ => tag.node.range.pos ≤ n) := by
  refine .behind fun _ _ _ => .ite (fun _ => .behind fun member t _ => ?_) fun _ => .pure h
  have hnode : (node m (.jsxMemberName tag.node member)).Gives t fun both _ =>
      both.range.pos ≤ n := .observe hm
  refine hnode.bind fun both _ _ hboth => tagSoFar_node.bind fun tag _ _ htag => .pure ?_
  change tag.node.range.pos ≤ n
  exact htag ▸ hboth

/-- The name of a tag has been read before the present token. -/
theorem tagName_gives {s : ParseState} (hs : s.Ready) :
    tagName.Gives s fun tag t => tag.node.range.pos ≤ t.start.offset := by
  refine .look (.behind fun _ t hm => .look (.ite (fun _ => ?_) fun _ => ?_))
  · have ht := hm.ready hs
    suffices h : Gives _ t fun (tag : Tag) _ => tag.node.range.pos ≤ t.start.offset from
      h.mono fun _ _ hm' h => Nat.le_trans h (hm'.offset_le ht)
    refine leaf_pos.bind fun first u _ hfirst => .behind fun _ v _ => .ite (fun _ => ?_) fun _ => ?_
    · refine .behind fun second w _ => ?_
      have hnode : (node s.mark (.jsxNamespacedName first second)).Gives w fun both _ =>
          both.range.pos ≤ t.start.offset := .observe (hm.offset_le hs)
      exact hnode.bind fun both _ _ hboth => tagSoFar_node.mono fun tag _ _ htag => htag ▸ hboth
    · refine tagSoFar_node.bind fun tag w _ htag => ?_
      have htag : tag.node.range.pos ≤ t.start.offset := htag ▸ Nat.le_of_eq hfirst
      exact .loop htag fun _ _ _ h => tagTurn_pos (hm.offset_le hs) h
  · exact .behind fun _ u _ => .look (.pure (Nat.le_refl u.start.offset))

theorem checkClosing_followsAt {s s' : ParseState} {opening tag : K.TagPair} (hs : K.state s s')
    (htag : tag.node.left.range.pos ≤ s.start.offset) :
    K.FollowsAt (checkClosing opening.left tag.left) (checkClosing opening.right tag.right) s s' := by
  have hheader := tag.node.matched.header
  refine .ite ?_ (.pure hs () rfl)
  change K.FollowsAt _ (reportAt tag.node.right.header.range.toSpan _ _ _) s s'
  rw [hheader.range_eq, Range.toSpan_moved]
  exact .reportAt (.of_header hheader) htag hs

theorem closingElement_followsAt {s s' : ParseState} {opening : K.TagPair} (inExpression : Bool)
    (hs : K.state s s') (hopening : opening.node.left.range.pos ≤ s.start.offset) :
    K.FollowsAt (closingElement opening.left inExpression)
      (closingElement opening.right inExpression) s s' := by
  refine .bindFrom hs hopening .mark fun m t t' ht hpos => ?_
  refine .bindFrom ht hpos (.isAt _) fun _ u u' hu hpos => .ite ?_ ?_
  · refine .bind (Follows.advance u u' hu) fun _ v v' _ _ hv => ?_
    refine .bind (tagName_follows v v' hv) fun tag w w' hrun _ hw => ?_
    have htag := tagName_gives (Lawful.aligned hv).ready hrun
    refine .bind (checkClosing_followsAt hw htag) fun _ x x' _ _ hx => ?_
    exact Follows.same (closeTag_follows _) (fun _ => .node m (.jsxClosing tag.node)) x x' hx
  · have hheader := opening.node.matched.header
    change K.FollowsAt _ (reportAt opening.node.right.header.range.toSpan _ _ _ >>= _) u u'
    rw [hheader.range_eq, Range.toSpan_moved]
    refine .bind (.reportAt (.of_header hheader) hpos hu) fun _ v v' _ _ hv => ?_
    exact Follows.bind missingIdentifier_follows (fun n => .missing (.jsxClosing n)) v v' hv

theorem closeFragment_follows (inExpression : Bool) :
    K.Follows (closeFragment inExpression) (closeFragment inExpression) := by
  have hcheck : K.Follows checkFragment checkFragment :=
    .same (.isAt _) fun _ => .ite (.pure () rfl) <| .same (.reportMissing _) fun _ => .same .token fun _ =>
      .ite (.bind tagName_follows fun _ => .pure () rfl) (.pure () rfl)
  exact .same (.isAt _) fun _ => .ite
    (.same .advance fun _ => .same hcheck fun _ => closeTag_follows _) (.reportMissing _)

theorem element_follows (inExpression : Bool) :
    K.Follows (@element R ctx inExpression) (@element R' ctx' inExpression) := by
  refine .bind .mark fun m => .same (.expect _) fun _ => .same (.isAt _) fun _ => .ite ?_ ?_
  · exact .same advanceToChild_follows fun _ => .bind children_follows fun children =>
      .same (closeFragment_follows _) fun _ => .node m (.jsxFragment children)
  intro s s' hs
  refine .bind (tagName_follows s s' hs) fun tag t t' hrun _ ht => ?_
  have hpos := tagName_gives (Lawful.aligned hs).ready hrun
  refine .bindFrom ht hpos (.whenAt _ typeArguments_follows) fun typeArguments u u' hu hpos => ?_
  refine .bindFrom hu hpos attributes_follows fun attributes v v' hv hpos => ?_
  refine .bindFrom hv hpos (.accept _) fun b w w' hw hpos => ?_
  refine .ite (Follows.same (closeTag_follows _) (fun _ =>
    .node m (.jsxOpening true tag.node typeArguments attributes)) w w' hw) ?_
  refine .bindFrom hw hpos (closeTag_follows false) fun _ x x' hx hpos => ?_
  refine .bindFrom hx hpos (.node m (.jsxOpening false tag.node typeArguments attributes))
    fun opening y y' hy hpos => ?_
  refine .bindFrom hy hpos children_follows fun children z z' hz hpos => ?_
  refine .bind (closingElement_followsAt inExpression hz hpos) fun closing a a' _ _ ha => ?_
  exact Follows.node m (.jsxElement opening children closing) a a' ha

end Grammar
end EcmaSyntax
