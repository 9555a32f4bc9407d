import EcmaSyntax.Proofs.Spans

/-! # Errors in trees

A node is marked as erroneous if something has been reported between its ends. The mark of the root
tells whether there are diagnostics, and without them no node is marked and none is missing. A mark
passes from a node to the nodes around it, as these end later; but a report that starts where the
last one did is dropped, and the commas of a parenthesized list are joined without a look at the
operands. -/
namespace EcmaSyntax
open ParseState

namespace Node

/-- Whether a node is an identifier that is not there: without text, or without a place. -/
def isMissing (n : Node) : Bool :=
  match n.form with
  | .identifier _ text _ => text == "" || n.range.pos == n.range.stop
  | _ => false

/-- A node that is neither marked as erroneous nor missing. -/
structure Intact (n : Node) : Prop where
  unmarked : n.hasErrors = false
  present : n.isMissing = false

end Node

/-! ## Headers and names -/

theorem NodeFlag.hasErrors_has : (FlagSet.one NodeFlag.hasErrors).has .hasErrors = true := rfl

/-- A node is marked if there are more diagnostics at its end than there were at its mark. -/
theorem Mark.At.hasErrors {m : Mark} {s : ParseState} (hm : m.At s) (t : ParseState) :
    (t.header m).hasErrors = decide (s.sink.size < t.sink.size) := by
  have hflags := hm.not_hasErrors
  have hreported := hm.reported_eq
  simp_all [Header.hasErrors, ParseState.header, FlagSet.has_when, NodeFlag.hasErrors_has]

theorem Reading.Ready.text_ne_empty {r : Reading} (h : r.Ready) (ht : r.token ≠ .endOfFileToken) :
    r.text ≠ "" := by
  have hlt := h.stop_lt ht
  have hrest : r.start.rest ≠ [] := by
    intro hnil
    have hleft := (Cursor.left_eq_zero h.start_sound).mpr hnil
    omega
  intro htext
  have hspelling : r.spelling = [] := by
    rw [← String.toList_ofList (l := r.spelling)]
    exact congrArg String.toList htext
  rcases List.take_eq_nil_iff.mp hspelling with hzero | hnil
  · omega
  · exact hrest hnil

/-- A leaf that is an identifier has the text of a token that is there. -/
theorem Leaf.identifier_text {faulty : Prop} {r : Reading} {ph : Phrase} {ctx : Context}
    {isPrivate : Bool} {text : String} {word : Option Kind}
    (h : Leaf faulty r ph ctx (.identifier isPrivate text word)) :
    r.token ≠ .endOfFileToken ∧ text = r.text := by
  generalize hform : Form.identifier isPrivate text word = form at h
  have hname (hn : Form.identifier isPrivate text word = Grammar.nameForm r) : text = r.text := by
    unfold Grammar.nameForm at hn
    split at hn <;> cases hn <;> rfl
  have hne {test : Kind → Bool} (htest : test r.token = true)
      (hend : test .endOfFileToken = false) : r.token ≠ .endOfFileToken := by
    intro heq
    rw [heq, hend] at htest
    cases htest
  cases h with
  | literal | keyword | childText => cases hform
  | identifier h => exact ⟨hne h rfl, hname hform⟩
  | name h => exact ⟨hne h rfl, hname hform⟩
  | entityName h => exact ⟨hne h rfl, hname hform⟩
  | subject h => exact ⟨hne h rfl, hname hform⟩
  | privateName h | thisName h => exact ⟨h ▸ by decide, hname hform⟩
  | word h => exact ⟨hne (List.contains_iff_mem.mpr h) rfl, hname hform⟩

/-- What has been consumed ends behind where it starts. -/
theorem ParseState.Ready.consume_wide {s : ParseState} (hs : s.Ready) (way : Scanner.Advance)
    (ht : s.token ≠ .endOfFileToken) : s.start.offset < (s.consume way).full.offset := by
  rw [hs.consume_full way]
  exact (hs.start_stop.offset_lt_iff hs.start_sound).mpr (hs.token.stop_lt ht)

namespace Grammar

theorem simpleParameters_hasErrors (n : Node) :
    (simpleParameters n).hasErrors = n.hasErrors := by
  simp [simpleParameters, Node.hasErrors, Node.header, Header.hasErrors, FlagSet.has_when,
    NodeFlag.hasErrors_has]

theorem commaJoined_hasErrors (left right : Node) :
    (commaJoined left right).hasErrors = false := FlagSet.has_empty _

theorem regroupedHeader_hasErrors (t u : ParseState) (arguments : Node) :
    (regroupedHeader t u arguments).hasErrors =
      (arguments.hasErrors || t.sink.size < u.sink.size) := by
  simp [regroupedHeader, Header.hasErrors, FlagSet.has_when, NodeFlag.hasErrors_has]

end Grammar

/-! ## Trees without diagnostics -/

theorem Production.present {faulty : Prop} {ph : Phrase} {ctx : Context} {form : Form Node}
    {ps : List Part} (h : Production faulty ph ctx form ps) (header : Header) :
    (Node.mk header form).isMissing = false := by
  cases h <;> rfl

/-- A leaf that has been consumed is there. -/
theorem Leaf.present {s : ParseState} {m : Mark} {faulty : Prop} {ph : Phrase} {ctx : Context}
    {form : Form Node} (hl : Leaf faulty s.reading ph ctx form) (hs : s.Ready) (hm : m.At s)
    (way : Scanner.Advance) : (Node.mk ((s.consume way).header m) form).isMissing = false := by
  cases form with
  | identifier isPrivate text word =>
    obtain ⟨hne, rfl⟩ := hl.identifier_text
    have htext := hs.token.text_ne_empty hne
    have hwide := hs.consume_wide way hne
    have hstop : s.start.offset ≠ max (s.consume way).full.offset s.start.offset := by omega
    simp [Node.isMissing, Node.form, Node.range, Node.header, ParseState.header, hm.start_eq,
      htext, hstop]
  | _ => rfl

namespace Derived
open Grammar
variable {s t : ParseState} {ps : List Part}

/-- Where nothing has been reported, all nodes are intact. -/
theorem intact (h : Derived s ps t) (hs : s.Ready) (ht : t.sink = ∅) :
    ∀ p ∈ ps, ∀ n : Node, n.Within p.node → n.Intact := by
  have hsize {s t : ParseState} (ht : t.sink = ∅) : decide (s.sink.size < t.sink.size) = false := by
    rw [ht]
    exact decide_eq_false (Nat.not_lt_zero _)
  refine h.forall_within hs ht (fun _ _ hv hm _ hp _ => ?_) (fun hu hv hm hl => ?_)
    (fun n hn => ?_) (fun _ hu harguments => ?_) fun left right => ?_
  · exact ⟨(hm.hasErrors _).trans (hsize hv), hp.present _⟩
  · exact ⟨(hm.hasErrors _).trans (hsize hv), hl.present hu hm _⟩
  · exact ⟨(simpleParameters_hasErrors n).trans hn.unmarked, rfl⟩
  · refine ⟨(regroupedHeader_hasErrors _ _ _).trans ?_, rfl⟩
    rw [harguments.unmarked, hsize hu]
    rfl
  · exact ⟨commaJoined_hasErrors left right, rfl⟩

end Derived

/-- A tree is made of parts that have been derived from the first token on. -/
theorem parse_derived (source : String) (options : ParseOptions) :
    ∃ (statements : List Node) (ps : List Part) (t : ParseState),
      (parse source options).root =
        .mk (rootHeader source t.sink) (.sourceBody options.goal statements) ∧
      (parse source options).diagnostics = t.sink ∧
      (parse source options).root.children = ps.map Part.node ∧
      Derived (.firstToken source.toList) ps t := by
  obtain ⟨statements, t, hrun, hbody, -⟩ :=
    Grammar.source_reads (.ofOptions options) source.toList
  have hparse : parse source options =
      ⟨.mk (rootHeader source t.sink) (.sourceBody options.goal statements), t.sink⟩ := by
    rw [parse, show run source options = some (statements, t) from hrun]
  refine ⟨statements, _, t, ?_, ?_, ?_, hbody.derived⟩
  · rw [hparse]
  · rw [hparse]
  · rw [hparse, Part.body_nodes]
    exact List.append_nil statements

theorem Sink.size_eq_zero {s : Sink} : s.size = 0 ↔ s = ∅ := by
  obtain ⟨entries⟩ := s
  simp [size, EmptyCollection.emptyCollection]

/-- The root is marked if there are diagnostics. -/
theorem parse_root_hasErrors (source : String) (options : ParseOptions) :
    (parse source options).root.hasErrors = decide (0 < (parse source options).diagnostics.size) := by
  obtain ⟨statements, ps, t, hroot, hsink, -⟩ := parse_derived source options
  rw [hroot, hsink]
  have hempty : (!t.sink.isEmpty) = decide (0 < t.sink.size) := by
    rw [Bool.eq_iff_iff]
    simp [Sink.isEmpty, Sink.size, Array.size_pos_iff]
  have hhas : (rootHeader source t.sink).hasErrors = !t.sink.isEmpty := by
    simp [rootHeader, Header.hasErrors, FlagSet.has_when, NodeFlag.hasErrors_has]
  exact hhas.trans hempty

/-- Without diagnostics no node of a tree is marked or missing, and with diagnostics the root is
marked. -/
theorem parse_marks_sound (source : String) (options : ParseOptions) :
    ((parse source options).diagnostics = ∅ →
      ∀ n : Node, n.Within (parse source options).root → n.Intact) ∧
    ((parse source options).diagnostics ≠ ∅ → (parse source options).root.hasErrors = true) := by
  obtain ⟨statements, ps, t, hroot, hsink, hchildren, hparts⟩ := parse_derived source options
  have hmark := parse_root_hasErrors source options
  refine ⟨fun hclean n hn => ?_, fun hfaulty => ?_⟩
  · rcases Node.within_iff.mp hn with rfl | ⟨c, hc, hn⟩
    · rw [Sink.size_eq_zero.mpr hclean] at hmark
      refine ⟨hmark, ?_⟩
      rw [hroot]
      rfl
    · obtain ⟨p, hp, rfl⟩ := List.mem_map.mp (hchildren ▸ hc)
      exact hparts.intact inferInstance (hsink.symm.trans hclean) p hp n hn
  · refine hmark.trans (decide_eq_true (Nat.pos_of_ne_zero fun hzero => hfaulty ?_))
    exact Sink.size_eq_zero.mp hzero

/-- A comma between two names, and one without a name behind it. -/
theorem clean_and_faulty_marks :
    (∃ n : Node, n.Within (parse "a, b;" {}).root ∧ n.kind = .binaryExpression ∧ n.Intact) ∧
    (parse "a, ;" {}).root.hasErrors = true := by
  constructor
  · have hclean : (parse "a, b;" {}).diagnostics = ∅ := by decide +kernel
    have hfind : ((parse "a, b;" {}).root.at? [("statements", 0), ("expression", 0)]).any
        (·.kind == .binaryExpression) = true := by decide +kernel
    obtain ⟨n, hn, hkind⟩ := Node.within_of_any hfind
    exact ⟨n, hn, eq_of_beq hkind, (parse_marks_sound _ _).1 hclean n hn⟩
  · exact (parse_marks_sound "a, ;" {}).2 (by decide +kernel)

/-! ## Marks of inner nodes -/

/-- The tree holds a marked node that spans some text. -/
def Node.HoldsErrors (n : Node) : Prop :=
  ∃ m : Node, m.Within n ∧ m.hasErrors = true ∧ m.range.pos < m.range.stop

/-- Nodes around a marked node are marked, if they are no commas of a parenthesized list. -/
def Node.PassesMarks (n : Node) : Prop :=
  ∀ m : Node, m.Within n → m.HoldsErrors →
    m.hasErrors = true ∨ ∃ left right, m = Grammar.commaJoined left right

namespace Node
variable {n m : Node}

theorem HoldsErrors.of_within (h : m.HoldsErrors) (hm : m.Within n) : n.HoldsErrors := by
  obtain ⟨e, he, herror, hwide⟩ := h
  exact ⟨e, he.trans hm, herror, hwide⟩

/-- What is marked in a tree is its root, or lies beneath a child. -/
theorem HoldsErrors.root_or_child (h : n.HoldsErrors) :
    (n.hasErrors = true ∧ n.range.pos < n.range.stop) ∨ ∃ c ∈ n.children, c.HoldsErrors := by
  obtain ⟨e, he, herror, hwide⟩ := h
  rcases Node.within_iff.mp he with rfl | ⟨c, hc, he⟩
  · exact .inl ⟨herror, hwide⟩
  · exact .inr ⟨c, hc, e, he, herror, hwide⟩

theorem PassesMarks.intro (hroot : n.HoldsErrors → n.hasErrors = true)
    (hchildren : ∀ c ∈ n.children, c.PassesMarks) : n.PassesMarks := by
  intro m hm herrors
  rcases Node.within_iff.mp hm with rfl | ⟨c, hc, hm⟩
  · exact .inl (hroot herrors)
  · exact hchildren c hc m hm herrors

end Node

theorem Moves.size_le {s t : ParseState} (h : Moves s t) : s.sink.size ≤ t.sink.size := by
  rw [← Sink.length_toList, ← Sink.length_toList]
  exact h.sink_extends.length_le

namespace Grammar

/-- A missing node spans no text. -/
theorem missing_not_holdsErrors (u : ParseState) {form : Form Node}
    (h : ∀ c ∈ form.children, ¬ c.HoldsErrors) :
    ¬ (Node.mk u.missingHeader form).HoldsErrors := by
  intro herrors
  rcases herrors.root_or_child with ⟨-, hwide⟩ | ⟨c, hc, herrors⟩
  · exact absurd hwide (Nat.lt_irrefl _)
  · exact h c hc herrors

/-- What is marked in an expression that is made of a list is marked in the list. -/
theorem Regrouped.holdsErrors {u : ParseState} {arguments inner : Node}
    (h : Regrouped u arguments inner) (herrors : inner.HoldsErrors) : arguments.HoldsErrors := by
  obtain ⟨e, he, herror, hwide⟩ := herrors
  rcases h.within he with he | ⟨left, right, rfl⟩ | ⟨-, rfl⟩
  · exact ⟨e, he, herror, hwide⟩
  · rw [commaJoined_hasErrors] at herror
    cases herror
  · exact absurd hwide (Nat.lt_irrefl _)

theorem Regrouped.passesMarks {u : ParseState} {arguments inner : Node}
    (h : Regrouped u arguments inner) (hpasses : arguments.PassesMarks) : inner.PassesMarks := by
  intro m hm herrors
  rcases h.within hm with hm | hcomma | ⟨-, rfl⟩
  · exact hpasses m hm herrors
  · exact .inr hcomma
  · exact absurd herrors (missing_not_holdsErrors u nofun)

end Grammar

/-- If a tree that has been read between two numbers of diagnostics holds marked nodes, it is marked
and there are more diagnostics than before. -/
structure Node.Marked (before after : Nat) (n : Node) : Prop where
  reported : n.HoldsErrors → n.hasErrors = true ∧ before < after
  passes : n.PassesMarks

namespace Node.Marked
variable {before before' after after' : Nat} {n : Node} {ps : List Part}

theorem widen (h : n.Marked before after) (hbefore : before' ≤ before) (hafter : after ≤ after') :
    n.Marked before' after' := by
  refine ⟨fun herrors => ?_, h.passes⟩
  obtain ⟨hmarked, hlt⟩ := h.reported herrors
  exact ⟨hmarked, by omega⟩

/-- A node whose mark tells whether something has been reported since it began. -/
theorem of_children (hmark : n.hasErrors = decide (before < after))
    (hchildren : n.children = ps.map Part.node) (hps : ∀ p ∈ ps, p.node.Marked before after) :
    n.Marked before after := by
  have hchild {c : Node} (hc : c ∈ n.children) : ∃ p ∈ ps, p.node = c :=
    List.mem_map.mp (hchildren ▸ hc)
  have hreported (herrors : n.HoldsErrors) : before < after := by
    rcases herrors.root_or_child with ⟨hmarked, -⟩ | ⟨c, hc, herrors⟩
    · exact of_decide_eq_true (hmark.symm.trans hmarked)
    · obtain ⟨p, hp, rfl⟩ := hchild hc
      exact ((hps p hp).reported herrors).2
  have hmarked (h : before < after) : n.hasErrors = true := hmark.trans (decide_eq_true h)
  refine ⟨fun h => ⟨hmarked (hreported h), hreported h⟩, ?_⟩
  refine .intro (fun h => hmarked (hreported h)) fun c hc => ?_
  obtain ⟨p, hp, rfl⟩ := hchild hc
  exact (hps p hp).passes

end Node.Marked

namespace Derived
open Grammar
variable {s t : ParseState} {ps : List Part}

theorem marked (h : Derived s ps t) : ∀ p ∈ ps, p.node.Marked s.sink.size t.sink.size := by
  induction h with
  | nil => exact nofun
  | append hd hd' _ ih ih' =>
    intro p hp
    rcases List.mem_append.mp hp with hp | hp
    · exact (ih p hp).widen (Nat.le_refl _) hd'.moves.size_le
    · exact (ih' p hp).widen hd.moves.size_le (Nat.le_refl _)
  | node hm _ hp _ ih =>
    exact List.forall_mem_singleton.mpr (.of_children (hm.hasErrors _) hp.children_eq ih)
  | @leaf s m ph ctx form way hm hl =>
    rw [List.forall_mem_singleton]
    have hchildren : form.children = [].map Part.node := hl.children_eq
    exact .of_children (hm.hasErrors _) hchildren nofun
  | @missing s ph ctx form ps hf _ ha ih =>
    rw [List.forall_mem_singleton]
    have hnone {c : Node} (hc : c ∈ form.children) : ¬ c.HoldsErrors ∧ c.PassesMarks := by
      rw [ha.children_eq] at hc
      obtain ⟨p, hp, rfl⟩ := List.mem_map.mp hc
      exact ⟨fun h => absurd ((ih p hp).reported h).2 (Nat.lt_irrefl _), (ih p hp).passes⟩
    have hnot : ¬ (Node.mk s.missingHeader form).HoldsErrors := missing_not_holdsErrors s fun c hc =>
      (hnone hc).1
    exact ⟨fun h => absurd h hnot, .intro (fun h => absurd h hnot) fun c hc => (hnone hc).2⟩
  | serve _ _ ih =>
    have hn := List.forall_mem_singleton.mp ih
    exact List.forall_mem_singleton.mpr hn
  | @simple s t ctx n _ ih =>
    have hn := List.forall_mem_singleton.mp ih
    have hchildren : (simpleParameters n).children = [n] := rfl
    have hmarked := simpleParameters_hasErrors n
    have hinner (h : (simpleParameters n).HoldsErrors) : n.HoldsErrors := by
      rcases h.root_or_child with ⟨hm, hwide⟩ | ⟨c, hc, h⟩
      · exact ⟨n, .root, hmarked ▸ hm, hwide⟩
      · exact List.mem_singleton.mp hc ▸ h
    have hreported (h : (simpleParameters n).HoldsErrors) :
        (simpleParameters n).hasErrors = true ∧ s.sink.size < t.sink.size :=
      hmarked.symm ▸ hn.reported (hinner h)
    refine List.forall_mem_singleton.mpr ⟨hreported, ?_⟩
    exact .intro (fun h => (hreported h).1) (List.forall_mem_singleton.mpr hn.passes)
  | @parenthesized s t u ctx arguments inner hd hm hr ih =>
    have hlist := List.forall_mem_singleton.mp ih
    have hsize := hd.moves.size_le
    have hsize' := hm.size_le
    have hmarked : (regroupedHeader t u arguments).hasErrors = _ := regroupedHeader_hasErrors t u _
    have hreported (h : (Node.mk (regroupedHeader t u arguments) (.parenthesized inner)).HoldsErrors) :
        (regroupedHeader t u arguments).hasErrors = true ∧ s.sink.size < u.sink.size := by
      -- the list is marked, or something has been reported about its elements
      have hcases : arguments.HoldsErrors ∨ t.sink.size < u.sink.size := by
        rcases h.root_or_child with ⟨hmark, hwide⟩ | ⟨c, hc, h⟩
        · have hmark := hmarked.symm.trans hmark
          rw [Bool.or_eq_true, decide_eq_true_eq] at hmark
          exact hmark.imp (fun h => ⟨arguments, .root, h, hwide⟩) id
        · exact .inl (hr.holdsErrors (List.mem_singleton.mp hc ▸ h))
      rw [hmarked, Bool.or_eq_true, decide_eq_true_eq]
      rcases hcases with h | h
      · obtain ⟨hlisted, hlt⟩ := hlist.reported h
        exact ⟨.inl hlisted, by omega⟩
      · exact ⟨.inr h, by omega⟩
    refine List.forall_mem_singleton.mpr ⟨hreported, ?_⟩
    exact .intro (fun h => (hreported h).1)
      (List.forall_mem_singleton.mpr (hr.passesMarks hlist.passes))
  | deeper _ _ ih =>
    have hn := List.forall_mem_singleton.mp ih
    exact List.forall_mem_singleton.mpr hn

end Derived

/-- A marked node that spans some text passes its mark on to all nodes around it, except for the
commas of a parenthesized list. -/
theorem parse_marks_rise (source : String) (options : ParseOptions) {m n : Node}
    (hm : m.Within (parse source options).root) (hn : n.Within m) (herror : n.hasErrors = true)
    (hwide : n.range.pos < n.range.stop) :
    m.hasErrors = true ∨ ∃ left right, m = Grammar.commaJoined left right := by
  obtain ⟨statements, ps, t, hroot, hsink, hchildren, hparts⟩ := parse_derived source options
  have hmark := parse_root_hasErrors source options
  rw [hsink] at hmark
  have hmarked : (parse source options).root.Marked 0 t.sink.size :=
    .of_children hmark hchildren fun p hp =>
      (hparts.marked p hp).widen (Nat.zero_le _) (Nat.le_refl _)
  exact hmarked.passes m hm ⟨n, hn, herror, hwide⟩

/-- A statement around an access without a name. -/
theorem nameless_access_rises : ∃ m n : Node, m.Within (parse "a.;" {}).root ∧ n.Within m ∧
    n.hasErrors = true ∧ n.range.pos < n.range.stop ∧
    (m.hasErrors = true ∨ ∃ left right, m = Grammar.commaJoined left right) := by
  have hfind : ((parse "a.;" {}).root.at? [("statements", 0)]).any (fun m =>
      (m.at? [("expression", 0)]).any fun n => n.hasErrors && n.range.pos < n.range.stop) = true := by
    decide +kernel
  obtain ⟨m, hm, hn⟩ := Node.within_of_any hfind
  obtain ⟨n, hn, h⟩ := Node.within_of_any hn
  obtain ⟨herror, hwide⟩ := (Bool.and_eq_true _ _).mp h
  have hwide := of_decide_eq_true hwide
  exact ⟨m, n, hm, hn, herror, hwide, parse_marks_rise _ _ hm hn herror hwide⟩

/-- A mark stays below the comma of a parenthesized list, and below a statement whose only report
starts where the last one did. -/
theorem marks_stay_below :
    (∃ m n : Node, m.Within (parse "(a., b);" {}).root ∧ n.Within m ∧
      n.hasErrors = true ∧ n.range.pos < n.range.stop ∧ m.hasErrors = false) ∧
    ∃ m n : Node, m.Within (parse "a enum;" {}).root ∧ n.Within m ∧
      n.hasErrors = true ∧ m.hasErrors = false := by
  constructor
  · have hfind : ((parse "(a., b);" {}).root.at? [("statements", 0), ("expression", 0),
        ("expression", 0)]).any (fun m => !m.hasErrors && (m.at? [("left", 0)]).any fun n =>
          n.hasErrors && n.range.pos < n.range.stop) = true := by decide +kernel
    obtain ⟨m, hm, hmn⟩ := Node.within_of_any hfind
    obtain ⟨hmark, hn⟩ := (Bool.and_eq_true _ _).mp hmn
    obtain ⟨n, hn, h⟩ := Node.within_of_any hn
    obtain ⟨herror, hwide⟩ := (Bool.and_eq_true _ _).mp h
    exact ⟨m, n, hm, hn, herror, of_decide_eq_true hwide, (Bool.not_eq_true' _).mp hmark⟩
  · have hfind : ((parse "a enum;" {}).root.at? [("statements", 1)]).any (fun m =>
        !m.hasErrors && (m.at? [("expression", 0)]).any fun n => n.hasErrors) = true := by
      decide +kernel
    obtain ⟨m, hm, hmn⟩ := Node.within_of_any hfind
    obtain ⟨hmark, hn⟩ := (Bool.and_eq_true _ _).mp hmn
    obtain ⟨n, hn, herror⟩ := Node.within_of_any hn
    exact ⟨m, n, hm, hn, herror, (Bool.not_eq_true' _).mp hmark⟩

end EcmaSyntax
