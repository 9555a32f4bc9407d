import EcmaSyntax.Proofs.Errors
import EcmaSyntax.Proofs.Token.Session

/-! # Ranges and texts of nodes

Whatever a source is like, the range of a node of its tree lies between two characters, and the text
of a leaf is what stands there. A text is empty only where something is missing. A name keeps the
keyword that it is spelled like. Nodes need not lie within the nodes around them where something has
been reported, but they stand one behind the other, and this is enough for the ranges that are put
together from two nodes. -/
namespace EcmaSyntax
open ParseState

/-- A range that begins and ends between characters of a source. -/
structure Range.Fits (r : Range) (source : String) : Prop where
  pos_le_stop : r.pos ≤ r.stop
  stop_le_size : r.stop ≤ source.utf8ByteSize
  pos_valid : String.Pos.Raw.IsValid source ⟨r.pos⟩
  stop_valid : String.Pos.Raw.IsValid source ⟨r.stop⟩

theorem Range.Fits.of_valid {r : Range} {source : String} (hle : r.pos ≤ r.stop)
    (hpos : String.Pos.Raw.IsValid source ⟨r.pos⟩)
    (hstop : String.Pos.Raw.IsValid source ⟨r.stop⟩) : r.Fits source :=
  ⟨hle, hstop.le_utf8ByteSize, hpos, hstop⟩

theorem Range.Covers.fits {r : Range} {source text : String} (h : r.Covers source text) :
    r.Fits source := ⟨h.pos_le_stop, h.stop_le_size, h.pos_valid, h.stop_valid⟩

namespace Node

/-- The text of a leaf. -/
def text? (n : Node) : Option String :=
  match n.form with
  | .identifier _ text _ | .literal _ text _ | .jsxText text _ => some text
  | _ => none

/-- A node tells where it stands in a source, and what stands there if it is a leaf. -/
structure Faithful (source : String) (n : Node) : Prop extends n.range.Fits source where
  text_covered : ∀ text, n.text? = some text → n.range.Covers source text
  missing : n.text? = some "" → n.range.pos = n.range.stop ∧ n.hasErrors = true
  word_eq : ∀ text word, n.form = .identifier false text word → text ≠ "" →
    word = Kind.ofKeyword? text

theorem Faithful.textless {source : String} {n : Node} (h : n.range.Fits source)
    (htext : n.text? = none) : n.Faithful source := by
  refine ⟨h, fun text ht => ?_, fun ht => ?_, fun text word hform => ?_⟩
  · cases htext.symm.trans ht
  · cases htext.symm.trans ht
  · simp [text?, hform] at htext

end Node

/-! ## Beginnings in order -/

namespace Node

/-- Nodes that stand one behind the other between two offsets, and so at every depth. They need not
end before the nodes around them do. -/
inductive Begun : Nat → List Node → Nat → Prop
  | nil {lo hi} : lo ≤ hi → Begun lo [] hi
  | cons {lo mid hi n ns} : lo ≤ n.range.pos → n.range.stop ≤ mid →
      Begun n.range.pos n.children mid → Begun mid ns hi → Begun lo (n :: ns) hi

namespace Begun
variable {lo lo' mid hi hi' : Nat} {n m : Node} {ns ns' : List Node}

theorem le (h : Begun lo ns hi) : lo ≤ hi := by
  induction h with
  | nil h => exact h
  | cons hpos _ _ _ ih ih' => omega

theorem widen (h : Begun lo ns hi) (hlo : lo' ≤ lo) (hhi : hi ≤ hi') : Begun lo' ns hi' := by
  induction h generalizing lo' hi' with
  | nil h => exact .nil (by omega)
  | cons hpos hstop hin _ _ ih =>
    exact .cons (Nat.le_trans hlo hpos) hstop hin (ih (Nat.le_refl _) hhi)

theorem append (h : Begun lo ns mid) (h' : Begun mid ns' hi) : Begun lo (ns ++ ns') hi := by
  induction h with
  | nil h => exact h'.widen h (Nat.le_refl _)
  | cons hpos hstop hin _ _ ih => exact .cons hpos hstop hin (ih h')

theorem single (hstop : n.range.stop ≤ hi) (h : Begun n.range.pos n.children hi) :
    Begun n.range.pos [n] hi :=
  .cons (Nat.le_refl _) hstop h (.nil (Nat.le_refl _))

theorem pos_le (h : Begun lo [n] hi) : lo ≤ n.range.pos ∧ n.range.pos ≤ hi := by
  obtain _ | ⟨hpos, -, hin, hrest⟩ := h
  have hin := hin.le
  have hrest := hrest.le
  omega

theorem stop_le (h : Begun lo [n] hi) : n.range.stop ≤ hi := by
  obtain _ | ⟨-, hstop, -, hrest⟩ := h
  exact Nat.le_trans hstop hrest.le

/-- One node of those in order. -/
theorem pick (h : Begun lo ns hi) (hn : n ∈ ns) : Begun lo [n] hi := by
  induction h with
  | nil => cases hn
  | cons hpos hstop hin hrest _ ih =>
    rcases List.mem_cons.mp hn with rfl | hn
    · exact .cons hpos hstop hin (.nil hrest.le)
    · exact (ih hn).widen (Nat.le_trans hpos hin.le) (Nat.le_refl _)

/-- A child in place of its node. -/
theorem child (h : Begun lo [n] hi) (hc : m ∈ n.children) : Begun lo [m] hi := by
  obtain _ | ⟨hpos, -, hin, hrest⟩ := h
  exact (hin.pick hc).widen hpos hrest.le

/-- Another node at the same place. -/
theorem rewrap (h : Begun lo [n] hi) (hrange : m.range = n.range)
    (hin : Begun n.range.pos m.children hi) : Begun lo [m] hi :=
  .cons (hrange ▸ h.pos_le.1) (hrange ▸ h.stop_le) (hrange ▸ hin) (.nil (Nat.le_refl _))

theorem inner (h : Begun lo [n] hi) : Begun n.range.pos n.children hi := by
  obtain _ | ⟨-, -, hin, hrest⟩ := h
  exact hin.widen (Nat.le_refl _) hrest.le

/-- A node within another one. -/
theorem within (h : Begun lo [n] hi) (hm : m.Within n) : Begun n.range.pos [m] hi := by
  induction hm with
  | root => exact .single h.stop_le h.inner
  | child _ hc ih => exact (ih h).child hc

end Begun
end Node

open Node

namespace Grammar
variable {lo hi : Nat}

theorem begun_element {e : Node} (h : Begun lo [e] hi) : Begun lo [elementExpression e] hi := by
  unfold elementExpression
  split
  case h_1 hform =>
    exact h.child
      (by simp [Node.children, hform, Form.children, Form.fields, Field.children])
  · exact h

theorem begun_elements {es : List Node} (h : Begun lo es hi) :
    Begun lo (es.map elementExpression) hi := by
  induction h with
  | nil h => exact .nil h
  | cons hpos hstop hin _ _ ih =>
    exact .append (begun_element (.cons hpos hstop hin (.nil (Nat.le_refl _)))) ih

/-- A comma stands for the two nodes around it. -/
theorem begun_comma {first second : Node} {rest : List Node}
    (h : Begun lo (first :: second :: rest) hi) :
    first.range.pos ≤ second.range.pos ∧ Begun lo (commaJoined first second :: rest) hi := by
  obtain _ | ⟨hpos, hstop, hfirst, hmore⟩ := h
  obtain _ | ⟨hpos', hstop', hsecond, hrest⟩ := hmore
  have hboth : Begun first.range.pos [first, second] _ :=
    .append (.single hstop hfirst) (.cons hpos' hstop' hsecond (.nil (Nat.le_refl _)))
  exact ⟨Nat.le_trans hfirst.le hpos', .cons hpos hstop' hboth hrest⟩

/-- Joining nodes by commas keeps their beginnings in order. -/
theorem begun_joined {first : Node} {rest : List Node} (h : Begun lo (first :: rest) hi) :
    Begun lo [rest.foldl commaJoined first] hi := by
  induction rest generalizing first with
  | nil => exact h
  | cons second rest ih => exact ih (begun_comma h).2

theorem Regrouped.begun {u : ParseState} {arguments inner : Node} (h : Regrouped u arguments inner)
    (hin : Begun lo arguments.children hi) (hu : hi ≤ u.start.offset) :
    Begun lo [inner] u.start.offset := by
  cases h with
  | missing =>
    exact .cons (Nat.le_trans hin.le hu) (Nat.le_refl _) (.nil (Nat.le_refl _)) (.nil (Nat.le_refl _))
  | joined hmap _ =>
    rcases argumentElements_eq arguments with heq | heq
    · have helements := begun_elements hin
      rw [← heq, hmap] at helements
      exact (begun_joined helements).widen (Nat.le_refl _) hu
    · rw [heq] at hmap
      cases hmap

end Grammar

open Grammar

/-- A node ends before the token behind it. -/
theorem ParseState.header_stop_le {m : Mark} {s t : ParseState} (hm : m.At s) (h : Moves s t)
    (hs : s.Ready) : (t.header m).range.stop ≤ t.start.offset := by
  have hready := h.ready hs
  rw [hm.range_eq]
  exact Nat.max_le.mpr ⟨hready.full_start.offset_le hready.full_sound,
    (h.start_reaches hs).offset_le hs.start_sound⟩

theorem Derived.begun {s t : ParseState} {ps : List Part} (h : Derived s ps t) (hs : s.Ready) :
    Begun s.start.offset (ps.map Part.node) t.start.offset := by
  induction h with
  | nil hm => exact .nil ((hm.start_reaches hs).offset_le hs.start_sound)
  | append hd _ _ ih ih' =>
    rw [List.map_append]
    exact (ih hs).append (ih' (hd.moves.ready hs))
  | @node s t m ph ctx form ps hm hd hp _ ih =>
    have hin := ih hs
    have hstop := header_stop_le hm hd.moves hs
    rw [← hp.children_eq, ← hm.start_eq] at hin
    rw [← hm.start_eq]
    exact .single (n := .mk (t.header m) form) hstop hin
  | @leaf s m ph ctx form way hm hl =>
    have hmoves : Moves s (s.consume way) := .single (.consume way s)
    have hle := (hmoves.start_reaches hs).offset_le hs.start_sound
    have hin : Begun s.start.offset form.children (s.consume way).start.offset := by
      rw [hl.children_eq]
      exact .nil hle
    have hstop := header_stop_le hm hmoves hs
    rw [← hm.start_eq] at hin ⊢
    exact .single (n := .mk ((s.consume way).header m) form) hstop hin
  | @missing s ph ctx form ps _ _ ha ih =>
    have hin := ih hs
    rw [← ha.children_eq] at hin
    exact .single (n := .mk s.missingHeader form) (Nat.le_refl _) hin
  | serve _ _ ih => exact ih hs
  | @simple s t ctx n _ ih =>
    exact (ih hs).rewrap rfl (.single (ih hs).stop_le (ih hs).inner)
  | @parenthesized s t u ctx arguments inner hd hm hr ih =>
    have hlist : Begun s.start.offset [arguments] t.start.offset := ih hs
    have hready := hd.moves.ready hs
    have hle := (hm.start_reaches hready).offset_le hready.start_sound
    exact (hlist.widen (Nat.le_refl _) hle).rewrap rfl (hr.begun hlist.inner hle)
  | deeper _ _ ih => exact ih hs.deeper

/-! ## States in a source -/

theorem Step.placed {source : String} {s t : ParseState} (h : Step s t)
    (hs : s.reading.Placed source) : t.reading.Placed source := by
  cases h with
  | flush => exact hs
  | consume way => exact Scanner.advance_placed (s := s.flush.scanner) way hs
  | reread way => exact Scanner.reread_placed way hs
  | push d =>
    unfold ParseState.push
    split <;> exact hs
  | reportLimit =>
    unfold ParseState.reportLimit
    split <;> exact hs

theorem Moves.placed {source : String} {s t : ParseState} (h : Moves s t)
    (hs : s.reading.Placed source) : t.reading.Placed source :=
  h.preserves (fun step hs => step.placed hs) hs

theorem firstToken_placed (source : String) :
    (ParseState.firstToken source.toList).reading.Placed source :=
  Scanner.advance_placed (s := (ParseState.ofText source.toList).flush.scanner) .expression
    (Scanner.skipShebang_placed source)

namespace ParseState
variable {source : String} {s t : ParseState} {m : Mark} {form : Form Node}

/-- A node between two states lies in the source. -/
theorem header_fits (hm : m.At s) (hs : s.reading.Placed source) (ht : t.reading.Placed source) :
    (t.header m).range.Fits source := by
  have hpos : String.Pos.Raw.IsValid source ⟨s.start.offset⟩ := hs.faithful.start_valid
  have hfull : String.Pos.Raw.IsValid source ⟨t.full.offset⟩ := ht.faithful.full_valid
  rw [← hm.start_eq] at hpos
  refine .of_valid (Nat.le_max_right _ _) hpos ?_
  change String.Pos.Raw.IsValid source ⟨max t.full.offset m.start.offset⟩
  rcases Nat.le_total t.full.offset m.start.offset with hle | hle
  · rwa [Nat.max_eq_right hle]
  · rwa [Nat.max_eq_left hle]

/-- What is missing stands between characters. -/
theorem missing_covers (hs : s.reading.Placed source) :
    s.missingHeader.range.Covers source "" := by
  have hcovers := hs.reaches_start.covers (.refl _)
  rw [Cursor.textTo, Nat.sub_self, List.take_zero] at hcovers
  exact hcovers

end ParseState

/-! ## Leaves -/

namespace Leaf
variable {faulty : Prop} {r : Reading} {ph : Phrase} {ctx : Context} {form : Form Node}

/-- A leaf that is an identifier is made of a token that is spelled like one. -/
theorem name_token {isPrivate : Bool} {text : String} {word : Option Kind}
    (h : Leaf faulty r ph ctx (.identifier isPrivate text word)) :
    Form.identifier isPrivate text word = Grammar.nameForm r ∧
      (r.token.isName = true ∨ r.token = .privateIdentifier) := by
  generalize hform : Form.identifier isPrivate text word = form at h ⊢
  cases h with
  | identifier hk =>
    unfold Grammar.admits at hk
    split at hk
    case h_1 heq => exact ⟨rfl, .inl (heq ▸ by decide)⟩
    case h_2 heq => exact ⟨rfl, .inl (heq ▸ by decide)⟩
    case h_3 => exact ⟨rfl, .inl (Kind.isName_of_identifierLike hk)⟩
  | name hk => exact ⟨rfl, .inl hk⟩
  | privateName hk => exact ⟨rfl, .inr hk⟩
  | word hk =>
    refine ⟨rfl, .inl ?_⟩
    simp only [List.mem_cons, List.not_mem_nil, or_false] at hk
    rcases hk with hk | hk | hk <;> rw [hk] <;> decide
  | thisName hk => exact ⟨rfl, .inl (hk ▸ by decide)⟩
  | entityName hk => exact ⟨rfl, .inl (Kind.isName_of_identifierLike hk)⟩
  | subject hk =>
    rw [Grammar.isSubject, Bool.or_eq_true, beq_iff_eq] at hk
    exact ⟨rfl, .inl (hk.elim Kind.isName_of_identifierLike fun hk => hk ▸ by decide)⟩
  | literal | keyword | childText => cases hform

/-- The text of a leaf is that of a token which is there. -/
theorem text_eq {header : Header} {text : String} (h : Leaf faulty r ph ctx form)
    (htext : (Node.mk header form).text? = some text) :
    text = r.text ∧ r.token ≠ .endOfFileToken := by
  cases form with
  | identifier isPrivate text' word =>
    cases htext
    exact h.identifier_text.symm
  | literal kind text' flags =>
    generalize hform : Form.literal kind text' flags = form at h
    cases htext
    cases h with
    | literal hk =>
      cases hform
      refine ⟨rfl, fun heq => ?_⟩
      rw [heq] at hk
      cases hk
    | _ => first | cases hform | (unfold Grammar.nameForm at hform; split at hform <;> cases hform)
  | jsxText text' onlyTrivia =>
    generalize hform : Form.jsxText text' onlyTrivia = form at h
    cases htext
    cases h with
    | childText hk =>
      cases hform
      exact ⟨rfl, hk ▸ by decide⟩
    | _ => first | cases hform | (unfold Grammar.nameForm at hform; split at hform <;> cases hform)
  | _ => cases htext

/-- A name keeps the keyword that it is spelled like. -/
theorem word_eq {text : String} {word : Option Kind} (hr : r.Ready) (hspelled : r.Spelled)
    (h : Leaf faulty r ph ctx (.identifier false text word)) : word = Kind.ofKeyword? text := by
  obtain ⟨hform, hname⟩ := h.name_token
  unfold Grammar.nameForm at hform
  split at hform
  case h_1 ht =>
    cases hform
    cases hword : Kind.ofKeyword? r.text with
    | none => rfl
    | some k =>
      have hk := hr.spelled (ht ▸ rfl) k hword
      rw [ht] at hk
      cases hk
      cases (Kind.ofKeyword?_kind hword).1
  case h_2 => cases hform
  case h_3 hidentifier hprivate =>
    cases hform
    have hkeyword : r.token.isAnyKeyword = true := by
      rw [Kind.isName, Bool.or_eq_true, beq_iff_eq] at hname
      exact (hname.resolve_right hprivate).resolve_left hidentifier
    exact (hspelled.keyword hkeyword).symm

end Leaf

/-! ## Single nodes -/

/-- A leaf that has been consumed is faithful. -/
theorem Leaf.faithful {source : String} {s : ParseState} {m : Mark} {faulty : Prop} {ph : Phrase}
    {ctx : Context} {form : Form Node} (hl : Leaf faulty s.reading ph ctx form) (hs : s.Ready)
    (hp : s.reading.Placed source) (hm : m.At s) (way : Scanner.Advance) :
    (Node.mk ((s.consume way).header m) form).Faithful source := by
  have hcovers := hp.faithful.text_covered
  have hrange : ((s.consume way).header m).range = ⟨s.start.offset, s.scanner.stop.offset⟩ := by
    have hfull : (s.consume way).full = s.scanner.stop :=
      (Scanner.advance_movedOn (s := s.flush.scanner) way hs.token.stop_sound).full_eq
    have hle : s.start.offset ≤ s.scanner.stop.offset := hcovers.pos_le_stop
    rw [ParseState.header, hfull, hm.start_eq, Nat.max_eq_left hle]
  have hcovers : ((s.consume way).header m).range.Covers source s.reading.text := hrange ▸ hcovers
  refine ⟨hcovers.fits, fun text ht => ?_, fun ht => ?_, fun text word hform _ => ?_⟩
  · obtain ⟨rfl, -⟩ := hl.text_eq ht
    exact hcovers
  · obtain ⟨hempty, hne⟩ := hl.text_eq ht
    exact absurd hempty.symm (hs.token.text_ne_empty hne)
  · have hform : form = .identifier false text word := hform
    exact (hform ▸ hl).word_eq hs.token hp.spelled

/-- What is missing before a token is faithful. -/
theorem Absence.faithful {source : String} {s : ParseState} {form : Form Node} {ps : List Part}
    (ha : Absence form ps) (hp : s.reading.Placed source) :
    (Node.mk s.missingHeader form).Faithful source := by
  have hcovers := missing_covers hp
  refine ⟨hcovers.fits, fun text ht => ?_, fun _ => ⟨rfl, NodeFlag.hasErrors_has⟩, ?_⟩
  · have htext : text = "" := by
      cases ha <;> cases ht <;> rfl
    exact htext ▸ hcovers
  · intro text word hform hne
    have hform : form = .identifier false text word := hform
    subst hform
    cases ha
    exact absurd rfl hne

/-- What is made of parts has no text of its own. -/
theorem Production.text?_eq {faulty : Prop} {ph : Phrase} {ctx : Context} {form : Form Node}
    {ps : List Part} (h : Production faulty ph ctx form ps) (header : Header) :
    (Node.mk header form).text? = none := by
  cases h <;> rfl

/-! ## Derivations -/

namespace Grammar
variable {source : String} {lo hi : Nat}

/-- What holds of the nodes of a list holds of those that joining them by commas makes, if it holds
of the commas. -/
theorem joined_forall {P : Node → Prop} {first : Node} {rest : List Node}
    (comma : ∀ {lo left right more}, Begun lo (left :: right :: more) hi →
      (∀ n : Node, n.Within left → P n) → (∀ n : Node, n.Within right → P n) →
        P (commaJoined left right))
    (hin : Begun lo (first :: rest) hi)
    (h : ∀ e ∈ first :: rest, ∀ n : Node, n.Within e → P n) :
    ∀ n : Node, n.Within (rest.foldl commaJoined first) → P n := by
  induction rest generalizing first with
  | nil => exact h first List.mem_cons_self
  | cons second rest ih =>
    have hfirst := h first List.mem_cons_self
    have hsecond := h second (List.mem_cons_of_mem _ List.mem_cons_self)
    refine ih (begun_comma hin).2 fun e he n hn => ?_
    rcases List.mem_cons.mp he with rfl | he
    · rcases Node.within_iff.mp hn with rfl | ⟨c, hc, hn⟩
      · exact comma hin hfirst hsecond
      · have hc : c ∈ [first, second] := hc
        exact h c (List.mem_append_left rest hc) n hn
    · exact h e (List.mem_cons_of_mem _ (List.mem_cons_of_mem _ he)) n hn

/-- What holds of the nodes of a list holds of those of the expression that is made of it. -/
theorem Regrouped.forall_within {P : Node → Prop} {u : ParseState} {arguments inner : Node}
    (h : Regrouped u arguments inner) (hin : Begun lo arguments.children hi)
    (comma : ∀ {lo left right more}, Begun lo (left :: right :: more) hi →
      (∀ n : Node, n.Within left → P n) → (∀ n : Node, n.Within right → P n) →
        P (commaJoined left right))
    (missing : u.Faulty → arguments.range.stop = u.full.offset →
      P (.mk u.missingHeader (.identifier false "" none)))
    (hlist : ∀ n : Node, n.Within arguments → P n) : ∀ n : Node, n.Within inner → P n := by
  cases h with
  | missing _ hf hend =>
    intro n hn
    rcases Node.within_iff.mp hn with rfl | ⟨c, hc, -⟩
    · exact missing hf hend
    · cases hc
  | @joined first rest hmap _ =>
    have helements : Begun lo (first :: rest) hi := by
      rcases argumentElements_eq arguments with heq | heq
      · exact hmap ▸ begun_elements (heq ▸ hin)
      · rw [heq] at hmap
        cases hmap
    refine joined_forall comma helements fun e he n hn => hlist n ?_
    obtain ⟨d, hd, rfl⟩ := List.mem_map.mp (hmap ▸ he)
    exact (hn.trans (elementExpression_within d)).trans (within_of_argumentElements hd)

/-- Joining nodes by commas makes no node that is not faithful. -/
theorem faithful_comma {left right : Node} {more : List Node}
    (hin : Begun lo (left :: right :: more) hi)
    (hleft : ∀ n : Node, n.Within left → n.Faithful source)
    (hright : ∀ n : Node, n.Within right → n.Faithful source) :
    (commaJoined left right).Faithful source := by
  have hpos := (begun_comma hin).1
  have hstop := (hright right .root).toFits
  exact .textless (.of_valid (Nat.le_trans hpos hstop.pos_le_stop)
    (hleft left .root).pos_valid hstop.stop_valid) rfl

end Grammar

/-- In whatever a parse reads, ranges lie between characters and leaves have the text that stands
there. -/
theorem Derived.faithful {source : String} {s t : ParseState} {ps : List Part}
    (h : Derived s ps t) (hs : s.Ready) (hp : s.reading.Placed source) :
    ∀ p ∈ ps, ∀ n : Node, n.Within p.node → n.Faithful source := by
  induction h with
  | nil => exact nofun
  | append hd _ _ ih ih' =>
    intro p hmem
    rcases List.mem_append.mp hmem with hmem | hmem
    · exact ih hs hp p hmem
    · exact ih' (hd.moves.ready hs) (hd.moves.placed hp) p hmem
  | @node s t m ph ctx form ps hm hd hprod _ ih =>
    rw [List.forall_mem_singleton]
    intro n hn
    rcases Node.within_iff.mp hn with rfl | ⟨c, hc, hn⟩
    · exact .textless (header_fits hm hp (hd.moves.placed hp)) (hprod.text?_eq _)
    · have hc : c ∈ ps.map Part.node := hprod.children_eq ▸ hc
      obtain ⟨p, hmem, rfl⟩ := List.mem_map.mp hc
      exact ih hs hp p hmem n hn
  | @leaf s m ph ctx form way hm hl =>
    rw [List.forall_mem_singleton]
    intro n hn
    rcases Node.within_iff.mp hn with rfl | ⟨c, hc, -⟩
    · exact hl.faithful hs hp hm way
    · have hc : c ∈ form.children := hc
      rw [hl.children_eq] at hc
      cases hc
  | @missing s ph ctx form ps _ hd ha ih =>
    rw [List.forall_mem_singleton]
    intro n hn
    rcases Node.within_iff.mp hn with rfl | ⟨c, hc, hn⟩
    · exact ha.faithful hp
    · have hc : c ∈ ps.map Part.node := ha.children_eq ▸ hc
      obtain ⟨p, hmem, rfl⟩ := List.mem_map.mp hc
      exact ih hs hp p hmem n hn
  | serve _ _ ih =>
    have hn := List.forall_mem_singleton.mp (ih hs hp)
    exact List.forall_mem_singleton.mpr hn
  | @simple s t ctx n _ ih =>
    have hname := List.forall_mem_singleton.mp (ih hs hp)
    rw [List.forall_mem_singleton]
    intro m hm
    rcases Node.within_iff.mp hm with rfl | ⟨c, hc, hin⟩
    · exact .textless (hname n .root).toFits rfl
    · exact hname m (List.mem_singleton.mp hc ▸ hin)
  | @parenthesized s t u ctx arguments inner hd hm hr ih =>
    have hlist := List.forall_mem_singleton.mp (ih hs hp)
    rw [List.forall_mem_singleton]
    intro n hn
    rcases Node.within_iff.mp hn with rfl | ⟨c, hc, hin⟩
    · exact .textless (hlist arguments .root).toFits rfl
    · have hin : n.Within inner := List.mem_singleton.mp hc ▸ hin
      exact hr.forall_within (hd.begun hs).inner faithful_comma
        (fun _ _ => Absence.identifier.faithful (hm.placed (hd.moves.placed hp))) hlist n hin
  | deeper _ _ ih =>
    have hn := List.forall_mem_singleton.mp (ih hs.deeper hp)
    exact List.forall_mem_singleton.mpr hn

/-- Every node of the tree of a source tells where it stands, and what stands there if it is a
leaf. -/
theorem parse_faithful (source : String) (options : ParseOptions) (n : Node)
    (hn : n.Within (parse source options).root) : n.Faithful source := by
  obtain ⟨statements, ps, t, hroot, -, hchildren, hparts⟩ := parse_derived source options
  rcases Node.within_iff.mp hn with rfl | ⟨c, hc, hn⟩
  · rw [hroot]
    refine .textless (.of_valid (Nat.zero_le _) ?_ ?_) rfl
    · exact String.Pos.Raw.isValid_zero
    · exact String.Pos.Raw.isValid_rawEndPos
  · obtain ⟨p, hp, rfl⟩ := List.mem_map.mp (hchildren ▸ hc)
    exact hparts.faithful inferInstance (firstToken_placed source) p hp n hn

/-- A name that is missing behind a character of two bytes. -/
theorem missing_name_faithful : ∃ n : Node, n.Within (parse "ä.;" {}).root ∧ n.text? = some "" ∧
    n.range = ⟨3, 3⟩ ∧ n.Faithful "ä.;" := by
  have hfind : ((parse "ä.;" {}).root.at? [("statements", 0), ("expression", 0), ("name", 0)]).any
      (fun n => n.text? == some "" && n.range == ⟨3, 3⟩) = true := by decide +kernel
  obtain ⟨n, hn, h⟩ := Node.within_of_any hfind
  obtain ⟨htext, hrange⟩ := (Bool.and_eq_true _ _).mp h
  exact ⟨n, hn, eq_of_beq htext, eq_of_beq hrange, parse_faithful _ _ n hn⟩

end EcmaSyntax
