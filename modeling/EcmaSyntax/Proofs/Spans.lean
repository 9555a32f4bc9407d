import EcmaSyntax.Proofs.Edges
import EcmaSyntax.Proofs.Source.Slice

/-! # Ranges of nodes

Where nothing has been reported, the nodes of a tree lie in the order of the source: each one begins
where it may, its children lie one behind the other within it, and it ends before the next one
begins. A derivation tells the states at the ends of a node, and between two states nothing goes
back. What has been reported may have left a node that is missing before the end of the one in
front. -/
namespace EcmaSyntax
open ParseState

/-! ## Nodes in order -/

namespace Node

/-- Nodes one behind the other between two offsets, and so at every depth. -/
inductive Laid : Nat → List Node → Nat → Prop
  | nil {lo hi} : lo ≤ hi → Laid lo [] hi
  | cons {lo hi n ns} : lo ≤ n.range.pos → Laid n.range.pos n.children n.range.stop →
      Laid n.range.stop ns hi → Laid lo (n :: ns) hi

namespace Laid
variable {lo lo' mid hi hi' : Nat} {n : Node} {ns ns' : List Node}

theorem le (h : Laid lo ns hi) : lo ≤ hi := by
  induction h with
  | nil h => exact h
  | cons hpos _ _ ih ih' => omega

theorem widen (h : Laid lo ns hi) (hlo : lo' ≤ lo) (hhi : hi ≤ hi') : Laid lo' ns hi' := by
  induction h generalizing lo' hi' with
  | nil h => exact .nil (by omega)
  | cons hpos hin _ _ ih => exact .cons (Nat.le_trans hlo hpos) hin (ih (Nat.le_refl _) hhi)

theorem append (h : Laid lo ns mid) (h' : Laid mid ns' hi) : Laid lo (ns ++ ns') hi := by
  induction h with
  | nil h => exact h'.widen h (Nat.le_refl _)
  | cons hpos hin _ _ ih => exact .cons hpos hin (ih h')

/-- A node with its children in its range. -/
theorem single (h : Laid n.range.pos n.children n.range.stop) :
    Laid n.range.pos [n] n.range.stop :=
  .cons (Nat.le_refl _) h (.nil (Nat.le_refl _))

theorem inner (h : Laid lo ns hi) (hn : n ∈ ns) : Laid n.range.pos n.children n.range.stop := by
  induction h with
  | nil => cases hn
  | cons _ hin _ _ ih =>
    rcases List.mem_cons.mp hn with rfl | hn
    · exact hin
    · exact ih hn

/-- Every node lies between the two offsets. -/
theorem within (h : Laid lo ns hi) (hn : n ∈ ns) : lo ≤ n.range.pos ∧ n.range.stop ≤ hi := by
  induction h with
  | nil => cases hn
  | cons hpos hin hrest _ ih =>
    rcases List.mem_cons.mp hn with rfl | hn
    · exact ⟨hpos, hrest.le⟩
    · have hn := ih hn
      have hle := hin.le
      omega

/-- Another node in the same range. -/
theorem rewrap {m : Node} (h : Laid lo [n] hi) (hrange : m.range = n.range)
    (hin : Laid n.range.pos m.children n.range.stop) : Laid lo [m] hi := by
  have hn := h.within (List.mem_singleton_self n)
  rw [← hrange] at hn hin
  exact .cons hn.1 hin (.nil hn.2)

theorem pairwise (h : Laid lo ns hi) : ns.Pairwise fun a b => a.range.stop ≤ b.range.pos := by
  induction h with
  | nil => exact .nil
  | cons _ _ hrest _ ih => exact .cons (fun b hb => (hrest.within hb).1) ih

end Laid
end Node

open Node

namespace Part

@[simp] theorem all_nodes (ph : Phrase) (ctx : Context) (ns : List Node) :
    (all ph ctx ns).map Part.node = ns := by
  simp [all, Function.comp_def]

@[simp] theorem opt_nodes (ph : Phrase) (ctx : Context) (n : Option Node) :
    (opt ph ctx n).map Part.node = n.toList := all_nodes ph ctx _

@[simp] theorem optAll_nodes (ph : Phrase) (ctx : Context) (ns : Option (List Node)) :
    (optAll ph ctx ns).map Part.node = ns.getD [] := all_nodes ph ctx _

@[simp] theorem body_nodes (inModule : Bool) (b : Grammar.Body) (ns : List Node) :
    (body inModule b ns).map Part.node = ns := by
  induction ns generalizing b with
  | nil => rfl
  | cons n rest ih => rw [body, List.map_cons, ih]

end Part

/-- The parts of a node are its children. -/
theorem Production.children_eq {faulty : Prop} {ph : Phrase} {ctx : Context} {form : Form Node}
    {ps : List Part}
    (h : Production faulty ph ctx form ps) : form.children = ps.map Part.node := by
  cases h <;> simp [Form.children, Form.fields, Field.children]

theorem Leaf.children_eq {faulty : Prop} {r : Reading} {ph : Phrase} {ctx : Context}
    {form : Form Node} (h : Leaf faulty r ph ctx form) : form.children = [] := by
  have hname : (Grammar.nameForm r).children = [] := by
    unfold Grammar.nameForm
    split <;> rfl
  cases h <;> first | exact hname | rfl

theorem Absence.children_eq {form : Form Node} {ps : List Part} (h : Absence form ps) :
    form.children = ps.map Part.node := by
  cases h <;> rfl

/-! ## Lists between parentheses -/

namespace Grammar

theorem elementExpression_eq {n : Node} (h : n.isParameter = false) : elementExpression n = n := by
  unfold elementExpression
  split
  case h_1 hform => simp [Node.isParameter, hform] at h
  · rfl

theorem argumentElements_eq (n : Node) :
    argumentElements n = n.children ∨ argumentElements n = [] := by
  unfold argumentElements
  split
  case h_1 hform =>
    exact .inl (by simp [Node.children, hform, Form.children, Form.fields, Field.children])
  · exact .inr rfl

theorem elementExpression_within (e : Node) : (elementExpression e).Within e := by
  unfold elementExpression
  split
  case h_1 hform =>
    exact .child .root (by simp [Node.children, hform, Form.children, Form.fields, Field.children])
  · exact .root

theorem within_of_argumentElements {arguments e : Node} (h : e ∈ argumentElements arguments) :
    e.Within arguments := by
  rcases argumentElements_eq arguments with heq | heq
  · exact .child .root (heq ▸ h)
  · rw [heq] at h
    cases h

theorem within_joined {first n : Node} {rest : List Node}
    (h : n.Within (rest.foldl commaJoined first)) :
    (∃ e ∈ first :: rest, n.Within e) ∨ ∃ left right, n = commaJoined left right := by
  induction rest generalizing first with
  | nil => exact .inl ⟨first, List.mem_cons_self, h⟩
  | cons second rest ih =>
    rcases ih h with ⟨e, he, hn⟩ | hn
    · rcases List.mem_cons.mp he with rfl | he
      · rcases Node.within_iff.mp hn with heq | ⟨c, hc, hn⟩
        · exact .inr ⟨first, second, heq⟩
        · have hc : c ∈ [first, second] := hc
          exact .inl ⟨c, List.mem_append_left rest hc, hn⟩
      · exact .inl ⟨e, List.mem_cons_of_mem _ (List.mem_cons_of_mem _ he), hn⟩
    · exact .inr hn

/-- The nodes of an expression that is made of a list are those of the list, the commas and what is
missing in an empty list. -/
theorem Regrouped.within {u : ParseState} {arguments inner n : Node}
    (h : Regrouped u arguments inner) (hn : n.Within inner) :
    n.Within arguments ∨ (∃ left right, n = commaJoined left right) ∨
      u.Faulty ∧ n = .mk u.missingHeader (.identifier false "" none) := by
  cases h with
  | joined hmap _ =>
    refine (within_joined hn).imp (fun ⟨e, he, hn⟩ => ?_) .inl
    rw [← hmap] at he
    obtain ⟨d, hd, rfl⟩ := List.mem_map.mp he
    exact (hn.trans (elementExpression_within d)).trans (within_of_argumentElements hd)
  | missing _ hf =>
    rcases Node.within_iff.mp hn with rfl | ⟨c, hc, -⟩
    · exact .inr (.inr ⟨hf, rfl⟩)
    · cases hc

/-- Joining nodes by commas keeps them in order. -/
theorem laid_joined {lo hi : Nat} {first : Node} {rest : List Node}
    (h : Laid lo (first :: rest) hi) : Laid lo [rest.foldl commaJoined first] hi := by
  induction rest generalizing first with
  | nil => exact h
  | cons second rest ih =>
    refine ih ?_
    obtain _ | ⟨hpos, hfirst, hmore⟩ := h
    obtain _ | ⟨hpos', hsecond, hrest⟩ := hmore
    have hboth : Laid first.range.pos [first, second] second.range.stop :=
      .append (.single hfirst) (.cons hpos' hsecond (.nil (Nat.le_refl _)))
    exact .cons hpos hboth hrest

/-- Where nothing is reported, an expression takes up the elements of a list as they are. -/
theorem Regrouped.laid {u : ParseState} {arguments inner : Node} (h : Regrouped u arguments inner)
    (hu : u.sink = ∅) (hin : Laid arguments.range.pos arguments.children arguments.range.stop) :
    Laid arguments.range.pos [inner] arguments.range.stop := by
  cases h with
  | missing _ hf => exact absurd hf (not_faulty hu)
  | joined hmap hfaulty =>
    have hplain : ∀ e ∈ argumentElements arguments, e.isParameter = false := by
      intro e he
      have hnone := fun hbad => not_faulty hu (hfaulty ⟨e, he, hbad⟩)
      cases hp : e.isParameter
      · rfl
      · exact (hnone (by rw [hp, Bool.true_or])).elim
    have hsame : (argumentElements arguments).map elementExpression = argumentElements arguments :=
      (List.map_congr_left fun e he => elementExpression_eq (hplain e he)).trans (List.map_id' _)
    rw [hsame] at hmap
    rcases argumentElements_eq arguments with heq | heq
    · rw [← heq, hmap] at hin
      exact laid_joined hin
    · cases heq.symm.trans hmap

end Grammar

/-- What holds of nodes, however they are made, holds of all nodes of a part. -/
theorem Parsed.forall_within {faulty : Prop} {P : Node → Prop} {p : Part} (h : Parsed faulty p)
    (node : ∀ {header ph ctx form ps}, Production faulty ph ctx form ps →
      (∀ p ∈ ps, Parsed faulty p) → P (.mk header form))
    (leaf : ∀ {header r ph ctx form}, Leaf faulty r ph ctx form → P (.mk header form))
    (absent : ∀ {header form ps}, Absence form ps → P (.mk header form))
    (simple : ∀ n, P (Grammar.simpleParameters n))
    (parenthesized : ∀ header inner, P (.mk header (.parenthesized inner)))
    (joined : ∀ left right, P (Grammar.commaJoined left right)) :
    ∀ n : Node, n.Within p.node → P n := by
  induction h with
  | @node header _ _ form ps hp hparts ih =>
    intro n hn
    rcases Node.within_iff.mp hn with rfl | ⟨c, hc, hin⟩
    · exact node hp hparts
    · obtain ⟨p, hp, rfl⟩ := List.mem_map.mp (hp.children_eq ▸ hc : c ∈ ps.map Part.node)
      exact ih p hp n hin
  | @leaf header _ _ _ form _ hl =>
    intro n hn
    rcases Node.within_iff.mp hn with rfl | ⟨c, hc, -⟩
    · exact leaf hl
    · have hc : c ∈ [] := hl.children_eq ▸ hc
      cases hc
  | @missing header _ _ form ps _ ha _ ih =>
    intro n hn
    rcases Node.within_iff.mp hn with rfl | ⟨c, hc, hin⟩
    · exact absent ha
    · obtain ⟨p, hp, rfl⟩ := List.mem_map.mp (ha.children_eq ▸ hc : c ∈ ps.map Part.node)
      exact ih p hp n hin
  | serve _ _ ih => exact ih
  | @simple _ n _ ih =>
    intro m hm
    rcases Node.within_iff.mp hm with rfl | ⟨c, hc, hin⟩
    · exact simple n
    · exact ih m (List.mem_singleton.mp hc ▸ hin)
  | @parenthesized _ _ _ arguments inner _ _ hr ih =>
    intro n hn
    rcases Node.within_iff.mp hn with rfl | ⟨c, hc, hin⟩
    · exact parenthesized _ _
    · rcases hr.within (List.mem_singleton.mp hc ▸ hin : n.Within inner) with hin | ⟨l, r, rfl⟩ | ⟨-, rfl⟩
      · exact ih n hin
      · exact joined l r
      · exact absent .identifier
  | deeper _ ih => exact ih

/-- A node of a tree is its root, or a node of what has been read for a statement of the source. -/
theorem parse_within {source : String} {options : ParseOptions} {n : Node}
    (hn : n.Within (parse source options).root) :
    (∃ header statements, n = .mk header (.sourceBody options.goal statements)) ∨
      ∃ p : Part, Parsed ((parse source options).diagnostics ≠ ∅) p ∧ n.Within p.node := by
  obtain ⟨header, statements, hroot, hparts⟩ := parse_parsed source options
  rw [hroot] at hn
  rcases Node.within_iff.mp hn with rfl | ⟨c, hc, hin⟩
  · exact .inl ⟨header, statements, rfl⟩
  · have hc : c ∈ statements ++ [] := hc
    rw [List.append_nil, ← Part.body_nodes _ _ statements] at hc
    obtain ⟨p, hp, rfl⟩ := List.mem_map.mp hc
    exact .inr ⟨p, hparts p hp, hin⟩

open Grammar

/-! ## Derivations without reports -/

namespace Derived
variable {s t : ParseState} {ps : List Part}

/-- Where nothing has been reported, parts lie between the token at which they begin and the last
token that has been consumed. -/
theorem laid (h : Derived s ps t) (hs : s.Ready) (ht : t.sink = ∅) :
    Laid s.start.offset (ps.map Part.node) (max t.full.offset s.start.offset) := by
  induction h with
  | nil => exact .nil (Nat.le_max_right _ _)
  | @append s t u ps qs hd hd' hf ih ih' =>
    have hready := hd.moves.ready hs
    have hfirst := ih hs (hd'.moves.sink_eq_empty ht)
    rw [List.map_append]
    by_cases hqs : qs = []
    · have hfull := (hd'.moves.full_reaches hready).offset_le hready.full_sound
      rw [hqs, List.map_nil, List.append_nil]
      exact hfirst.widen (Nat.le_refl _) (by omega)
    · -- the second parts have consumed a token, so that they end behind where they begin
      have hleft : u.left < t.left := (hf hqs).resolve_right (not_faulty ht)
      have hend := (hd'.moves.start_reaches_full hready hleft).offset_le hready.start_sound
      have hstart := (hd.moves.start_reaches hs).offset_le hs.start_sound
      have hgap := hready.full_start.offset_le hready.full_sound
      have hfirst := hfirst.widen (Nat.le_refl _) (Nat.max_le.mpr ⟨hgap, hstart⟩)
      exact (hfirst.append (ih' hready ht)).widen (Nat.le_refl _) (by omega)
  | @node s t m ph ctx form ps hm _ hp _ ih =>
    have hin := ih hs ht
    rw [← hp.children_eq, ← hm.start_eq] at hin
    rw [← hm.start_eq]
    exact .single (n := .mk (t.header m) form) hin
  | @leaf s m ph ctx form way hm hl =>
    have hin : Laid m.start.offset form.children
        (max (s.consume way).full.offset m.start.offset) := by
      rw [hl.children_eq]
      exact .nil (Nat.le_max_right _ _)
    rw [← hm.start_eq]
    exact .single (n := .mk ((s.consume way).header m) form) hin
  | missing hf => exact absurd hf (not_faulty ht)
  | serve _ _ ih => exact ih hs ht
  | simple _ ih =>
    have hname := ih hs ht
    exact hname.rewrap rfl (.single (hname.inner (List.mem_singleton_self _)))
  | @parenthesized s t u ctx arguments inner hd hm hr ih =>
    have hready := hd.moves.ready hs
    have hfull := (hm.full_reaches hready).offset_le hready.full_sound
    have hlist : Laid s.start.offset [arguments] (max t.full.offset s.start.offset) :=
      ih hs (hm.sink_eq_empty ht)
    have hinner := hr.laid ht (hlist.inner (List.mem_singleton_self _))
    have hnode := hlist.rewrap
      (m := .mk (regroupedHeader t u arguments) (.parenthesized inner)) rfl hinner
    exact hnode.widen (Nat.le_refl _) (by omega)
  | deeper _ _ ih => exact ih hs.deeper ht

/-- Where nothing has been reported, what holds of every kind of node holds of all nodes. -/
theorem forall_within {P : Node → Prop} (h : Derived s ps t) (hs : s.Ready) (ht : t.sink = ∅)
    (node : ∀ {u v m ph ctx form ps}, Along s u → u.Ready → v.sink = ∅ → m.At u → Derived u ps v →
      Production v.Faulty ph ctx form ps → form.Lined u v → P (.mk (v.header m) form))
    (leaf : ∀ {u : ParseState} {m : Mark} {ph ctx form way}, u.Ready → (u.consume way).sink = ∅ →
      m.At u → Leaf u.Faulty u.reading ph ctx form → P (.mk ((u.consume way).header m) form))
    (simple : ∀ n, P n → P (simpleParameters n))
    (parenthesized : ∀ {t u arguments inner}, Moves t u → u.sink = ∅ → P arguments →
      P (.mk (regroupedHeader t u arguments) (.parenthesized inner)))
    (joined : ∀ left right, P (commaJoined left right)) :
    ∀ p ∈ ps, ∀ n : Node, n.Within p.node → P n := by
  induction h with
  | nil => exact nofun
  | append hd hd' _ ih ih' =>
    intro p hp
    rcases List.mem_append.mp hp with hp | hp
    · exact ih hs (hd'.moves.sink_eq_empty ht) node p hp
    · exact ih' (hd.moves.ready hs) ht (fun hu => node (hd.moves.along hu)) p hp
  | @node s t m ph ctx form ps hm hd hp hlined ih =>
    rw [List.forall_mem_singleton]
    intro n hn
    rcases Node.within_iff.mp hn with rfl | ⟨c, hc, hn⟩
    · exact node (.refl s) hs ht hm hd hp (hlined.resolve_left (not_faulty ht))
    · obtain ⟨p, hp, rfl⟩ := List.mem_map.mp (hp.children_eq ▸ hc : c ∈ ps.map Part.node)
      exact ih hs ht node p hp n hn
  | @leaf s m ph ctx form way hm hl =>
    rw [List.forall_mem_singleton]
    intro n hn
    rcases Node.within_iff.mp hn with rfl | ⟨c, hc, -⟩
    · exact leaf hs ht hm hl
    · have hc : c ∈ [] := hl.children_eq ▸ hc
      cases hc
  | missing hf => exact absurd hf (not_faulty ht)
  | serve _ _ ih =>
    have hn := List.forall_mem_singleton.mp (ih hs ht node)
    exact List.forall_mem_singleton.mpr hn
  | @simple s t ctx n _ ih =>
    have hname := List.forall_mem_singleton.mp (ih hs ht node)
    rw [List.forall_mem_singleton]
    intro m hm
    rcases Node.within_iff.mp hm with rfl | ⟨c, hc, hin⟩
    · exact simple n (hname n .root)
    · exact hname m (List.mem_singleton.mp hc ▸ hin)
  | @parenthesized s t u ctx arguments inner hd hm hr ih =>
    have hlist := List.forall_mem_singleton.mp (ih hs (hm.sink_eq_empty ht) node)
    rw [List.forall_mem_singleton]
    intro n hn
    rcases Node.within_iff.mp hn with rfl | ⟨c, hc, hin⟩
    · exact parenthesized hm ht (hlist arguments .root)
    · have hin : n.Within inner := List.mem_singleton.mp hc ▸ hin
      rcases hr.within hin with hin | ⟨left, right, rfl⟩ | ⟨hf, -⟩
      · exact hlist n hin
      · exact joined left right
      · exact absurd hf (not_faulty ht)
  | deeper hdepth _ ih =>
    have hn := List.forall_mem_singleton.mp (ih hs.deeper ht fun hu => node (.deeper hdepth hu))
    exact List.forall_mem_singleton.mpr hn

end Derived

/-! ## Whole sources -/

theorem firstToken_reaches (text : List Char) :
    (Cursor.start text).Reaches (ParseState.firstToken text).full := by
  have hm := Scanner.advance_movedOn (s := (ParseState.ofText text).flush.scanner) .expression
    ((Scanner.skipShebang_reaches text).sound (Cursor.start_sound text))
  have hfull : (ParseState.firstToken text).full = _ := hm.full_eq
  exact hfull ▸ Scanner.skipShebang_reaches text

theorem parse_laid (source : String) (options : ParseOptions)
    (hclean : (parse source options).diagnostics = ∅) :
    Laid 0 [(parse source options).root] source.utf8ByteSize := by
  obtain ⟨statements, t, hrun, hbody, -⟩ := source_reads (.ofOptions options) source.toList
  have hparse : parse source options =
      ⟨.mk (rootHeader source t.sink) (.sourceBody options.goal statements), t.sink⟩ := by
    rw [parse, show run source options = some (statements, t) from hrun]
  rw [hparse] at hclean ⊢
  have hready : (ParseState.firstToken source.toList).Ready := inferInstance
  have hfirst := firstToken_reaches source.toList
  have hlaid := hbody.derived.laid hready hclean
  rw [Part.body_nodes] at hlaid
  have hfull := (hfirst.trans (hbody.moves.full_reaches hready)).offset_le_size
  have hstart := (hfirst.trans hready.full_start).offset_le_size
  have hin := hlaid.widen (Nat.zero_le _) (Nat.max_le.mpr ⟨hfull, hstart⟩)
  rw [← List.append_nil statements] at hin
  exact .single (n := .mk (rootHeader source t.sink) (.sourceBody options.goal statements)) hin

/-- The ranges of a node and its children fit into each other. -/
structure Node.Nested (n : Node) : Prop where
  pos_le_stop : n.range.pos ≤ n.range.stop
  encloses : ∀ c ∈ n.children, n.range.pos ≤ c.range.pos ∧ c.range.stop ≤ n.range.stop
  ordered : n.children.Pairwise fun a b => a.range.stop ≤ b.range.pos

theorem Node.Within.laid {root n : Node} (h : n.Within root)
    (hroot : Laid root.range.pos root.children root.range.stop) :
    Laid n.range.pos n.children n.range.stop := by
  induction h with
  | root => exact hroot
  | child _ hc ih => exact (ih hroot).inner hc

/-- In a tree without diagnostics, ranges of nodes are nested at every depth. -/
theorem parse_ranges_nested (source : String) (options : ParseOptions)
    (hclean : (parse source options).diagnostics = ∅) {n : Node}
    (hn : n.Within (parse source options).root) : n.Nested := by
  have hroot := (parse_laid source options hclean).inner (List.mem_singleton_self _)
  have hlaid := hn.laid hroot
  exact ⟨hlaid.le, fun c hc => hlaid.within hc, hlaid.pairwise⟩

/-- Two names between parentheses, which are read as a list and taken for an expression. -/
theorem joined_names_nested : (parse "(a, b);" {}).diagnostics = ∅ ∧
    (parse "(a, b);" {}).root.children.length = 1 ∧
    ∀ n ∈ (parse "(a, b);" {}).root.children, n.Nested := by
  have hclean : (parse "(a, b);" {}).diagnostics = ∅ := by decide +kernel
  refine ⟨hclean, by decide +kernel, fun n hn => ?_⟩
  exact parse_ranges_nested _ _ hclean (.child .root hn)

end EcmaSyntax
