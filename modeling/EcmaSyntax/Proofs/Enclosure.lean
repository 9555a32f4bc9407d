import EcmaSyntax.Proofs.LineBreaks
import EcmaSyntax.Proofs.Token.Trivia

/-! # Nodes around nodes

A node ends with the last token that has been consumed, but what is missing is put in front of the
present token, behind the trivia there. So in a faulty source a node may end behind the nodes around
it. Between the two ends there is nothing but trivia then, and every node still begins where the
nodes around it do, or behind that. -/
namespace EcmaSyntax
open ParseState Node Grammar

variable {source : String}

/-- A node ends where another one does, before it or behind it; in the last case nothing but trivia
stands between the two ends. -/
def Node.Covers (source : String) (n d : Node) : Prop :=
  d.range.stop ≤ n.range.stop ∨ Trivia.Between source n.range.stop d.range.stop

/-- A node lies within another one, up to trivia behind the latter. -/
structure Node.Encloses (source : String) (n d : Node) : Prop where
  pos_le : n.range.pos ≤ d.range.pos
  covers : n.Covers source d

/-- A node has been read up to a state: it ends with the last token consumed or before it, or in front
of the present token. -/
def Node.EndsBy (n : Node) (t : ParseState) : Prop :=
  n.range.stop ≤ t.full.offset ∨ n.range.stop = t.start.offset

/-- A node has been read up to a state, and ends behind the nodes in it but for trivia. -/
structure Node.Closed (source : String) (t : ParseState) (n : Node) : Prop where
  pos_le_stop : n.range.pos ≤ n.range.stop
  endsBy : n.EndsBy t
  covers : ∀ d : Node, d.Within n → n.Covers source d

theorem Node.Covers.refl (n : Node) : n.Covers source n := .inl (Nat.le_refl _)

theorem Node.Closed.of_children {t : ParseState} {n : Node} (hle : n.range.pos ≤ n.range.stop)
    (hend : n.EndsBy t)
    (h : ∀ c ∈ n.children, ∀ d : Node, d.Within c → n.Covers source d) : n.Closed source t := by
  refine ⟨hle, hend, fun d hd => ?_⟩
  rcases Node.within_iff.mp hd with rfl | ⟨c, hc, hd⟩
  · exact .refl d
  · exact h c hc d hd

section States
variable {s t u : ParseState} {n d : Node}

theorem Node.EndsBy.move (h : n.EndsBy t) (hm : Moves t u) (ht : t.Ready) : n.EndsBy u := by
  rcases h with h | h
  · exact .inl (Nat.le_trans h ((hm.full_reaches ht).offset_le ht.full_sound))
  · rcases hm.still_or_past ht with ⟨hstart, -⟩ | hpast
    · exact .inr (hstart ▸ h)
    · exact .inl (h ▸ hpast.offset_le ht.start_sound)

/-- A node that has just been put together has been read up to the present state. -/
theorem header_endsBy {m : Mark} {form : Form Node} (hm : m.At s) (h : Moves s t) (hs : s.Ready) :
    (Node.mk (t.header m) form).EndsBy t := by
  have hstop : (Node.mk (t.header m) form).range.stop = max t.full.offset s.start.offset :=
    congrArg Range.stop hm.range_eq
  rcases Nat.le_total s.start.offset t.full.offset with hle | hle
  · exact .inl (by rw [hstop, Nat.max_eq_left hle])
  · rcases h.still_or_past hs with ⟨hstart, -⟩ | hpast
    · exact .inr (by rw [hstop, Nat.max_eq_right hle, hstart])
    · have hpast := hpast.offset_le hs.start_sound
      exact .inl (by omega)

/-- What has been read up to the present state lies before the end of a node that ends there, but for
the trivia in front of the present token. -/
theorem header_covers {m : Mark} {form : Form Node} (hm : m.At s) (h : Moves s t)
    (hs : s.Seated source) (hd : d.EndsBy t) : (Node.mk (t.header m) form).Covers source d := by
  have hstop : (Node.mk (t.header m) form).range.stop = max t.full.offset s.start.offset :=
    congrArg Range.stop hm.range_eq
  rw [Node.Covers, hstop]
  rcases hd with hd | hd
  · exact .inl (Nat.le_trans hd (Nat.le_max_left _ _))
  · rcases h.still_or_past hs.ready with ⟨hstart, -⟩ | hpast
    · exact .inl (by rw [hd, hstart]; exact Nat.le_max_right _ _)
    · have ht := hs.moves h
      rw [Nat.max_eq_left (hpast.offset_le hs.ready.start_sound), hd]
      exact .inr (ht.spaced.between ht.placed)

end States

/-! ## Derivations -/

/-- A comma ends with its right operand, behind the left one. -/
theorem closed_comma {u : ParseState} {lo hi : Nat} {left right : Node} {more : List Node}
    (hin : Begun lo (left :: right :: more) hi) (hleft : left.Closed source u)
    (hright : right.Closed source u) : (commaJoined left right).Closed source u := by
  obtain _ | ⟨-, hstop, hinner, hmore⟩ := hin
  obtain _ | ⟨hpos, -, -, -⟩ := hmore
  have hend := Nat.le_trans hpos hright.pos_le_stop
  refine .of_children ?_ hright.endsBy fun c hc d hd => ?_
  · exact Nat.le_trans hleft.pos_le_stop (Nat.le_trans hstop hend)
  · rcases List.mem_cons.mp hc with rfl | hc
    · exact .inl (Nat.le_trans ((Begun.single hstop hinner).within hd).stop_le hend)
    · exact hright.covers d (List.mem_singleton.mp hc ▸ hd)

/-- Nodes that have been read between two states are closed at the second of them. -/
theorem Derived.closed {s t : ParseState} {ps : List Part} (h : Derived s ps t)
    (hs : s.Seated source) : ∀ p ∈ ps, ∀ n : Node, n.Within p.node → n.Closed source t := by
  have hmove {t u : ParseState} {n : Node} (hn : n.Closed source t) (hm : Moves t u)
      (ht : t.Ready) : n.Closed source u := ⟨hn.pos_le_stop, hn.endsBy.move hm ht, hn.covers⟩
  induction h with
  | nil => exact nofun
  | append hd hd' _ ih ih' =>
    intro p hp n hn
    rcases List.mem_append.mp hp with hp | hp
    · exact hmove (ih hs p hp n hn) hd'.moves (hd.moves.ready hs.ready)
    · exact ih' (hs.moves hd.moves) p hp n hn
  | @node s t m ph ctx form ps hm hd hprod _ ih =>
    rw [List.forall_mem_singleton]
    intro n hn
    rcases Node.within_iff.mp hn with rfl | ⟨c, hc, hn⟩
    · refine .of_children (Nat.le_max_right _ _) (header_endsBy hm hd.moves hs.ready) fun c hc d hin => ?_
      obtain ⟨p, hmem, rfl⟩ := List.mem_map.mp (hprod.children_eq ▸ hc : c ∈ ps.map Part.node)
      exact header_covers hm hd.moves hs (ih hs p hmem d hin).endsBy
    · obtain ⟨p, hmem, rfl⟩ := List.mem_map.mp (hprod.children_eq ▸ hc : c ∈ ps.map Part.node)
      exact ih hs p hmem n hn
  | @leaf s m ph ctx form way hm hl =>
    rw [List.forall_mem_singleton]
    intro n hn
    rcases Node.within_iff.mp hn with rfl | ⟨c, hc, -⟩
    · refine .of_children (Nat.le_max_right _ _)
        (header_endsBy hm (.single (.consume way s)) hs.ready) fun c hc => ?_
      have hc : c ∈ [] := hl.children_eq ▸ hc
      cases hc
    · have hc : c ∈ [] := hl.children_eq ▸ hc
      cases hc
  | @missing s ph ctx form ps _ hd ha ih =>
    rw [List.forall_mem_singleton]
    intro n hn
    rcases Node.within_iff.mp hn with rfl | ⟨c, hc, hn⟩
    · refine .of_children (Nat.le_refl _) (.inr rfl) fun c hc d hin => .inl ?_
      obtain ⟨p, hmem, rfl⟩ := List.mem_map.mp (ha.children_eq ▸ hc : c ∈ ps.map Part.node)
      have hgap := hs.ready.full_start.offset_le hs.ready.full_sound
      rcases (ih hs p hmem d hin).endsBy with hend | hend
      · exact Nat.le_trans hend hgap
      · exact Nat.le_of_eq hend
    · obtain ⟨p, hmem, rfl⟩ := List.mem_map.mp (ha.children_eq ▸ hc : c ∈ ps.map Part.node)
      exact ih hs p hmem n hn
  | serve _ _ ih =>
    have hn := List.forall_mem_singleton.mp (ih hs)
    exact List.forall_mem_singleton.mpr hn
  | @simple s t ctx n _ ih =>
    have hname := List.forall_mem_singleton.mp (ih hs)
    rw [List.forall_mem_singleton]
    intro m hm
    rcases Node.within_iff.mp hm with rfl | ⟨c, hc, hin⟩
    · have hn := hname n .root
      refine .of_children hn.pos_le_stop hn.endsBy fun c hc d hin => ?_
      exact hn.covers d (List.mem_singleton.mp hc ▸ hin)
    · exact hname m (List.mem_singleton.mp hc ▸ hin)
  | @parenthesized s t u ctx arguments inner hd hm hr ih =>
    have hready := hd.moves.ready hs.ready
    have hu := (hs.moves hd.moves).moves hm
    have hlist : ∀ n : Node, n.Within arguments →
        n.Closed source u ∧ arguments.Covers source n := fun n hn =>
      have hclosed := List.forall_mem_singleton.mp (ih hs)
      ⟨hmove (hclosed n hn) hm hready, (hclosed arguments .root).covers n hn⟩
    have hinner := hr.forall_within (P := fun n => n.Closed source u ∧ arguments.Covers source n)
      (hd.begun hs.ready).inner
      (fun hin hleft hright =>
        ⟨closed_comma hin (hleft _ .root).1 (hright _ .root).1, (hright _ .root).2⟩)
      (fun _ hend => ⟨.of_children (Nat.le_refl _) (.inr rfl) nofun, .inr ?_⟩) hlist
    · rw [List.forall_mem_singleton]
      intro n hn
      rcases Node.within_iff.mp hn with rfl | ⟨c, hc, hin⟩
      · have hn := (hlist arguments .root).1
        refine .of_children hn.pos_le_stop hn.endsBy fun c hc d hin => ?_
        exact (hinner d (List.mem_singleton.mp hc ▸ hin)).2
      · exact (hinner n (List.mem_singleton.mp hc ▸ hin)).1
    · rw [hend]
      exact hu.spaced.between hu.placed
  | deeper hdepth _ ih =>
    have hn := List.forall_mem_singleton.mp (ih ⟨hs.ready.deeper, hs.placed, hs.spaced⟩)
    rw [List.forall_mem_singleton]
    exact fun n hin => ⟨(hn n hin).pos_le_stop, (hn n hin).endsBy, (hn n hin).covers⟩

/-! ## Sources -/

/-- In every tree, a node lies within each node around it, but for what stands behind the end of that
node with nothing but trivia in between. -/
theorem parse_encloses (source : String) (options : ParseOptions) {n d : Node}
    (hn : n.Within (parse source options).root) (hd : d.Within n) : n.Encloses source d := by
  obtain ⟨statements, ps, t, hroot, -, hchildren, hparts⟩ := parse_derived source options
  have hfirst := firstToken_seated source
  rcases Node.within_iff.mp hn with rfl | ⟨c, hc, hn⟩
  · have hfits := (parse_faithful source options d hd).toFits
    rw [hroot]
    exact ⟨Nat.zero_le _, .inl hfits.stop_le_size⟩
  · obtain ⟨p, hp, rfl⟩ := List.mem_map.mp (hchildren ▸ hc)
    have hbegun := (hparts.begun hfirst.ready).pick (List.mem_map_of_mem hp)
    have hclosed := hparts.closed hfirst p hp n hn
    exact ⟨((hbegun.within hn).within hd).pos_le.1, hclosed.covers d hd⟩

/-- A missing name behind a blank, and the access that it belongs to. -/
theorem nameless_access_encloses : ∃ n d : Node, n.Within (parse "a. ;" {}).root ∧ d.Within n ∧
    d.isMissing = true ∧ n.Encloses "a. ;" d := by
  have hpath : ((parse "a. ;" {}).root.at? [("statements", 0), ("expression", 0)]).any
      (fun n => (n.at? [("name", 0)]).any (·.isMissing)) = true := by decide +kernel
  obtain ⟨n, hn, hmissing⟩ := Node.within_of_any hpath
  obtain ⟨d, hd, hmissing⟩ := Node.within_of_any hmissing
  exact ⟨n, d, hn, hd, hmissing, parse_encloses _ _ hn hd⟩

/-- The missing name stands behind the end of the access. -/
theorem missing_name_outside : ∃ n d : Node, n.Within (parse "a. ;" {}).root ∧ d ∈ n.children ∧
    d.isMissing = true ∧ n.range = ⟨0, 2⟩ ∧ d.range = ⟨3, 3⟩ := by
  have hpath : ((parse "a. ;" {}).root.at? [("statements", 0), ("expression", 0)]).any
      (fun n => n.range == ⟨0, 2⟩ &&
        n.children.any fun d => d.isMissing && d.range == ⟨3, 3⟩) = true := by decide +kernel
  obtain ⟨n, hn, htest⟩ := Node.within_of_any hpath
  rw [Bool.and_eq_true, List.any_eq_true] at htest
  obtain ⟨hrange, d, hd, htest⟩ := htest
  rw [Bool.and_eq_true] at htest
  exact ⟨n, d, hn, hd, htest.1, eq_of_beq hrange, eq_of_beq htest.2⟩

end EcmaSyntax
