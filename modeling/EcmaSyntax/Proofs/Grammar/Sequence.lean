import EcmaSyntax.Proofs.Grammar.Lawful

/-! # Parts in sequence

What the common forms of routines read: single tokens, nodes, parts that may be absent, parts
between two tokens and lists. In each of them the parts are derived in the order in which they
are read. -/
namespace EcmaSyntax
open Parse Part Grammar

variable {s t u : ParseState} {ph : Phrase} {ctx : Context} {n : Node}

/-! ## Parts -/

namespace Extends
variable {ps : List Part}

theorem part [s.Ready] {p : Part} (h : Extends s ps t) (hb : Built t p u) :
    Extends s (ps ++ [p]) u := h.append hb.toExtends

theorem append_push [s.Ready] {found : Array Node} (h : Extends s (all ph ctx found.toList) t)
    (hn : Extends t [⟨ph, ctx, n⟩] u) : Extends s (all ph ctx (found.push n).toList) u := by
  have hall : all ph ctx (found.push n).toList = all ph ctx found.toList ++ [⟨ph, ctx, n⟩] := by
    simp [all]
  exact hall ▸ h.append hn

theorem all_push [s.Ready] {found : Array Node} (h : Extends s (all ph ctx found.toList) t)
    (hn : Built t ⟨ph, ctx, n⟩ u) : Extends s (all ph ctx (found.push n).toList) u :=
  h.append_push hn.toExtends

theorem opt_none (ph : Phrase) (ctx : Context) : Extends s (opt ph ctx none) s := .refl s

end Extends

namespace Built
variable {p : Part}

/-- What looks ahead or reports before a node takes nothing. -/
theorem after_still [s.Ready] (h : Built t p u) (hm : Moves s t) (hs : s.Still t) : Built s p u :=
  h.after hm fun _ => .inr hs.start_eq

/-- What looks ahead or reports behind a node takes nothing. -/
theorem move_still [s.Ready] (h : Built s p t) (hm : Moves t u) (ht : t.Still u) : Built s p u :=
  h.move hm fun _ => .inr ht.full_eq

end Built

theorem Built.opt (h : Built s ⟨ph, ctx, n⟩ t) : Extends s (opt ph ctx (some n)) t := h.toExtends

/-- A node that may be absent, and begins at the first of two states. -/
structure BuiltIf (s : ParseState) (ph : Phrase) (ctx : Context) (n : Option Node)
    (t : ParseState) : Prop extends Extends s (opt ph ctx n) t where
  pos_eq : ∀ e ∈ n, t.Faulty ∨ e.range.pos = s.start.offset
  absent : n = none → t = s

namespace BuiltIf

theorem none (ph : Phrase) (ctx : Context) : BuiltIf s ph ctx none s :=
  ⟨.opt_none ph ctx, nofun, fun _ => rfl⟩

theorem some (h : Built s ⟨ph, ctx, n⟩ t) (hexact : ph.isExact = true) :
    BuiltIf s ph ctx (some n) t :=
  ⟨h.opt, fun _ he => by cases he; exact h.pos_eq hexact, nofun⟩

end BuiltIf

namespace Parse

/-! ## Nodes -/

/-- A node that closes the parts since its mark, with what is known of the line breaks in it. -/
theorem lined_reads {m : Mark} {form : Form Node} {ps : List Part} (hm : m.At s)
    (hc : Extends s ps t) (hp : Production t.Faulty ph ctx form ps) (hf : Fruitful s t)
    (hform : ∀ h, (Node.mk h form).isArrowParameters = false)
    (hlined : t.Faulty ∨ form.Lined s t) :
    (node m form).Reads t fun n u => u = t ∧ n.form = form ∧ Built s ⟨ph, ctx, n⟩ u := by
  refine .observe ⟨rfl, rfl, ⟨.node hm hc.derived hp hlined, fun _ => hf⟩, fun harrow => ?_,
    fun _ => .inr hm.range_eq⟩
  rw [hform] at harrow
  cases harrow

/-- The same at the end of a routine. -/
theorem lined_built {m : Mark} {form : Form Node} {ps : List Part} (hm : m.At s)
    (hc : Extends s ps t) (hp : Production t.Faulty ph ctx form ps) (hf : Fruitful s t)
    (hform : ∀ h, (Node.mk h form).isArrowParameters = false)
    (hlined : t.Faulty ∨ form.Lined s t) :
    (node m form).Reads t fun n u => Built s ⟨ph, ctx, n⟩ u :=
  (lined_reads hm hc hp hf hform hlined).mono fun _ _ h => h.2.2

/-- A node in which no line break matters. -/
theorem node_reads {m : Mark} {form : Form Node} {ps : List Part} (hm : m.At s)
    (hc : Extends s ps t) (hp : Production t.Faulty ph ctx form ps) (hf : Fruitful s t)
    (hform : ∀ h, (Node.mk h form).isArrowParameters = false) (hfree : form.isFree = true) :
    (node m form).Reads t fun n u => u = t ∧ n.form = form ∧ Built s ⟨ph, ctx, n⟩ u :=
  lined_reads hm hc hp hf hform (.inr (.of_free hfree))

theorem node_built {m : Mark} {form : Form Node} {ps : List Part} (hm : m.At s)
    (hc : Extends s ps t) (hp : Production t.Faulty ph ctx form ps) (hf : Fruitful s t)
    (hform : ∀ h, (Node.mk h form).isArrowParameters = false) (hfree : form.isFree = true) :
    (node m form).Reads t fun n u => Built s ⟨ph, ctx, n⟩ u :=
  lined_built hm hc hp hf hform (.inr (.of_free hfree))

/-- A token as a node. -/
theorem leaf_reads [s.Ready] {way : Scanner.Advance} {form : Reading → Form Node}
    (hl : Leaf s.Faulty s.reading ph ctx (form s.reading)) (ht : s.token ≠ .endOfFileToken) :
    (leaf way form).Reads s fun n t => Built s ⟨ph, ctx, n⟩ t ∧ t.left < s.left := by
  refine .look (.look ?_)
  refine (consume_run way).bind fun _ t _ hm _ heq => ?_
  subst heq
  have hlt := ParseState.consume_left_lt way ht
  exact .observe ⟨.of_lt (.leaf (.mark s) hl) hlt fun _ => .inr rfl, hlt⟩

/-- What a token is made into. -/
theorem leaf_run {way : Scanner.Advance} {form : Reading → Form Node} :
    (leaf way form).Reads s fun n t => n.form = form s.reading ∧ t = s.consume way :=
  ⟨_, _, rfl, rfl, rfl⟩

/-- A node that is missing at a state where this has been reported. -/
theorem missing_reads (ph : Phrase) (ctx : Context) {form : Form Node} {ps : List Part} (hf : s.Faulty)
    (hc : Derived s ps s) (ha : Absence form ps)
    (hform : ∀ h, (Node.mk h form).isArrowParameters = false) :
    (missing form).Reads s fun n t => n.form = form ∧ Built s ⟨ph, ctx, n⟩ t := by
  refine .observe ⟨rfl, ⟨.missing hf hc ha, fun _ => .inr hf⟩, fun harrow => ?_, fun _ => .inl hf⟩
  rw [hform] at harrow
  cases harrow

theorem missingIdentifier_reads (ph : Phrase) (ctx : Context) (hf : s.Faulty) :
    missingIdentifier.Reads s fun n t => Built s ⟨ph, ctx, n⟩ t :=
  (missing_reads ph ctx hf (.nil (.refl s)) .identifier fun _ => rfl).mono fun _ _ h => h.2

/-! ## Ends of statements -/

theorem canOmitSemicolon_reads :
    canOmitSemicolon.Reads s fun b t =>
      t = s ∧ (b = true → s.token = .semicolonToken ∨ s.MayEnd) ∧ (b = false → s.OnLine) := by
  refine .observe ⟨rfl, ?_⟩
  split
  case h_1 h => exact ⟨fun _ => .inl h, nofun⟩
  case h_2 h => exact ⟨fun _ => .inr (.inl h), nofun⟩
  case h_3 h => exact ⟨fun _ => .inr (.inr (.inl h)), nofun⟩
  case h_4 => exact ⟨fun h => .inr (.inr (.inr h)), id⟩

/-- The end of a statement, or a report about a semicolon that is missing. -/
theorem expectSemicolon_ends [s.Ready] :
    expectSemicolon.Reads s fun _ t =>
      t.Faulty ∨ t.MayEnd ∨ s.token = .semicolonToken ∧ t = s.consume .plain := by
  refine accept_takes.bind fun b t _ hm _ h => ?_
  rcases h with ⟨rfl, htok, heq⟩ | ⟨rfl, hne, rfl⟩
  · exact .pure (.inr (.inr ⟨htok, heq⟩))
  · refine canOmitSemicolon_reads.bind fun b u _ hmu _ h => ?_
    obtain ⟨rfl, hends, -⟩ := h
    cases b with
    | true => exact .pure (.inr (.inl ((hends rfl).resolve_left hne)))
    | false => exact reportExpected_reads.mono fun _ _ h => .inl h.faulty

/-- A node whose last token is a semicolon, or that may lack it. -/
theorem closed_lined_reads {r : ParseState} [r.Ready] [s.Ready] {m : Mark} {form : Form Node}
    {ps : List Part} (hm : m.At r) (hc : Extends r ps s)
    (hp : ∀ t, Moves s t → Production t.Faulty ph ctx form ps) (hf : Fruitful r s)
    (hform : ∀ h, (Node.mk h form).isArrowParameters = false)
    (hlined : ∀ t, Moves s t → r.Ended t → t.Faulty ∨ form.Lined r t) :
    (do
      expectSemicolon
      node m form : Parse Node).Reads s fun n t => Built r ⟨ph, ctx, n⟩ t := by
  refine expectSemicolon_ends.bind fun _ t _ hmt _ hends => ?_
  have hft := hf.move hmt ‹_›
  refine lined_built hm (hc.move hmt) (hp t hmt) hft hform ?_
  by_cases hfaulty : t.Faulty
  · exact .inl hfaulty
  have hends := hends.resolve_left hfaulty
  exact hlined t hmt ⟨hft.resolve_right hfaulty,
    hends.imp_right fun ⟨htok, heq⟩ => ⟨s, hc.moves, htok, heq⟩⟩

/-- The same of a form in which no other line break matters. -/
theorem closed_reads {r : ParseState} [r.Ready] [s.Ready] {m : Mark} {form : Form Node}
    {ps : List Part} (hm : m.At r) (hc : Extends r ps s)
    (hp : ∀ t, Moves s t → Production t.Faulty ph ctx form ps) (hf : Fruitful r s)
    (hform : ∀ h, (Node.mk h form).isArrowParameters = false) (hbound : form.isUnbound = true) :
    (do
      expectSemicolon
      node m form : Parse Node).Reads s fun n t => Built r ⟨ph, ctx, n⟩ t :=
  closed_lined_reads hm hc hp hf hform fun _ _ h => .inr (.of_unbound h hbound)

/-! ## Parts that may be absent -/

theorem whenAt_reads {α : Type} {kind : Kind} {p : Parse α} {f : Option α → List Part}
    (hf : f none = []) (hp : s.token = kind → p.Reads s fun a t => Extends s (f (some a)) t) :
    (whenAt kind p).Reads s fun answer t => Extends s (f answer) t :=
  .ifAt (fun h => .map (hp h)) fun _ => .pure (hf ▸ .refl s)

theorem unlessAtAny_reads {α : Type} {kinds : List Kind} {p : Parse α}
    {f : Option α → List Part} (hf : f none = [])
    (hp : s.token ∉ kinds → p.Reads s fun a t => Extends s (f (some a)) t) :
    (unlessAtAny kinds p).Reads s fun answer t => Extends s (f answer) t :=
  .ifAtAny (fun _ => .pure (hf ▸ .refl s)) fun h => .map (hp h)

theorem behind_reads {α : Type} {kind : Kind} {p : Parse α} {f : Option α → List Part} [s.Ready]
    (hk : kind ≠ .endOfFileToken) (hf : f none = [])
    (hp : ∀ (t : ParseState) [t.Ready], Moves s t → t.left < s.left →
      p.Reads t fun a u => Extends t (f (some a)) u) :
    (behind kind p).Reads s fun answer t => Extends s (f answer) t := by
  refine .ifAccept hk (fun t _ hm _ hlt => ?_) fun _ => .pure (hf ▸ .refl s)
  exact .map ((hp t hm hlt).mono fun _ _ h => h.after hm)

/-- A node behind a token. -/
theorem behind_opt {kind : Kind} {p : Parse Node} [s.Ready] (hk : kind ≠ .endOfFileToken)
    (hp : ∀ (t : ParseState) [t.Ready], Moves s t → t.left < s.left →
      p.Reads t fun n u => Built t ⟨ph, ctx, n⟩ u) :
    (behind kind p).Reads s fun n t => Extends s (opt ph ctx n) t :=
  behind_reads hk rfl fun t _ hm hlt => (hp t hm hlt).mono fun _ _ h => h.opt

/-! ## Parts between two tokens -/

section Between
variable {α : Type} {opening closing : Kind} {p : Parse α} {f : α → List Part}

/-- Parts between two tokens, and what holds of the answer. -/
theorem between_holds {P : α → Prop} [s.Ready] (ho : opening ≠ .endOfFileToken)
    (hc : closing ≠ .endOfFileToken)
    (hp : ∀ (t : ParseState) [t.Ready], Moves s t → t.left ≤ s.left →
      (s.token = opening → t.left < s.left) → p.Reads t fun a u => Extends t (f a) u ∧ P a) :
    (between opening closing p).Reads s fun a u =>
      (Extends s (f a) u ∧ Fruitful s u ∧ (s.token = opening → u.left < s.left)) ∧ P a := by
  refine (expect_reads ho).bind fun _ t _ hm hl h => ?_
  have hlt : s.token = opening → t.left < s.left := fun htok =>
    h.elim (fun h => h.2.2) fun h => absurd htok h.2.1
  have hfruit : Fruitful s t := h.elim (fun h => .inl h.2.2) fun h => .inr h.2.2.faulty
  refine (hp t hm hl hlt).bind fun a u hu hm' hl' ha => ?_
  refine (expect_reads hc).bind fun _ v _ hm'' hl'' _ => ?_
  refine .pure ⟨⟨(ha.1.after hm).move hm'', ?_, fun htok => ?_⟩, ha.2⟩
  · exact (hfruit.move hm' (hm.ready ‹_›)).move hm'' hu
  · have hlt := hlt htok
    omega

theorem between_reads [s.Ready] (ho : opening ≠ .endOfFileToken) (hc : closing ≠ .endOfFileToken)
    (hp : ∀ (t : ParseState) [t.Ready], Moves s t → t.left ≤ s.left →
      (s.token = opening → t.left < s.left) → p.Reads t fun a u => Extends t (f a) u) :
    (between opening closing p).Reads s fun a u =>
      Extends s (f a) u ∧ Fruitful s u ∧ (s.token = opening → u.left < s.left) :=
  (between_holds (P := fun _ => True) ho hc fun t _ hm hl hlt =>
    (hp t hm hl hlt).mono fun _ _ h => ⟨h, trivial⟩).mono fun _ _ h => h.1

theorem within_reads {absent : α} [s.Ready] (ho : opening ≠ .endOfFileToken)
    (hc : closing ≠ .endOfFileToken) (hf : f absent = [])
    (hp : ∀ (t : ParseState) [t.Ready], Moves s t → t.left < s.left →
      p.Reads t fun a u => Extends t (f a) u) :
    (within opening closing absent p).Reads s fun a u =>
      Extends s (f a) u ∧ Fruitful s u ∧ (s.token = opening → u.left < s.left) := by
  refine (expect_reads ho).bind fun b t ht hm _ h => ?_
  rcases h with ⟨rfl, _, hlt⟩ | ⟨rfl, hne, hr⟩
  · refine (hp t hm hlt).bind fun a u _ hm' hl' ha => ?_
    refine (expect_reads hc).bind fun _ v _ hm'' hl'' _ => ?_
    exact .pure ⟨(ha.after hm).move hm'', .inl (by omega), fun _ => by omega⟩
  · exact .pure ⟨hf ▸ .nil hm, .inr hr.faulty, fun h => absurd h hne⟩

end Between

/-! ## Lists -/

theorem collect_reads (ph : Phrase) (ctx : Context) {step : Array Node → Parse (Turn (Array Node))} [s.Ready]
    (hstep : ∀ (found : Array Node) (t : ParseState) [t.Ready], Moves s t → t.left ≤ s.left →
      Extends s (all ph ctx found.toList) t →
      (step found).Reads t (AfterTurn (fun found u => Extends s (all ph ctx found.toList) u)
        (fun found u => Extends s (all ph ctx found.toList) u) t)) :
    (collect step).Reads s fun nodes t => Extends s (all ph ctx nodes) t := by
  refine (loop_reads _ (.refl s) hstep).bind fun found t _ _ _ h => ?_
  exact .pure h

/-- Items, each of them behind a separator. Where the separator is there, so is an item. -/
theorem more_reads {separator : Kind} {item : Parse Node} [s.Ready]
    (hk : separator ≠ .endOfFileToken)
    (hitem : ∀ (t : ParseState) [t.Ready], Moves s t → t.left < s.left →
      item.Reads t fun n u => Built t ⟨ph, ctx, n⟩ u) :
    (more separator item).Reads s fun nodes t =>
      Extends s (all ph ctx nodes) t ∧ (s.token = separator → nodes ≠ []) := by
  let I (found : Array Node) (t : ParseState) : Prop :=
    Extends s (all ph ctx found.toList) t ∧ (found = #[] → t = s)
  have h₀ : I #[] s := ⟨.refl s, fun _ => rfl⟩
  refine (loop_reads I h₀ fun found t _ hm hl hfound => ?_).bind fun found t _ _ _ h => .pure h
  refine .ifAccept hk (fun u _ hm' _ hlt => ?_) fun hne => .pure ⟨hfound.1, fun heq hnil => ?_⟩
  · refine (hitem u (hm.trans hm') (by omega)).bind fun n v _ _ hl'' hn => ?_
    exact .pure ⟨by omega, (hfound.1.move hm').all_push hn, fun hnil => by simp at hnil⟩
  · obtain rfl := hfound.2 (Array.toList_eq_nil_iff.mp hnil)
    exact hne heq

/-- A list of items that goes on behind an item. -/
theorem afterItem_reads {close : Kind} {l : Listed} [s.Ready] [t.Ready] (hm : Moves s t)
    {Q : Listed → ParseState → Prop}
    (hQ : ∀ (l' : Listed) (u : ParseState), l'.items = l.items → Moves t u → Q l' u) :
    (afterItem close s.start.offset l).Reads t (AfterTurn Q Q s) := by
  refine .ifAt (fun _ => .pure (hQ l t rfl (.refl t))) fun _ => .look ?_
  refine .ifAccept (by decide) (fun u _ hm' _ hlt => .look (.pure ⟨?_, hQ _ u rfl hm'⟩)) fun _ => ?_
  · have hle := hm.left_le ‹_›
    omega
  refine reportExpected_reads.bind fun _ u _ hm' hl hr => .look ?_
  have hm'' := hm.trans hm'
  refine .pure ?_
  split
  case isTrue => exact hQ l u rfl hm'
  case isFalse hne =>
    have hle := hm''.left_le ‹_›
    have hlt : u.left < s.left := by
      refine Nat.lt_of_le_of_ne hle fun h => hne ?_
      rw [hm''.start_eq ‹_› h]
      exact beq_self_eq_true _
    exact ⟨hlt, hQ l u rfl hm'⟩

theorem atListEnd_reads {close : Kind} {α : Type} {p q : Parse α} {Q : α → ParseState → Prop}
    (hp : p.Reads s Q) (hq : s.token ≠ close → s.token ≠ .endOfFileToken → q.Reads s Q) :
    (atListEnd close >>= fun b => if b = true then p else q).Reads s Q :=
  .ifAtAny (fun _ => hp) fun h =>
    hq (fun heq => h (heq ▸ .head _)) fun heq => h (heq ▸ .tail _ (.head _))

theorem commaList_reads {close : Kind} {item : Array Node → Parse (Option Node)} [s.Ready]
    (hitem : ∀ (before : Array Node) (t : ParseState) [t.Ready], Moves s t → t.left ≤ s.left →
      (item before).Reads t fun answer u => ∀ n ∈ answer, Built t ⟨ph, ctx, n⟩ u) :
    (commaList close item).Reads s fun l t => Extends s (all ph ctx l.toList) t := by
  refine loop_reads (fun l t => Extends s (all ph ctx l.toList) t) (.refl s) fun l t _ hm hl h => ?_
  refine atListEnd_reads (.pure h) fun _ _ => .look ?_
  refine (hitem l.items t hm hl).bind fun answer u _ hm' _ hn => ?_
  cases answer with
  | none => exact .pure (h.move hm')
  | some n =>
    refine afterItem_reads hm' fun l' v hitems hm'' => ?_
    have hpush := h.all_push (hn n rfl)
    have htoList : l'.toList = (l.items.push n).toList := congrArg Array.toList hitems
    exact htoList ▸ hpush.move hm''

theorem commaItems_reads {close : Kind} {item : Parse Node} [s.Ready]
    (hitem : ∀ (t : ParseState) [t.Ready], Moves s t → t.left ≤ s.left →
      item.Reads t fun n u => Built t ⟨ph, ctx, n⟩ u) :
    (commaItems close item).Reads s fun nodes t => Extends s (all ph ctx nodes) t := by
  refine (commaList_reads fun _ t _ hm hl => ?_).bind fun l t _ _ _ h => .pure h
  refine .map ((hitem t hm hl).mono fun n u h n' heq => ?_)
  cases heq
  exact h

end Parse
end EcmaSyntax
