import EcmaSyntax.Proofs.Grammar.Derivation

/-! # Trees without states

What derivations say about trees, apart from where the nodes lie. What holds of a node because
something else would have been reported is stated up to a proposition: that the source is faulty. -/
namespace EcmaSyntax
open ParseState

variable {faulty faulty' : Prop} {ph : Phrase} {ctx : Context} {form : Form Node} {n : Node}

theorem Production.imp {ps : List Part} (hf : faulty → faulty') (h : Production faulty ph ctx form ps) :
    Production faulty' ph ctx form ps := by
  cases h with
  | returnStatement h => exact .returnStatement (h.imp_left hf)
  | withStatement h => exact .withStatement (h.imp_left hf)
  | element h => exact .element (h.imp_left hf)
  | _ => constructor <;> assumption

theorem Leaf.imp {r : Reading} (hf : faulty → faulty') (h : Leaf faulty r ph ctx form) :
    Leaf faulty' r ph ctx form := by
  cases h with
  | privateName h h' => exact .privateName h (h'.imp_left hf)
  | _ => constructor <;> assumption

theorem Serves.imp {ph' : Phrase} {ctx' : Context} (hf : faulty → faulty')
    (h : Serves faulty n ph ctx ph' ctx') : Serves faulty' n ph ctx ph' ctx' := by
  cases h with
  | choice h => exact .choice h
  | functionBody h => exact .functionBody (h.imp_left hf)
  | classBody h => exact .classBody (hf h)
  | innerImport h => exact .innerImport (hf h)
  | innerExport h => exact .innerExport (hf h)
  | enclosed => exact .enclosed
  | asyncArrow h => exact .asyncArrow h
  | operand h => exact .operand h
  | coverOperand h => exact .coverOperand h
  | binding h => exact .binding h
  | arrow h => exact .arrow h
  | coveredArrow h => exact .coveredArrow h
  | parameter h => exact .parameter h
  | asyncParameter => exact .asyncParameter

open Grammar in
/-- A part that has been read. -/
inductive Parsed (faulty : Prop) : Part → Prop
  | node {h : Header} {ph : Phrase} {ctx : Context} {form : Form Node} {ps : List Part} :
      Production faulty ph ctx form ps → (∀ p ∈ ps, Parsed faulty p) →
      Parsed faulty ⟨ph, ctx, .mk h form⟩
  | leaf {h : Header} {r : Reading} {ph : Phrase} {ctx : Context} {form : Form Node} :
      r.Ready → Leaf faulty r ph ctx form → Parsed faulty ⟨ph, ctx, .mk h form⟩
  | missing {h : Header} {ph : Phrase} {ctx : Context} {form : Form Node} {ps : List Part} :
      faulty → Absence form ps → (∀ p ∈ ps, Parsed faulty p) → Parsed faulty ⟨ph, ctx, .mk h form⟩
  | serve {n : Node} {ph ph' : Phrase} {ctx ctx' : Context} :
      Parsed faulty ⟨ph, ctx, n⟩ → Serves faulty n ph ctx ph' ctx' → Parsed faulty ⟨ph', ctx', n⟩
  | simple {ctx : Context} {n : Node} : Parsed faulty ⟨.parameterName, ctx, n⟩ →
      Parsed faulty ⟨.arrowParameters, ctx, simpleParameters n⟩
  | parenthesized {h : Header} {u : ParseState} {ctx : Context} {arguments inner : Node} :
      Parsed faulty ⟨.coverList, ctx, arguments⟩ → (u.Faulty → faulty) →
      Regrouped u arguments inner → Parsed faulty ⟨.primary, ctx, .mk h (.parenthesized inner)⟩
  | deeper {n : Node} {ph : Phrase} {ctx : Context} :
      Parsed faulty ⟨ph.body, ctx, n⟩ → Parsed faulty ⟨ph, ctx, n⟩

/-- What is derived up to a state has been read, and whatever makes the state faulty makes the
source faulty. -/
theorem Derived.parsed {s t : ParseState} {ps : List Part} (h : Derived s ps t) (hs : s.Ready)
    (ht : t.Faulty → faulty) : ∀ p ∈ ps, Parsed faulty p := by
  induction h with
  | nil => exact nofun
  | append hd hd' _ ih ih' =>
    intro p hp
    rcases List.mem_append.mp hp with hp | hp
    · exact ih hs (fun hf => ht (hd'.moves.faulty hf)) p hp
    · exact ih' (hd.moves.ready hs) ht p hp
  | node _ _ hp _ ih =>
    exact List.forall_mem_singleton.mpr (.node (hp.imp ht) (ih hs ht))
  | @leaf s _ _ _ _ way _ hl =>
    have hm : Moves s (s.consume way) := .single (.consume _ _)
    exact List.forall_mem_singleton.mpr (.leaf hs.token (hl.imp fun hf => ht (hm.faulty hf)))
  | missing hf _ ha ih => exact List.forall_mem_singleton.mpr (.missing (ht hf) ha (ih hs ht))
  | serve _ hserves ih =>
    have hn := ih hs ht _ (List.mem_singleton_self _)
    exact List.forall_mem_singleton.mpr (.serve hn (hserves.imp ht))
  | simple _ ih =>
    exact List.forall_mem_singleton.mpr (.simple (ih hs ht _ (List.mem_singleton_self _)))
  | parenthesized _ hm hr ih =>
    have hlist := ih hs (fun hf => ht (hm.faulty hf)) _ (List.mem_singleton_self _)
    exact List.forall_mem_singleton.mpr (.parenthesized hlist ht hr)
  | deeper _ _ ih =>
    have hn := ih hs.deeper ht _ (List.mem_singleton_self _)
    exact List.forall_mem_singleton.mpr (.deeper hn)

/-- What holds of the elements of a list, and of two expressions joined by a comma if it holds of
both, holds of the expression that the list makes. -/
theorem Grammar.Regrouped.induct {P : Node → Prop} {u : ParseState} {arguments inner : Node}
    (h : Regrouped u arguments inner)
    (join : ∀ left right, P left → P right → P (commaJoined left right))
    (element : ∀ e ∈ argumentElements arguments, P (elementExpression e))
    (missing : ∀ h, P (.mk h (.identifier false "" none))) : P inner := by
  cases h with
  | @joined first rest hmap _ =>
    have hall : ∀ n ∈ first :: rest, P n := hmap ▸ List.forall_mem_map.mpr element
    clear hmap
    induction rest generalizing first with
    | nil => exact hall first List.mem_cons_self
    | cons n rest ih =>
      simp only [List.forall_mem_cons] at hall
      refine ih (List.forall_mem_cons.mpr ⟨join first n hall.1 hall.2.1, hall.2.2⟩)
  | missing => exact missing _

theorem Production.phrase_ne_identifier {ps : List Part} (h : Production faulty ph ctx form ps) :
    ph ≠ .identifier := by
  intro heq
  cases h
  case signature sort _ _ _ => cases sort <;> cases heq
  case combinedType sort _ _ _ => cases sort <;> cases heq
  all_goals cases heq

end EcmaSyntax
