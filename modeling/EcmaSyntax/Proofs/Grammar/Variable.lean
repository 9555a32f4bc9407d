import EcmaSyntax.Proofs.Grammar.Parameter

/-! # Reading variables

The keyword before variables has been consumed when the first of them is read, so that a list of
variables is never read for nothing. -/
namespace EcmaSyntax.Grammar
open Parse ParseState Part
variable [Recursion] {W : Nat} [Lawful W] {r r' s t : ParseState} [r.Ready] [r'.Ready] [s.Ready]
variable {ctx : Context} {flags : NodeFlags}

omit [Recursion] in
theorem assertedMark_reads {name : Node} : (assertedMark name).Reads s fun _ _ => True :=
  .look (.ite (fun _ => (accept_reads (by decide)).mono fun _ _ _ => trivial) fun _ => .pure trivial)

theorem variableDeclaration_reads (hb : s.left * 8 ≤ W) :
    (variableDeclaration ctx).Reads s fun n t => Built s ⟨.variable, ctx, n⟩ t := by
  refine .look ((bindingName_reads hb).bind fun name t _ _ hl hname => ?_)
  refine assertedMark_reads.bind fun definite u _ hmu hl' _ => ?_
  refine (typeAscription_reads (by omega)).bind fun type v _ _ hl'' htype => ?_
  refine (initializer_reads (by omega)).bind fun value w _ _ _ hvalue => ?_
  have hc := ((hname.toExtends.move hmu).append htype).append hvalue
  exact node_built (.mark s) hc .variable (hc.fruitful (by simp)) (fun _ => rfl) rfl

theorem variableTurn_reads {found : Array Node} [t.Ready] (hb : t.left * 8 ≤ W)
    (h : Extends s (all .variable ctx found.toList) t) :
    (variableTurn ctx found).Reads t
      (AfterTurn (fun found u => Extends s (all .variable ctx found.toList) u)
        (fun found u => Extends s (all .variable ctx found.toList) u) t) := by
  refine (variableDeclaration_reads hb).bind fun n u _ _ hl hn => ?_
  have hpush := h.all_push hn
  refine (accept_reads (by decide)).bind fun b v _ hm _ hb' => .pure ?_
  rcases hb' with ⟨rfl, -, hlt⟩ | ⟨rfl, -, -⟩
  · exact ⟨by omega, hpush.move hm⟩
  · exact hpush.move hm

/-- Variables behind their keyword, where the mark stands. -/
theorem variableDeclarations_reads {keyword : Mark} (hb : s.left * 8 ≤ W) (hm : keyword.At r)
    (hr : Moves r s) (hlt : s.left < r.left) (hf : flags.has .hasErrors = false) :
    (variableDeclarations ctx keyword flags).Reads s fun n t => Built r ⟨.variableList, ctx, n⟩ t := by
  refine (collect_reads .variable ctx fun found t _ _ hl h => variableTurn_reads (by omega) h).bind
    fun found t _ _ hl h => ?_
  exact node_built (hm.withFlags flags hf) (h.after hr) .variableList (.inl (by omega)) (fun _ => rfl) rfl

theorem variableStatement_reads {m keyword : Mark} (hb : s.left * 8 ≤ W) (hm : m.At r)
    (hr : Moves r r') (hk : keyword.At r') (hr' : Moves r' s) (hlt : s.left < r'.left)
    (hf : flags.has .hasErrors = false) :
    (variableStatement ctx m keyword flags).Reads s fun n t =>
      Built r ⟨.variableStatement (flags.meets NodeFlag.blockScoped), ctx, n⟩ t := by
  refine (variableDeclarations_reads hb hk hr' hlt hf).bind fun ds t _ _ _ hds => ?_
  have hc := hds.toExtends.after hr
  exact closed_reads hm hc (fun _ _ => .variableStatement) (hc.fruitful nofun) (fun _ => rfl) rfl

omit [Recursion] in
/-- The word `let` is consumed where it begins a declaration. -/
theorem acceptLet_reads (ht : s.token ≠ .endOfFileToken) :
    (acceptLet ctx).Reads s fun b t =>
      (b = true ∧ t.left < s.left) ∨ (b = false ∧ t = s.flush) :=
  advanceIf_reads ht fun _ _ => tokenIs_reads.mono fun _ _ h => h.1

end EcmaSyntax.Grammar
