import EcmaSyntax.Proofs.Grammar.Name

/-! # Reading statements and expressions

Lists of statements with their directives, blocks, and operands of the comma operator. Every turn
through a list of statements moves on: behind a statement that was read for nothing a token is
skipped. -/
namespace EcmaSyntax
open Parse Part

namespace Grammar

/-! ## Bodies -/

@[simp] theorem Body.statements_push (b : Body) (n : Node) :
    (b.push n).statements = b.statements.push n := by
  unfold Body.push
  split <;> rfl

end Grammar

theorem Part.body_concat {inModule : Bool} (b : Grammar.Body) (ss : List Node) (n : Node) :
    body inModule b (ss ++ [n]) =
      body inModule b ss ++ [⟨.item inModule, (ss.foldl Grammar.Body.push b).ctx, n⟩] := by
  induction ss generalizing b with
  | nil => rfl
  | cons _ _ ih => simp [body, ih]

namespace Grammar
variable {s t : ParseState} {ctx : Context} {inModule : Bool}

theorem Body.check_reads {b : Body} {n : Node} :
    (b.check n).Reads s fun _ t => s.Still t := by
  unfold Body.check
  split
  · exact .pure (.refl s)
  · exact .ite (fun _ => reportAt_reads.mono fun _ _ h => h.still) fun _ => .pure (.refl s)

/-- A body whose statements have been read since a state. -/
structure Body.ReadSince (inModule : Bool) (s : ParseState) (b₀ b : Body) (t : ParseState) :
    Prop where
  pushed : b = b.statements.toList.foldl Body.push b₀
  parts : Extends s (body inModule b₀ b.statements.toList) t

namespace Body.ReadSince
variable {b₀ b : Body} {n : Node} {u : ParseState}

theorem push [s.Ready] (h : ReadSince inModule s b₀ b t)
    (hn : Built t ⟨.item inModule, b.ctx, n⟩ u) : ReadSince inModule s b₀ (b.push n) u := by
  refine ⟨?_, ?_⟩
  · rw [Body.statements_push, Array.toList_push, List.foldl_append, ← h.pushed]
    rfl
  · rw [Body.statements_push, Array.toList_push, body_concat, ← h.pushed]
    exact h.parts.part hn

theorem move [s.Ready] (h : ReadSince inModule s b₀ b t) (hm : Moves t u) :
    ReadSince inModule s b₀ b u := ⟨h.pushed, h.parts.move hm⟩

end Body.ReadSince

theorem braced_reads {directives : Bool} {p : Parse (List Node)} [s.Ready]
    (hp : ∀ (t : ParseState) [t.Ready], Moves s t → t.left < s.left →
      p.Reads t fun ss u => Extends t (body false ⟨ctx, directives, #[]⟩ ss) u) :
    (braced p).Reads s fun n t => Built s ⟨.block directives, ctx, n⟩ t := by
  refine .look ((within_reads (by decide) (by decide) rfl hp).bind fun ss t _ _ _ h => ?_)
  exact node_built (.mark s) h.1 .block h.2.1 (fun _ => rfl) rfl

variable [Recursion] {W : Nat} [Lawful W] {isEnd : Kind → Bool}

theorem bodyTurn_reads {b₀ b : Body} [s.Ready] [t.Ready] (hb : t.left * 8 + 8 ≤ W)
    (h : Body.ReadSince inModule s b₀ b t) :
    (bodyTurn inModule isEnd b).Reads t (AfterTurn (Body.ReadSince inModule s b₀)
      (fun b u => Body.ReadSince inModule s b₀ b u ∧
        (u.token = .endOfFileToken ∨ isEnd u.token = true)) t) := by
  refine .look (.ite (fun hend => .pure ⟨h, ?_⟩) fun hend => ?_)
  · exact (Bool.or_eq_true_iff.mp hend).imp_left eq_of_beq
  have hne : t.token ≠ .endOfFileToken := fun heq => hend (by simp [heq])
  refine .ite (fun _ => .look ?_) fun _ => ?_
  · refine (item_rule hb).bind fun n u _ hm hl hn => ?_
    refine Body.check_reads.bind fun _ v _ hm' hl' hs => ?_
    refine (ifUnmoved_moves (hm.trans hm') hne skip_reads).bind fun _ w _ hm'' _ hlt => ?_
    exact .pure ⟨hlt, ((h.push hn).move hm').move hm''⟩
  · refine reportHere_reads.bind fun _ u _ hm _ hr => ?_
    have hne : u.token ≠ .endOfFileToken := hr.still.token_eq ▸ hne
    refine (consume_reads .expression hne).bind fun _ v _ hm' _ hlt => ?_
    refine .pure ⟨?_, (h.move hm).move hm'⟩
    have hle := hr.still.left_eq
    omega

/-- A list of statements, and why it ends. -/
theorem statementList_reads {directives : Bool} [s.Ready] (hb : s.left * 8 + 8 ≤ W) :
    (statementList ctx inModule directives isEnd).Reads s fun ss t =>
      Extends s (body inModule ⟨ctx, directives, #[]⟩ ss) t ∧
        (t.token = .endOfFileToken ∨ isEnd t.token = true) := by
  have h₀ : Body.ReadSince inModule s ⟨ctx, directives, #[]⟩ ⟨ctx, directives, #[]⟩ s :=
    ⟨rfl, .refl s⟩
  refine (loop_reads _ h₀ fun b t _ hm hl h => bodyTurn_reads (by omega) h).bind
    fun b t _ _ _ h => ?_
  exact .pure ⟨h.1.parts, h.2⟩

/-! ## Blocks -/

theorem block_reads [s.Ready] (hb : s.left * 8 ≤ W) :
    (block ctx).Reads s fun n t => Built s ⟨.block false, ctx, n⟩ t :=
  braced_reads fun t _ _ hlt =>
    (statementList_reads (by omega)).mono fun _ _ h => h.1

theorem functionBlock_reads [s.Ready] (hb : s.left * 8 ≤ W) :
    (functionBlock ctx).Reads s fun n t => Built s ⟨.block true, ctx, n⟩ t :=
  braced_reads fun t _ _ hlt =>
    (statementList_reads (by omega)).mono fun _ _ h => h.1

/-! ## Expressions -/

theorem expression_reads [s.Ready] (hb : s.left * 8 + 5 ≤ W) :
    (expression ctx).Reads s fun n t => Built s ⟨.expression, ctx, n⟩ t := by
  refine .look ((assignment_rule hb).bind fun n t _ hm hl hn => ?_)
  refine loop_reads (fun n t => Built s ⟨.expression, ctx, n⟩ t) (hn.choose (by simp))
    fun left u _ hm' hl' hleft => ?_
  refine .ifAccept (by decide) (fun v _ hm'' _ hlt => ?_) fun _ => .pure hleft
  refine (assignment_rule (by omega)).bind fun right w _ hm₃ hl₃ hright => ?_
  have hc : Extends s _ w := (hleft.toExtends.move hm'').part hright
  refine (node_reads (.mark s) hc .comma (hc.fruitful nofun) (fun _ => rfl) rfl).bind fun n x _ hm₄ _ hx => ?_
  obtain ⟨rfl, -, hx⟩ := hx
  exact .pure ⟨by omega, hx⟩

end Grammar
end EcmaSyntax
