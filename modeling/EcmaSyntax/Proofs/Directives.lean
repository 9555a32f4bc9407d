import EcmaSyntax.Proofs.Inertness
import EcmaSyntax.Proofs.Token.Strings

/-! # Directives

The strings at the start of a body are directives. A list of statements reads each of them in the
context of the list, made strict by the directives before it and by nothing else: not by a list
without directives, nor by a string behind another statement. The directive is looked for between
the first and the last character of a string, so that a string which lacks its end counts as well,
if one character stands where the quote should. -/
namespace EcmaSyntax
open Parse Grammar

namespace Grammar

/-! ## Texts of directives -/

theorem holdsExactly_iff {inner quoted : String} :
    holdsExactly inner quoted = true ↔
      ∃ first last, Text.isAscii last = true ∧ quoted.toList = first :: (inner.toList ++ [last]) := by
  unfold holdsExactly
  constructor
  · intro h
    split at h
    case h_1 => cases h
    case h_2 first rest hquoted =>
      rw [Bool.and_eq_true, beq_iff_eq, Option.any_eq_true] at h
      obtain ⟨hinner, last, hlast, hascii⟩ := h
      obtain ⟨front, rfl⟩ := List.getLast?_eq_some_iff.mp hlast
      rw [List.dropLast_concat] at hinner
      exact ⟨first, last, hascii, by rw [hquoted, hinner]⟩
  · rintro ⟨first, last, hascii, hquoted⟩
    rw [hquoted]
    simp [hascii]

/-- The statements at the start of a body that are directives. -/
def prologue (statements : List Node) : List Node :=
  statements.takeWhile (·.directiveText?.isSome)

end Grammar

namespace Node

/-- Whether a statement is a directive that makes the statements behind it strict code. -/
def turnsStrict (n : Node) : Bool :=
  n.directiveText?.any fun (text, _) => holdsExactly "use strict" text

/-- A statement is a string that asks for strict code, or one that lacks its end behind such a text
and one more character. -/
def TurnsStrict (n : Node) : Prop :=
  ∃ e text flags, n.form = .expressionStatement e ∧ e.form = .literal .stringLiteral text flags ∧
    (flags.has .unterminated = false ∧ text ∈ ["'use strict'", "\"use strict\""] ∨
      flags.has .unterminated = true ∧ ∃ quote ∈ ['\x22', '\''], ∃ last, Text.isAscii last = true ∧
        text.toList = quote :: ("use strict".toList ++ [last]))

/-- A node that is a string is spelled as one. -/
def KeepsQuotes (n : Node) : Prop :=
  ∀ text flags, n.form = .literal .stringLiteral text flags →
    QuotedText (flags.has .unterminated) text.toList

theorem turnsStrict_iff {n : Node} (h : ∀ c ∈ n.children, c.KeepsQuotes) :
    n.turnsStrict = true ↔ n.TurnsStrict := by
  unfold turnsStrict directiveText? TurnsStrict
  constructor
  · intro hturns
    obtain ⟨⟨text, range⟩, htext, hholds⟩ := (Option.any_eq_true _ _).mp hturns
    split at htext
    case h_2 => cases htext
    case h_1 e hform =>
    split at htext
    case h_2 => cases htext
    case h_1 text' flags hliteral =>
    cases htext
    have hchild : e ∈ n.children := by
      rw [children, hform]
      exact List.mem_singleton_self _
    obtain ⟨quote, hquote, inner, hspelling, hclosed⟩ := h e hchild text flags hliteral
    obtain ⟨first, last, hascii, hquoted⟩ := holdsExactly_iff.mp hholds
    obtain ⟨rfl, rfl⟩ := List.cons.inj (hspelling.symm.trans hquoted)
    refine ⟨e, text, flags, hform, hliteral, ?_⟩
    cases hflag : flags.has .unterminated with
    | true => exact .inr ⟨rfl, quote, hquote, last, hascii, hquoted⟩
    | false =>
      obtain ⟨body, hbody⟩ := hclosed hflag
      obtain ⟨-, hlast⟩ := List.append_inj' hbody rfl
      cases hlast
      have htext : text = String.ofList (quote :: ("use strict".toList ++ [quote])) := by
        rw [← hquoted, String.ofList_toList]
      refine .inl ⟨rfl, ?_⟩
      rw [htext]
      simp only [List.mem_cons, List.not_mem_nil, or_false] at hquote
      rcases hquote with rfl | rfl <;> decide
  · rintro ⟨e, text, flags, hform, hliteral, hcase⟩
    simp only [hform, hliteral, Option.any_some]
    rcases hcase with ⟨-, htext⟩ | ⟨-, quote, -, last, hascii, hquoted⟩
    · simp only [List.mem_cons, List.not_mem_nil, or_false] at htext
      rcases htext with rfl | rfl <;> decide
    · exact holdsExactly_iff.mpr ⟨quote, last, hascii, hquoted⟩

end Node

/-! ## Contexts of statements -/

namespace Grammar

theorem has_directiveContext (ctx : Context) (text : String) (mode : Mode) :
    (directiveContext ctx text).has mode =
      (ctx.has mode || decide (mode = .strict) && !ctx.isModule && holdsExactly "use strict" text) := by
  unfold directiveContext
  cases hm : ctx.isModule <;> cases ht : holdsExactly "use strict" text <;>
    simp [Context.has_including]

/-- The context behind statements of a body is made strict by the directives among them alone. -/
theorem Body.has_pushed (b : Body) (statements : List Node) (mode : Mode) :
    (statements.foldl push b).ctx.has mode =
      (b.ctx.has mode || decide (mode = .strict) && !b.ctx.isModule && b.inDirectives &&
        (prologue statements).any (·.turnsStrict)) := by
  induction statements generalizing b with
  | nil => simp [prologue]
  | cons n rest ih =>
    rw [List.foldl_cons, ih]
    cases hd : b.directive? n with
    | none =>
      have hpush : b.push n = ⟨b.ctx, false, b.statements.push n⟩ := by simp [push, hd]
      rw [hpush]
      have hno : (b.inDirectives && (prologue (n :: rest)).any (·.turnsStrict)) = false := by
        cases hin : b.inDirectives
        · rfl
        · have htext : n.directiveText? = none := by simpa [directive?, hin] using hd
          simp [prologue, htext]
      rw [Bool.and_assoc _ b.inDirectives, hno]
      simp
    | some directive =>
      obtain ⟨text, range⟩ := directive
      obtain ⟨hin, htext⟩ : b.inDirectives = true ∧ n.directiveText? = some (text, range) := by
        simpa [directive?] using hd
      have hpush : b.push n = ⟨directiveContext b.ctx text, true, b.statements.push n⟩ := by
        simp [push, hd]
      have hmodule : (directiveContext b.ctx text).isModule = b.ctx.isModule := by
        simp [Context.isModule, has_directiveContext]
      have hstarts : (prologue (n :: rest)).any (·.turnsStrict) =
          (holdsExactly "use strict" text || (prologue rest).any (·.turnsStrict)) := by
        simp [prologue, htext, Node.turnsStrict]
      rw [hpush, hstarts, hin]
      simp only [hmodule, has_directiveContext]
      cases b.ctx.has mode <;> cases decide (mode = .strict) <;> cases b.ctx.isModule <;>
        cases holdsExactly "use strict" text <;> rfl

end Grammar

/-! ## Strings in trees -/

/-- A state on a token that is spelled as a string if it is one. -/
structure ParseState.Quoted (s : ParseState) : Prop where
  ready : s.Ready
  quotes : s.reading.KeepsQuotes

namespace ParseState.Quoted
variable {s t : ParseState}

theorem step (h : s.Quoted) (hstep : Step s t) : t.Quoted := by
  refine ⟨hstep.ready h.ready, ?_⟩
  have hquotes := h.quotes
  cases hstep with
  | flush => exact hquotes
  | consume way =>
    exact Scanner.advance_keepsQuotes (s := s.flush.scanner) way h.ready.token.stop_sound
  | reread way => exact Scanner.reread_keepsQuotes way h.ready.start_sound hquotes
  | push d =>
    unfold ParseState.push
    split <;> exact hquotes
  | reportLimit =>
    unfold ParseState.reportLimit
    split <;> exact hquotes

theorem moves (h : s.Quoted) (hm : Moves s t) : t.Quoted :=
  hm.preserves (fun hstep hs => hs.step hstep) h

theorem along (h : s.Quoted) (hway : Along s t) : t.Quoted :=
  hway.preserves (fun hstep hs => hs.step hstep) (fun _ hs => ⟨hs.ready.deeper, hs.quotes⟩) h

end ParseState.Quoted

theorem firstToken_quoted (text : List Char) : (ParseState.firstToken text).Quoted := by
  refine ⟨inferInstance, ?_⟩
  have hsound := (Scanner.skipShebang_reaches text).sound (Cursor.start_sound text)
  exact Scanner.advance_keepsQuotes (s := (ParseState.ofText text).flush.scanner) .expression hsound

theorem Leaf.keepsQuotes {faulty : Prop} {s : ParseState} {ph : Phrase} {ctx : Context}
    {form : Form Node} (h : Leaf faulty s.reading ph ctx form) (hs : s.Quoted) (header : Header) :
    (Node.mk header form).KeepsQuotes := by
  intro text flags hform
  have hname : nameForm s.reading ≠ .literal .stringLiteral text flags := by
    unfold nameForm
    split <;> exact nofun
  cases h with
  | literal hk =>
    obtain ⟨htoken, htext, hflags⟩ := Form.literal.inj hform
    obtain ⟨quote, hquote, inner, hspelling, hclosed⟩ := hs.quotes htoken
    refine ⟨quote, hquote, inner, ?_, fun hflag => hclosed ?_⟩
    · rw [← htext, Reading.text, String.toList_ofList, hspelling]
    · have hother : (FlagSet.one TokenFlag.precedingLineBreak).has .unterminated = false := rfl
      rwa [← hflags, FlagSet.has_sdiff, hother, Bool.not_false, Bool.and_true] at hflag
  | keyword | childText => cases hform
  | _ => exact absurd hform hname

/-- All strings in what has been read are spelled as such. -/
theorem Derived.keepsQuotes {s t : ParseState} {ps : List Part} (h : Derived s ps t)
    (hs : s.Quoted) : ∀ p ∈ ps, ∀ n : Node, n.Within p.node → n.KeepsQuotes := by
  induction h with
  | nil => exact nofun
  | append hd _ _ ih ih' =>
    intro p hp
    rcases List.mem_append.mp hp with hp | hp
    · exact ih hs p hp
    · exact ih' (hs.moves hd.moves) p hp
  | @node s t m ph ctx form ps _ _ hprod _ ih =>
    rw [List.forall_mem_singleton]
    intro n hn
    rcases Node.within_iff.mp hn with rfl | ⟨c, hc, hn⟩
    · intro text flags hform
      cases hprod <;> cases hform
    · have hc : c ∈ ps.map Part.node := hprod.children_eq ▸ hc
      obtain ⟨p, hp, rfl⟩ := List.mem_map.mp hc
      exact ih hs p hp n hn
  | @leaf s m ph ctx form way _ hl =>
    rw [List.forall_mem_singleton]
    intro n hn
    rcases Node.within_iff.mp hn with rfl | ⟨c, hc, -⟩
    · exact hl.keepsQuotes hs _
    · have hc : c ∈ form.children := hc
      rw [hl.children_eq] at hc
      cases hc
  | @missing s ph ctx form ps _ _ ha ih =>
    rw [List.forall_mem_singleton]
    intro n hn
    rcases Node.within_iff.mp hn with rfl | ⟨c, hc, hn⟩
    · intro text flags hform
      cases ha <;> cases hform
    · have hc : c ∈ ps.map Part.node := ha.children_eq ▸ hc
      obtain ⟨p, hp, rfl⟩ := List.mem_map.mp hc
      exact ih hs p hp n hn
  | serve _ _ ih =>
    exact List.forall_mem_singleton.mpr (List.forall_mem_singleton.mp (ih hs))
  | @simple s t ctx n _ ih =>
    have hname := List.forall_mem_singleton.mp (ih hs)
    rw [List.forall_mem_singleton]
    intro m hm
    rcases Node.within_iff.mp hm with rfl | ⟨c, hc, hin⟩
    · exact nofun
    · exact hname m (List.mem_singleton.mp hc ▸ hin)
  | @parenthesized s t u ctx arguments inner _ _ hr ih =>
    have hlist := List.forall_mem_singleton.mp (ih hs)
    rw [List.forall_mem_singleton]
    intro n hn
    rcases Node.within_iff.mp hn with rfl | ⟨c, hc, hin⟩
    · exact nofun
    · have hin : n.Within inner := List.mem_singleton.mp hc ▸ hin
      rcases hr.within hin with hin | ⟨left, right, rfl⟩ | ⟨-, rfl⟩
      · exact hlist n hin
      · exact nofun
      · exact nofun
  | deeper _ _ ih =>
    have hn := List.forall_mem_singleton.mp (ih ⟨hs.ready.deeper, hs.quotes⟩)
    exact List.forall_mem_singleton.mpr hn

/-! ## Lists of statements -/

/-- A part of a body is read in the context behind the statements before it. -/
theorem Part.body_split {inModule : Bool} {b : Body} {ss : List Node} {before after : List Part}
    {p : Part} (h : body inModule b ss = before ++ p :: after) :
    p.ctx = ((before.map Part.node).foldl Body.push b).ctx := by
  induction before generalizing b ss with
  | nil =>
    cases ss with
    | nil => cases h
    | cons n rest =>
      cases h
      rfl
  | cons q before ih =>
    cases ss with
    | nil => cases h
    | cons n rest =>
      obtain ⟨rfl, hrest⟩ := List.cons.inj h
      exact ih hrest

namespace Grammar

section Lists
variable [Recursion] {inModule : Bool} {isEnd : Kind → Bool}

/-- Statements that have been read one behind the other, each as an item in its context. Between
them there may be tokens that start none. -/
inductive Listing (inModule : Bool) : ParseState → List Part → ParseState → Prop
  | nil {s t : ParseState} : Moves s t → Listing inModule s [] t
  | cons {s t u v : ParseState} {p : Part} {ps : List Part} : Moves s t →
      (recur (.item inModule p.ctx)).run t = some (p.node, u) → Listing inModule u ps v →
      Listing inModule s (p :: ps) v

namespace Listing
variable {s t u : ParseState} {ps : List Part} {p : Part}

theorem move (h : Listing inModule s ps t) (hm : Moves t u) : Listing inModule s ps u := by
  induction h with
  | nil h => exact .nil (h.trans hm)
  | cons h hrun _ ih => exact .cons h hrun (ih hm)

theorem concat (h : Listing inModule s ps t)
    (hrun : (recur (.item inModule p.ctx)).run t = some (p.node, u)) :
    Listing inModule s (ps ++ [p]) u := by
  induction h with
  | nil h => exact .cons h hrun (.nil (.refl u))
  | cons h hrun' _ ih => exact .cons h hrun' (ih hrun)

end Listing

/-- A body whose statements have been read since a state. -/
structure Body.ListedSince (inModule : Bool) (s : ParseState) (b₀ b : Body) (t : ParseState) :
    Prop where
  pushed : b = b.statements.toList.foldl Body.push b₀
  listing : Listing inModule s (Part.body inModule b₀ b.statements.toList) t
  quotes : ∀ n ∈ b.statements.toList, ∀ c ∈ n.children, c.KeepsQuotes

namespace Body.ListedSince
variable {s t u : ParseState} {b₀ b : Body} {n : Node}

theorem push (h : ListedSince inModule s b₀ b t)
    (hrun : (recur (.item inModule b.ctx)).run t = some (n, u))
    (hn : ∀ c ∈ n.children, c.KeepsQuotes) : ListedSince inModule s b₀ (b.push n) u := by
  constructor
  · rw [Body.statements_push, Array.toList_push, List.foldl_append, ← h.pushed]
    rfl
  · rw [Body.statements_push, Array.toList_push, Part.body_concat, ← h.pushed]
    exact h.listing.concat (p := ⟨.item inModule, b.ctx, n⟩) hrun
  · rw [Body.statements_push, Array.toList_push]
    exact List.forall_mem_append.mpr ⟨h.quotes, List.forall_mem_singleton.mpr hn⟩

theorem move (h : ListedSince inModule s b₀ b t) (hm : Moves t u) :
    ListedSince inModule s b₀ b u := ⟨h.pushed, h.listing.move hm, h.quotes⟩

end Body.ListedSince

section Lawful
variable {W : Nat} [Lawful W] {s t : ParseState} {b₀ b : Body}

/-- A turn reads a statement in the context of the body, or skips a token. -/
theorem bodyTurn_lists [ht : t.Ready] (hq : t.Quoted) (hb : t.left * 8 + 8 ≤ W)
    (h : Body.ListedSince inModule s b₀ b t) :
    (bodyTurn inModule isEnd b).Reads t
      (AfterTurn (Body.ListedSince inModule s b₀) (Body.ListedSince inModule s b₀) t) := by
  refine .look (.ite (fun _ => .pure h) fun hend => ?_)
  have hne : t.token ≠ .endOfFileToken := fun heq => hend (by simp [heq])
  refine .ite (fun _ => .look ?_) fun _ => ?_
  · obtain ⟨n, u, hrun, hn⟩ : (recur (.item inModule b.ctx)).Reads t fun n u =>
        Built t ⟨.item inModule, b.ctx, n⟩ u := item_rule hb
    have hitem : (recur (.item inModule b.ctx)).Reads t fun n' u' => n' = n ∧ u' = u :=
      ⟨n, u, hrun, rfl, rfl⟩
    refine hitem.bind fun n' u' _ hm _ heq => ?_
    obtain ⟨rfl, rfl⟩ := heq
    have hquotes : ∀ c ∈ n'.children, c.KeepsQuotes := fun c hc =>
      hn.derived.keepsQuotes hq _ (List.mem_singleton_self _) c (.child .root hc)
    refine Body.check_reads.bind fun _ v _ hm' _ _ => ?_
    refine (ifUnmoved_moves (hm.trans hm') hne skip_reads).bind fun _ w _ hm'' _ hlt => ?_
    exact .pure ⟨hlt, ((h.push hrun hquotes).move hm').move hm''⟩
  · refine reportHere_reads.bind fun _ u _ hm _ hr => ?_
    have hne : u.token ≠ .endOfFileToken := hr.still.token_eq ▸ hne
    refine (consume_reads .expression hne).bind fun _ v _ hm' _ hlt => ?_
    have hle := hr.still.left_eq
    exact .pure ⟨by omega, (h.move hm).move hm'⟩

end Lawful
end Lists

/-- Wherever a parse reads a list of statements, each of them is read in the context of the list,
with strict code added only by the directives that the list begins with. -/
theorem statementList_directed {source : String} {s : ParseState}
    (hs : Along (.firstToken source.toList) s) (ctx : Context) (inModule directives : Bool)
    (isEnd : Kind → Bool) :
    ∃ ps t, (@statementList top ctx inModule directives isEnd).run s = some (ps.map Part.node, t) ∧
      @Listing top inModule s ps t ∧ ∀ before p after, ps = before ++ p :: after → ∀ mode,
        (p.ctx.has mode = true ↔ ctx.has mode = true ∨
          mode = .strict ∧ ctx.isModule = false ∧ directives = true ∧
            ∃ n ∈ prologue (before.map Part.node), n.TurnsStrict) := by
  let := top
  have := top_lawful (s.left * 8 + 8)
  have hq := (firstToken_quoted source.toList).along hs
  have := hq.ready
  have h₀ : Body.ListedSince inModule s ⟨ctx, directives, #[]⟩ ⟨ctx, directives, #[]⟩ s :=
    ⟨rfl, .nil (.refl s), nofun⟩
  have hloop : (loop (bodyTurn inModule isEnd) ⟨ctx, directives, #[]⟩).Reads s
      (Body.ListedSince inModule s ⟨ctx, directives, #[]⟩) :=
    loop_reads _ h₀ fun b t _ hm hl h => bodyTurn_lists (hq.moves hm) (by omega) h
  obtain ⟨b, t, hrun, h⟩ := hloop
  refine ⟨Part.body inModule ⟨ctx, directives, #[]⟩ b.statements.toList, t, ?_, h.listing, ?_⟩
  · rw [Part.body_nodes]
    exact run_bind.mpr ⟨b, t, hrun, rfl⟩
  intro before p after hsplit mode
  have hnodes : ∀ n ∈ before.map Part.node, ∀ c ∈ n.children, c.KeepsQuotes := by
    intro n hn
    apply h.quotes
    rw [← Part.body_nodes inModule ⟨ctx, directives, #[]⟩ b.statements.toList, hsplit,
      List.map_append]
    exact List.mem_append_left _ hn
  rw [Part.body_split hsplit, Body.has_pushed]
  simp only [Bool.or_eq_true, Bool.and_eq_true, decide_eq_true_eq, Bool.not_eq_true',
    List.any_eq_true, and_assoc]
  refine or_congr_right (and_congr_right fun _ => and_congr_right fun _ => and_congr_right fun _ => ?_)
  refine exists_congr fun n => and_congr_right fun hn => ?_
  exact Node.turnsStrict_iff (hnodes n ((List.takeWhile_prefix _).subset hn))

/-- A statement and a string before it that asks for strict code. -/
theorem useStrict_read : ((@statementList top {} false true fun _ => false).run
    (.firstToken "'use strict'; a;".toList)).any (fun answer =>
      match answer.1 with
      | [⟨_, .expressionStatement ⟨_, .literal .stringLiteral text flags⟩⟩, _] =>
        text == "'use strict'" && !flags.has .unterminated
      | _ => false) = true := by
  decide +kernel

/-- The statement behind a directive is strict code, and the directive itself is not. -/
theorem useStrict_directs :
    Along (.firstToken "'use strict'; a;".toList) (.firstToken "'use strict'; a;".toList) ∧
      ∃ p q t, @Listing top false (.firstToken "'use strict'; a;".toList) [p, q] t ∧
        p.ctx.has .strict = false ∧ q.ctx.has .strict = true := by
  have hway := Along.refl (.firstToken "'use strict'; a;".toList)
  refine ⟨hway, ?_⟩
  obtain ⟨ps, t, hrun, hlist, hbit⟩ := statementList_directed hway {} false true fun _ => false
  have hfirst := useStrict_read
  rw [hrun, Option.any_some] at hfirst
  split at hfirst
  case h_2 => cases hfirst
  case h_1 header header' text flags n hstatements =>
  obtain ⟨p, rest, rfl, hp, hrest⟩ := List.map_eq_cons_iff.mp hstatements
  obtain ⟨q, rest, rfl, -, hrest⟩ := List.map_eq_cons_iff.mp hrest
  obtain rfl := List.map_eq_nil_iff.mp hrest
  rw [Bool.and_eq_true, beq_iff_eq, Bool.not_eq_true'] at hfirst
  refine ⟨p, q, t, hlist, ?_, ?_⟩
  · apply Bool.eq_false_iff.mpr
    intro hstrict
    have hbefore := (hbit [] p [q] rfl .strict).mp hstrict
    simp [prologue, FlagSet.has] at hbefore
  · have hturns : p.node.TurnsStrict := by
      rw [hp]
      exact ⟨_, text, flags, rfl, rfl, .inl ⟨hfirst.2, by simp [hfirst.1]⟩⟩
    apply (hbit [p] q [] rfl .strict).mpr
    refine .inr ⟨rfl, rfl, rfl, p.node, ?_, hturns⟩
    rw [List.map_singleton, hp]
    exact List.mem_singleton_self _

/-- A string that ends before a line break counts as a directive if one character stands behind the
words: the `with` statement behind it is reported as strict code. -/
theorem unterminated_directs :
    ((parse "\"use strict;\nwith (a) b;" {}).root.at? [("statements", 0), ("expression", 0)]).any
        (fun n => match n.form with
          | .literal .stringLiteral text flags =>
            text == "\"use strict;" && flags.has .unterminated
          | _ => false) = true ∧
      (parse "\"use strict;\nwith (a) b;" {}).diagnostics.toList.map
        (fun d => (d.span.start, d.code)) = [(12, 1002), (13, 1101)] := by
  constructor <;> decide +kernel

end Grammar
end EcmaSyntax
