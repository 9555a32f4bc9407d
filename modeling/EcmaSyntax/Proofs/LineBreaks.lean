import EcmaSyntax.Proofs.Texts
import EcmaSyntax.Proofs.Token.Spaced

/-! # Line breaks in trees

A statement that lacks its semicolon ends before a closing brace, before the end of the source or
before a line break. Some tokens stand on the line of the token before them: the operand of a word
that may stand alone, an operator that would be taken for the beginning of a statement, and whatever
follows `async`. Where these tokens are is told by the ranges of the nodes around them. -/
namespace EcmaSyntax
open ParseState

/-! ## Spelling -/

/-- A token whose kind has one spelling is spelled so. -/
theorem Kind.Spells.eq_text {k : Kind} {unterminated : Bool} {spelling : List Char} {text : String}
    (h : k.Spells unterminated spelling) (htext : k.text = some text) : spelling = text.toList := by
  rw [← String.toList_ofList (l := spelling)]
  congr 1
  rw [Kind.text, Option.orElse_eq_orElse, Option.orElse_eq_or] at htext
  rcases Option.or_eq_some_iff.mp htext with hpunctuator | ⟨-, hkeyword⟩
  · exact h.punctuator text hpunctuator
  · have hlookup := h.keyword (ofKeyword?_kind (ofKeyword?_iff.mpr hkeyword)).1
    exact Option.some.inj ((ofKeyword?_iff.mp hlookup).symm.trans hkeyword)

/-! ## Places -/

namespace Cursor

/-- Where the token behind a place starts. -/
def ahead (c : Cursor) : Cursor := c.skip c.gap.size

/-- A token of a kind is written from one place to another. -/
def Writes (c : Cursor) (k : Kind) (d : Cursor) : Prop :=
  ∃ text, k.text = some text ∧ c.rest = text.toList ++ d.rest ∧ d = c.skip text.toList.length

/-- No line terminator stands between a place and the token behind it. -/
def SameLine (c : Cursor) : Prop := ∀ ch ∈ c.textTo c.ahead, Text.isLineTerminator ch = false

/-- A statement may end at a place without a semicolon. -/
def MayEnd (c : Cursor) : Prop :=
  c.ahead.rest = [] ∨ c.ahead.rest.head? = some '\x7d' ∨ c.gap.lineBreak = true

/-- Tokens of the given kinds, from the start of the first to the start of the one behind them. -/
inductive Runs : Cursor → List Kind → Cursor → Prop
  | nil (c : Cursor) : Runs c [] c
  | cons {c d e : Cursor} {k : Kind} {ks : List Kind} : c.Writes k d → Runs d.ahead ks e →
      Runs c (k :: ks) e

variable {c d e : Cursor}

/-- Places of one source are told by their offsets. -/
theorem Reaches.eq_of_offset (hc : c.Sound) (hd : c.Reaches d) (he : c.Reaches e)
    (h : d.offset = e.offset) : d = e := by
  obtain ⟨m, rfl⟩ := hd
  obtain ⟨n, rfl⟩ := he
  rcases Nat.le_total m n with hle | hle
  · rcases (Reaches.of_le hle c).eq_or_lt (skip_sound m hc) with heq | hlt
    · exact heq.symm
    · omega
  · rcases (Reaches.of_le hle c).eq_or_lt (skip_sound n hc) with heq | hlt
    · exact heq
    · omega

theorem SameLine.of_gap (hc : c.Sound) (h : c.gap.lineBreak = false) : c.SameLine := by
  rw [SameLine, ahead, textTo_skip _ hc]
  exact Trivia.not_isLineTerminator h

end Cursor

/-- A place of a text at an offset. -/
structure PlaceAt (text : List Char) (offset : Nat) (c : Cursor) : Prop where
  reaches : (Cursor.start text).Reaches c
  offset_eq : c.offset = offset

/-- The line breaks of a text around a node are as its form tells. -/
structure Node.LinedIn (text : List Char) (n : Node) : Prop where
  semicolon : n.form.takesSemicolon = true → ∃ c, PlaceAt text n.range.stop c ∧
    (c.MayEnd ∨ ∃ d, (Cursor.start text).Reaches d ∧ n.range.pos ≤ d.offset ∧
      d.Writes .semicolonToken c)
  word : ∀ k e, n.form.boundWord? = some (k, e) → ∃ c d, PlaceAt text n.range.pos c ∧
    c.Writes k d ∧ d.SameLine ∧ ∀ m ∈ e, m.range.pos = d.ahead.offset
  tail : ∀ e k, n.form.boundTail? = some (e, k) → ∃ c d, PlaceAt text e.range.stop c ∧
    c.SameLine ∧ c.ahead.Writes k d
  async : ∀ ks e, n.form.asyncHead? = some (ks, e) → ∃ c d f, (Cursor.start text).Reaches c ∧
    n.range.pos ≤ c.offset ∧ c.Writes .asyncKeyword d ∧ d.SameLine ∧ d.ahead.Runs ks f ∧
      ∀ m ∈ e, m.range.pos = f.offset

/-! ## Readings -/

/-- The present token has been read in a source, as have been the tokens before it. -/
structure ParseState.Seated (source : String) (s : ParseState) : Prop where
  ready : s.Ready
  placed : s.reading.Placed source
  spaced : s.reading.Spaced

namespace ParseState.Seated
variable {source : String} {s t : ParseState}

theorem writes (h : s.Seated source) (htext : s.token.text.isSome = true) :
    s.start.Writes s.token s.scanner.stop := by
  obtain ⟨text, htext⟩ := Option.isSome_iff_exists.mp htext
  have hspelling : s.reading.spelling = text.toList := h.placed.spelled.eq_text htext
  have hrest := (h.placed.start_stop.passes h.placed.start_sound).1
  have hstop := h.placed.start_stop.eq_skip h.placed.start_sound
  refine ⟨text, htext, ?_, ?_⟩
  · rw [← hspelling]
    exact hrest
  · rw [← hspelling]
    exact hstop

theorem moves (h : s.Seated source) (hm : Moves s t) : t.Seated source :=
  ⟨hm.ready h.ready, hm.placed h.placed, hm.spaced h.spaced⟩

theorem consume (h : s.Seated source) : (s.consume .plain).Seated source :=
  h.moves (.single (.consume .plain s))

theorem consume_followsGap (s : ParseState) : (s.consume .plain).reading.FollowsGap :=
  s.flush.scanner.scan_followsGap

theorem consume_full (h : s.Seated source) (way : Scanner.Advance) :
    (s.consume way).full = s.scanner.stop := h.ready.consume_full way

/-- Behind a token the next one starts where it is looked for. -/
theorem consume_start (h : s.Seated source) : (s.consume .plain).start = s.scanner.stop.ahead :=
  h.consume_full .plain ▸ (consume_followsGap s).start_eq

theorem sameLine (h : s.Seated source) (hgap : s.reading.FollowsGap) (hline : s.OnLine) :
    s.full.SameLine :=
  .of_gap h.ready.full_sound (hgap.flag_eq.symm.trans hline)

theorem consume_sameLine (h : s.Seated source) (hline : (s.consume .plain).OnLine) :
    s.scanner.stop.SameLine :=
  h.consume_full .plain ▸ h.consume.sameLine (consume_followsGap s) hline

/-- A token that is not read among children follows trivia. -/
theorem followsGap (h : s.Seated source) (ht : s.token.isChildToken = false) :
    s.reading.FollowsGap :=
  h.spaced.resolve_right fun hchild => Bool.noConfusion (ht.symm.trans hchild.2.2)

theorem mayEnd (h : s.Seated source) (hend : s.MayEnd) : s.full.MayEnd := by
  rcases hend with ht | ht | hline
  · have hstart : s.full.ahead = s.start := (h.followsGap (ht ▸ rfl)).start_eq.symm
    obtain ⟨text, htext, hrest, -⟩ := h.writes (ht ▸ rfl)
    rw [ht] at htext
    obtain rfl := Option.some.inj htext
    refine .inr (.inl ?_)
    rw [hstart, hrest]
    rfl
  · have hnil : s.start.rest = [] :=
      (Cursor.left_eq_zero h.ready.start_sound).mp (h.ready.ended_iff.mp ht)
    refine .inl ?_
    rcases h.spaced with hgap | ⟨hchild, -, -⟩
    · have hstart : s.full.ahead = s.start := hgap.start_eq.symm
      rw [hstart, hnil]
    · have hfull : s.full = s.start := hchild.symm
      rw [Cursor.ahead, hfull, Cursor.skip_rest, hnil, List.drop_nil]
  · refine .inr (.inr ?_)
    rcases h.spaced with hgap | ⟨-, hchild, -⟩
    · exact hgap.flag_eq.symm.trans hline
    · cases hchild.symm.trans hline

/-! ## Ways between two states -/

theorem reaches_start (h : s.Seated source) : (Cursor.start source.toList).Reaches s.start :=
  h.placed.reaches_start

theorem placeAt_full (h : s.Seated source) : PlaceAt source.toList s.full.offset s.full :=
  ⟨h.placed.start_full, rfl⟩

/-- What has been consumed last ends a statement, or nothing needs to. -/
theorem ended (h : s.Seated source) (hm : Moves s t) (hend : s.Ended t) :
    t.full.MayEnd ∨ ∃ d, (Cursor.start source.toList).Reaches d ∧ s.start.offset ≤ d.offset ∧
      d.Writes .semicolonToken t.full := by
  rcases hend.semicolon with hend | ⟨u, hu, ht, rfl⟩
  · exact .inl ((h.moves hm).mayEnd hend)
  · have hu' := h.moves hu
    have hwrites := hu'.writes (ht ▸ rfl)
    rw [ht, ← hu'.consume_full .plain] at hwrites
    exact .inr ⟨u.start, hu'.reaches_start,
      (hu.start_reaches h.ready).offset_le h.ready.start_sound, hwrites⟩

theorem joins {pos next : Nat} {k : Kind} (h : s.Seated source) (hj : s.Joins pos k next)
    (hk : k.text.isSome = true) : ∃ c d, PlaceAt source.toList pos c ∧
      s.start.offset ≤ c.offset ∧ c.Writes k d ∧ d.SameLine ∧
        PlaceAt source.toList next d.ahead := by
  obtain ⟨u, hu, rfl, rfl, hline, rfl⟩ := hj
  have hu' := h.moves hu
  have hnext := hu'.consume.reaches_start
  refine ⟨u.start, u.scanner.stop, ⟨hu'.reaches_start, rfl⟩,
    (hu.start_reaches h.ready).offset_le h.ready.start_sound, hu'.writes hk,
    hu'.consume_sameLine hline, hu'.consume_start ▸ ⟨hnext, rfl⟩⟩

theorem trails {stop : Nat} {k : Kind} (h : s.Seated source) (ht : s.Trails stop k)
    (hk : k.text.isSome = true) (hchild : k.isChildToken = false) :
    ∃ c d, PlaceAt source.toList stop c ∧ c.SameLine ∧ c.ahead.Writes k d := by
  obtain ⟨u, hu, rfl, rfl, hline⟩ := ht
  have hu' := h.moves hu
  have hgap := hu'.followsGap hchild
  have hstart : u.full.ahead = u.start := hgap.start_eq.symm
  exact ⟨u.full, u.scanner.stop, hu'.placeAt_full, hu'.sameLine hgap hline, hstart ▸ hu'.writes hk⟩

theorem passes {pos stop : Nat} {ks : List Kind} (h : s.Seated source)
    (hp : s.Passes pos ks stop) (hks : ∀ k ∈ ks, k.text.isSome = true) {c : Cursor}
    (hc : PlaceAt source.toList pos c) :
    ∃ f, PlaceAt source.toList stop f ∧ c.Runs ks f := by
  induction hp generalizing c with
  | nil => exact ⟨c, hc, .nil c⟩
  | @cons u ks stop hu _ ih =>
    have hu' := h.moves hu
    obtain rfl : c = u.start :=
      hc.reaches.eq_of_offset (Cursor.start_sound _) hu'.reaches_start hc.offset_eq
    obtain ⟨hk, hks⟩ := List.forall_mem_cons.mp hks
    obtain ⟨f, hf, hruns⟩ := ih hks ⟨hu'.consume.reaches_start, rfl⟩
    exact ⟨f, hf, .cons (hu'.writes hk) (hu'.consume_start ▸ hruns)⟩

end ParseState.Seated

/-! ## Forms -/

namespace Form
variable {α : Type} {form : Form α}

theorem boundWord?_text {k : Kind} {e : Option α} (h : form.boundWord? = some (k, e)) :
    k.text.isSome = true := by
  unfold boundWord? at h
  split at h <;> cases h
  case h_3 sort _ => cases sort <;> rfl
  all_goals rfl

theorem asyncHead?_text {ks : List Kind} {e : Option α} (h : form.asyncHead? = some (ks, e)) :
    ∀ k ∈ ks, k.text.isSome = true := by
  have hmark (isGenerator : Bool) : ∀ k ∈ generatorMark isGenerator, k.text.isSome = true := by
    cases isGenerator <;> simp [generatorMark, Kind.text, Kind.punctuatorText]
  have htypes (name : Option α) (typeParameters : Option (List α)) :
      ∀ k ∈ typeParametersMark name typeParameters, k.text.isSome = true := by
    unfold typeParametersMark
    split <;> simp [Kind.text, Kind.punctuatorText]
  unfold asyncHead? at h
  split at h <;> cases h
  · exact List.forall_mem_append.mpr
      ⟨List.forall_mem_cons.mpr ⟨rfl, hmark _⟩, htypes _ _⟩
  · exact hmark _

end Form

theorem Production.boundTail?_text {faulty : Prop} {ph : Phrase} {ctx : Context} {form : Form Node}
    {ps : List Part} {e : Node} {k : Kind} (hp : Production faulty ph ctx form ps)
    (h : form.boundTail? = some (e, k)) : k.text.isSome = true ∧ k.isChildToken = false := by
  unfold Form.boundTail? at h
  split at h <;> cases h
  case h_1 =>
    cases hp with
    | postfixUnary hk => rcases hk with rfl | rfl <;> exact ⟨rfl, rfl⟩
  case h_3 sort _ => cases sort <;> exact ⟨rfl, rfl⟩
  all_goals exact ⟨rfl, rfl⟩

/-- A form in which no line break matters. -/
theorem Node.LinedIn.of_free {text : List Char} {header : Header} {form : Form Node}
    (hsemicolon : form.takesSemicolon = false) (hword : form.boundWord? = none)
    (htail : form.boundTail? = none) (hasync : form.asyncHead? = none) :
    (Node.mk header form).LinedIn text := by
  refine ⟨fun h => ?_, fun _ _ h => ?_, fun _ _ h => ?_, fun _ _ h => ?_⟩
  · cases hsemicolon.symm.trans h
  · cases hword.symm.trans h
  · cases htail.symm.trans h
  · cases hasync.symm.trans h

/-- What the states at the ends of a node tell of line breaks holds of the source. -/
theorem Form.Lined.linedIn {source : String} {s t : ParseState} {m : Mark} {faulty : Prop}
    {ph : Phrase} {ctx : Context} {form : Form Node} {ps : List Part} (h : form.Lined s t)
    (hs : s.Seated source) (hmoves : Moves s t) (hm : m.At s)
    (hp : Production faulty ph ctx form ps) :
    (Node.mk (t.header m) form).LinedIn source.toList := by
  have hrange : (Node.mk (t.header m) form).range = s.rangeTo t := hm.range_eq
  have hpos : (Node.mk (t.header m) form).range.pos = s.start.offset := congrArg Range.pos hrange
  constructor
  case semicolon =>
    intro hform
    have hend := h.semicolon hform
    have hstop : (Node.mk (t.header m) form).range.stop = t.full.offset := by
      rw [hrange]
      exact Nat.max_eq_left
        ((hmoves.start_reaches_full hs.ready hend.consumed).offset_le hs.ready.start_sound)
    rw [hstop, hpos]
    exact ⟨t.full, (hs.moves hmoves).placeAt_full, hs.ended hmoves hend⟩
  case word =>
    intro k e hform
    obtain ⟨next, hjoins, he⟩ := h.word k e hform
    obtain ⟨c, d, hc, -, hwrites, hline, hd⟩ := hs.joins hjoins (Form.boundWord?_text hform)
    exact ⟨c, d, hpos ▸ hc, hwrites, hline, fun n hn => (he n hn).trans hd.offset_eq.symm⟩
  case tail =>
    intro e k hform
    obtain ⟨hk, hchild⟩ := hp.boundTail?_text hform
    exact hs.trails (h.tail e k hform) hk hchild
  case async =>
    intro ks e hform
    obtain ⟨stop, ⟨pos, next, hjoins, hpasses⟩, he⟩ := h.async ks e hform
    obtain ⟨c, d, hc, hle, hwrites, hline, hd⟩ := hs.joins hjoins rfl
    obtain ⟨f, hf, hruns⟩ := hs.passes hpasses (Form.asyncHead?_text hform) hd
    exact ⟨c, d, f, hc.reaches, hpos ▸ hle, hwrites, hline, hruns,
      fun n hn => (he n hn).trans hf.offset_eq.symm⟩

theorem Leaf.linedIn {faulty : Prop} {r : Reading} {ph : Phrase} {ctx : Context}
    {form : Form Node} {header : Header} {text : List Char} (h : Leaf faulty r ph ctx form) :
    (Node.mk header form).LinedIn text := by
  have hname : (Node.mk header (Grammar.nameForm r)).LinedIn text := by
    unfold Grammar.nameForm
    split <;> exact .of_free rfl rfl rfl rfl
  cases h <;> first | exact hname | exact .of_free rfl rfl rfl rfl

/-! ## Sources -/

theorem Along.seated {source : String} {s t : ParseState} (h : Along s t) (hs : s.Seated source) :
    t.Seated source :=
  h.preserves (fun step hs => hs.moves (.single step))
    (fun _ hs => ⟨hs.ready.deeper, hs.placed, hs.spaced⟩) hs

theorem firstToken_seated (source : String) :
    (ParseState.firstToken source.toList).Seated source :=
  ⟨inferInstance, firstToken_placed source,
    (ParseState.ofText source.toList).flush.scanner.advance_spaced .expression⟩

/-- In a tree without diagnostics, a statement that lacks its semicolon ends where it may, and no
line terminator stands before a token that is bound to the line of the one before it. -/
theorem parse_lined (source : String) (options : ParseOptions)
    (hclean : (parse source options).diagnostics = ∅) {n : Node}
    (hn : n.Within (parse source options).root) : n.LinedIn source.toList := by
  obtain ⟨statements, ps, t, hroot, hsink, hchildren, hparts⟩ := parse_derived source options
  have hfirst := firstToken_seated source
  rcases Node.within_iff.mp hn with rfl | ⟨c, hc, hn⟩
  · rw [hroot]
    exact .of_free rfl rfl rfl rfl
  · obtain ⟨p, hp, rfl⟩ := List.mem_map.mp (hchildren ▸ hc)
    refine hparts.forall_within hfirst.ready (hsink ▸ hclean) (fun hu _ _ hm hd hp hlined => ?_)
      (fun _ _ _ hl => hl.linedIn) (fun _ _ => .of_free rfl rfl rfl rfl)
      (fun _ _ _ => .of_free rfl rfl rfl rfl) (fun _ _ => .of_free rfl rfl rfl rfl) p hp n hn
    exact hlined.linedIn (hu.seated hfirst) hd.moves hm hp

/-- Statements without semicolons, one of which begins with `async`. -/
theorem bare_statements_lined :
    let r := parse "async a => a\nb++ as c" {}
    r.diagnostics = ∅ ∧ r.root.children.length = 2 ∧ ∀ n : Node, n.Within r.root →
      n.LinedIn "async a => a\nb++ as c".toList := by
  intro r
  have hclean : r.diagnostics = ∅ := by decide +kernel
  exact ⟨hclean, by decide +kernel, fun n hn => parse_lined _ _ hclean hn⟩

end EcmaSyntax
