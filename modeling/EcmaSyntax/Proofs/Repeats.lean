import EcmaSyntax.Proofs.Nesting
import EcmaSyntax.Proofs.Token.FaultOrder

/-! # Diagnostics that repeat

A diagnostic of the grammar is dropped where it starts at the same place as the last one. So it may
come again when another diagnostic has been put behind it, but no sooner. Faults of tokens and the
limit of nesting are not found twice, whatever has been read anew or been undone. -/
namespace EcmaSyntax

namespace Diagnostic
variable {d : Diagnostic}

/-- What a scanner finds is not for the grammar to find. -/
theorem not_isGrammatical (h : d.isAny Message.isLexical = true ∨ d.isOf .commentEndExpected = true) :
    d.isAny Message.isGrammatical = false := by
  rcases h with h | h
  · obtain ⟨m, hm, hd⟩ := isAny_exists h
    rw [isAny_eq hd]
    cases m <;> first | rfl | cases hm
  · exact isAny_eq h

theorem not_isLexical (h : d.isAny Message.isGrammatical = true) :
    d.isAny Message.isLexical = false := by
  cases hd : d.isAny Message.isLexical
  · rfl
  · cases (not_isGrammatical (.inl hd)).symm.trans h

end Diagnostic

/-! ## States of a parse -/

/-- What the grammar has found starts elsewhere than the diagnostic before it. -/
def Diagnostic.StaysApart (d e : Diagnostic) : Prop :=
  e.isAny Message.isGrammatical = true → e.span.start ≠ d.span.start

theorem isChain_of_forall {l : List Diagnostic} (h : ∀ d ∈ l, d.isAny Message.isGrammatical = false) :
    l.IsChain Diagnostic.StaysApart := by
  induction l with
  | nil => exact .nil
  | cons d l ih =>
    cases l with
    | nil => exact .singleton d
    | cons e l =>
      refine .cons_cons (fun he => ?_) (ih fun c hc => h c (List.mem_cons_of_mem d hc))
      cases (h e (by simp)).symm.trans he

/-- The faults of tokens have been found in order, and what the grammar has found stands apart. -/
structure ParseState.Unrepeated (s : ParseState) : Prop where
  ready : s.Ready
  faults : s.scanner.Orderly s.sink.toList
  apart : s.sink.toList.IsChain Diagnostic.StaysApart
  known : ∀ d ∈ s.sink.toList, d.isAny Message.isGrammatical = true ∨
    d.isAny Message.isLexical = true ∨ d.isOf .commentEndExpected = true ∨
      d.isOf .nestingTooDeep = true

namespace ParseState.Unrepeated
variable {s t : ParseState}

theorem flush (h : s.Unrepeated) : s.flush.Unrepeated := by
  have hsink : s.flush.sink.toList = s.sink.toList ++ s.scanner.pending.toList :=
    Sink.toList_extend _ _
  have hheld := fun d hd => Diagnostic.not_isGrammatical (h.faults.held d hd)
  have hnil : s.sink.toList ++ s.scanner.pending.toList ++ s.flush.scanner.pending.toList =
      s.sink.toList ++ s.scanner.pending.toList := List.append_nil _
  refine ⟨(Step.flush s).ready h.ready, ⟨?_, ?_, nofun⟩, ?_, ?_⟩
  · rw [hsink, hnil]
    exact h.faults.stop
  · rw [hsink, hnil]
    exact h.faults.start
  · rw [hsink, List.isChain_append]
    refine ⟨h.apart, isChain_of_forall hheld, fun d _ e he hgrammatical => ?_⟩
    cases (hheld e (List.mem_of_mem_head? he)).symm.trans hgrammatical
  · rw [hsink]
    exact List.forall_mem_append.mpr ⟨h.known, fun d hd =>
      .inr ((h.faults.held d hd).imp_right Or.inl)⟩

theorem consume (h : s.Unrepeated) (way : Scanner.Advance) : (s.consume way).Unrepeated := by
  have hs := h.flush
  exact ⟨(Step.consume way s).ready h.ready,
    hs.faults.between.advance way hs.ready.token.stop_sound, hs.apart, hs.known⟩

theorem reread (h : s.Unrepeated) (way : Scanner.Rereading) : (s.reread way).Unrepeated :=
  ⟨(Step.reread way s).ready h.ready, h.faults.reread way h.ready.token, h.apart, h.known⟩

/-- One more diagnostic, which is not a fault of a token. -/
theorem add {d : Diagnostic} (h : s.Unrepeated) (ht : t.Ready) (hscanner : t.scanner = s.scanner)
    (hsink : t.sink = s.sink.add d) (hd : d.isAny Message.isLexical = false)
    (hapart : ∀ e ∈ s.sink.last?, Diagnostic.StaysApart e d)
    (hknown : d.isAny Message.isGrammatical = true ∨ d.isOf .nestingTooDeep = true) :
    t.Unrepeated := by
  have hlist : t.sink.toList = s.sink.toList ++ [d] := by rw [hsink, Sink.toList_add]
  refine ⟨ht, ⟨?_, ?_, ?_⟩, ?_, ?_⟩
  · rw [hlist, hscanner]
    exact h.faults.stop.insert hd
  · rw [hlist, hscanner]
    exact fun hkind => (h.faults.start hkind).insert hd
  · rw [hscanner]
    exact h.faults.held
  · rw [hlist, List.isChain_append]
    refine ⟨h.apart, .singleton d, fun e he d' hd' => ?_⟩
    cases hd'
    apply hapart e
    rwa [Sink.last?, ← Array.getLast?_toList]
  · rw [hlist]
    refine List.forall_mem_append.mpr ⟨h.known, List.forall_mem_singleton.mpr ?_⟩
    exact hknown.imp_right fun hlimit => .inr (.inr hlimit)

theorem push {d : Diagnostic} (h : s.Unrepeated) (hd : d.isAny Message.isGrammatical = true) :
    (s.push d).Unrepeated := by
  have hready := h.ready.push d
  revert hready
  unfold ParseState.push
  split
  case isTrue => exact fun _ => h
  case isFalse hlast =>
    refine fun hready => h.add hready rfl rfl (Diagnostic.not_isLexical hd) (fun e he _ heq => ?_)
      (.inl hd)
    apply hlast
    rw [Option.mem_def] at he
    rw [he, Option.any_some, beq_iff_eq]
    exact heq.symm

theorem reportLimit (h : s.Unrepeated) : s.reportLimit.Unrepeated := by
  have hready := (Step.reportLimit s).ready h.ready
  revert hready
  unfold ParseState.reportLimit
  split
  case isTrue => exact fun _ => h
  case isFalse =>
    refine fun hready => h.add hready rfl rfl Diagnostic.isAny_report (fun e _ hgrammatical => ?_)
      (.inr (Diagnostic.isOf_report.mpr rfl))
    cases Diagnostic.isAny_report.symm.trans hgrammatical

theorem step (h : s.Unrepeated) (hstep : Step s t) : t.Unrepeated := by
  cases hstep with
  | flush => exact h.flush
  | consume way => exact h.consume way
  | reread way => exact h.reread way
  | push d hd => exact h.push hd
  | reportLimit => exact h.reportLimit

theorem moves (h : s.Unrepeated) (hm : Moves s t) : t.Unrepeated :=
  hm.preserves (fun hstep hs => hs.step hstep) h

end ParseState.Unrepeated

theorem firstToken_unrepeated (text : List Char) : (ParseState.firstToken text).Unrepeated := by
  have hsound := (Scanner.skipShebang_reaches text).sound (Cursor.start_sound text)
  have hsink : (ParseState.firstToken text).sink.toList = [] := by
    change (Sink.extend ∅ (Scanner.ofText text).skipShebang.pending).toList = []
    rw [Scanner.skipShebang_pending]
    rfl
  have hfirst : (ParseState.ofText text).flush.scanner.Between [] := ⟨.nil _, nofun⟩
  constructor
  · infer_instance
  · rw [hsink]
    exact hfirst.advance .expression hsound
  · rw [hsink]
    exact .nil
  · rw [hsink]
    exact nofun

/-! ## Sources -/

/-- Of two diagnostics with the same span and code that tell of no comment, both have been found by
the grammar, and the one right before the second of them starts elsewhere. -/
theorem parse_repeats (source : String) (options : ParseOptions)
    {before between after : List Diagnostic} {d e : Diagnostic}
    (hfound : (parse source options).diagnostics.toList = before ++ d :: (between ++ e :: after))
    (hspan : e.span = d.span) (hcode : e.code = d.code)
    (hcomment : d.isOf .commentEndExpected = false) :
    d.isAny Message.isGrammatical = true ∧
      ∃ c, between.getLast? = some c ∧ c.span.start ≠ d.span.start := by
  obtain ⟨statements, t, hrun, hbody, -⟩ := Grammar.source_reads (.ofOptions options) source.toList
  have hsink : (parse source options).diagnostics = t.sink := by
    rw [parse, show run source options = some (statements, t) from hrun]
  rw [hsink] at hfound
  have hmoves := hbody.derived.moves
  have hstate := (firstToken_unrepeated source.toList).moves hmoves
  have hknown := hstate.known d (by simp [hfound])
  rcases hknown with hgrammatical | hlexical | hclosed | hlimit
  · refine ⟨hgrammatical, ?_⟩
    have hchain := hstate.apart
    have hlater : e.isAny Message.isGrammatical = true :=
      (Diagnostic.isAny_congr hcode).trans hgrammatical
    rw [hfound, ← List.cons_append, ← List.append_assoc, List.isChain_append] at hchain
    have hneighbour := hchain.2.2
    rcases List.eq_nil_or_concat between with rfl | ⟨front, c, hbetween⟩
    · exact absurd (congrArg Span.start hspan) (hneighbour d (by simp) e rfl hlater)
    · rw [List.concat_eq_append] at hbetween
      have hlast : (before ++ d :: between).getLast? = some c := by
        rw [hbetween, ← List.cons_append, ← List.append_assoc, List.getLast?_concat]
      refine ⟨c, by rw [hbetween, List.getLast?_concat], fun heq => ?_⟩
      apply hneighbour c hlast e rfl hlater
      rw [hspan, heq]
  · have hlater : e.isAny Message.isLexical = true := (Diagnostic.isAny_congr hcode).trans hlexical
    have hascending := hstate.faults.stop.ascending
    rw [hfound] at hascending
    simp only [lexicalFaults, List.append_assoc, List.filter_append, List.cons_append,
      List.filter_cons_of_pos hlexical, List.filter_cons_of_pos hlater, List.pairwise_append,
      List.pairwise_cons] at hascending
    have hlt : d.span.stop < e.span.stop := hascending.2.1.1 e (by simp)
    rw [hspan] at hlt
    exact absurd hlt (Nat.lt_irrefl _)
  · cases hclosed.symm.trans hcomment
  · have hlater : e.isOf .nestingTooDeep = true := by
      rw [Diagnostic.isOf, hcode]
      exact hlimit
    have hguarded := ((ParseState.Guarded.ofText source.toList).consume .expression).along
      (hmoves.along (.refl t))
    have hcount := hguarded.reports_le
    rw [Sink.limitReports, hfound] at hcount
    simp only [List.countP_append, List.countP_cons, hlimit, hlater, if_true] at hcount
    omega

/-- The first diagnostic and the third one are the same. -/
theorem bracket_reports : (match (parse "<a b=<c" { jsx := true }).diagnostics.toList with
    | d :: _ :: e :: _ => decide (e = d) && !d.isOf .commentEndExpected
    | _ => false) = true := by
  decide +kernel

/-- A missing angle bracket is reported twice, and another diagnostic stands in between. -/
theorem bracket_repeats : ∃ before d between e after,
    (parse "<a b=<c" { jsx := true }).diagnostics.toList = before ++ d :: (between ++ e :: after) ∧
      e = d ∧ d.isOf .commentEndExpected = false ∧
      ∃ c, between.getLast? = some c ∧ c.span.start ≠ d.span.start := by
  have htest := bracket_reports
  split at htest
  case h_2 => cases htest
  case h_1 d c e after hfound =>
  simp only [Bool.and_eq_true, decide_eq_true_eq, Bool.not_eq_true'] at htest
  obtain ⟨heq, hcomment⟩ := htest
  have hfound : (parse "<a b=<c" { jsx := true }).diagnostics.toList =
      [] ++ d :: ([c] ++ e :: after) := hfound
  have hrepeats := parse_repeats _ _ hfound (by rw [heq]) (by rw [heq]) hcomment
  exact ⟨[], d, [c], e, after, hfound, heq, hcomment, hrepeats.2⟩

/-- Two diagnostics have the same place, code and argument. -/
theorem bracket_not_nodup : ¬ ((parse "<a b=<c" { jsx := true }).diagnostics.toList.map fun d =>
    (d.span.start, d.span.length, d.code, d.argument)).Nodup := by
  decide +kernel

end EcmaSyntax
