import EcmaSyntax.Proofs.Coupling.Source
import EcmaSyntax.Proofs.Termination

/-! # Markup without angle brackets

The mode of JSX is asked for at an angle bracket only. So in a source without angle brackets the runs
with the mode and without it go through the same states, speculation included. -/
namespace EcmaSyntax
open Parse Grammar

/-! ## Tokens of a source -/

/-- Whatever a parse comes through, the present token lies in the source. -/
theorem Along.placed {source : String} {s u : ParseState} (h : Along s u)
    (hs : s.reading.Placed source) : u.reading.Placed source :=
  h.preserves (P := fun u => u.reading.Placed source) (fun step hs => step.placed hs)
    (fun _ hs => hs) hs

/-- The characters of a token are characters of the source. -/
theorem Reading.Placed.mem_source {source : String} {r : Reading} (h : r.Placed source) {c : Char}
    (hc : c ∈ r.spelling) : c ∈ source.toList := by
  obtain ⟨n, hn⟩ := h.reaches_start
  have hmem : c ∈ r.start.rest := List.mem_of_mem_take hc
  rw [hn, Cursor.skip_rest] at hmem
  exact List.mem_of_mem_drop hmem

theorem Reading.Placed.mem_of_punctuator {source : String} {r : Reading} (h : r.Placed source)
    {text : List Char} (ht : r.token.punctuatorText = some (String.ofList text)) {c : Char}
    (hc : c ∈ text) : c ∈ source.toList := by
  have hspelling : r.spelling = text := by
    rw [← String.toList_ofList (l := r.spelling), h.spelled.punctuator _ ht, String.toList_ofList]
  exact h.mem_source (hspelling ▸ hc)

theorem visited_ne_lessThan {source : String} (h : '<' ∉ source.toList) {ctx : Context}
    {u : ParseState} (hu : (sourceStatements ctx).visits (.firstToken source.toList) u) :
    u.token ≠ .lessThanToken := by
  intro ht
  have hplaced := ((sourceStatements ctx).along hu).placed (firstToken_placed source)
  have htext : u.reading.token.punctuatorText = some (String.ofList ['<']) := by
    change u.token.punctuatorText = _
    rw [ht]
    rfl
  exact h (hplaced.mem_of_punctuator htext List.mem_cons_self)

/-! ## The coupling -/

namespace Coupling

/-- The same states with and without the mode of JSX, off the angle brackets. -/
def markup : Coupling where
  shift := 0
  extra := 0
  floor := 0
  edge _ := True
  exact := True
  free m := m == .jsx
  cursor := Eq
  count := Eq
  state s s' := s' = s ∧ s.Ready
  calm u := u.token ≠ .lessThanToken

instance : markup.Lawful where
  aligned := by
    rintro _ s ⟨rfl, hs⟩
    exact ⟨hs, hs, rfl, rfl, rfl, rfl, rfl, rfl, rfl, rfl, Nat.zero_le _⟩
  edged _ _ := ParseState.edged_of_forall (fun _ => trivial) _
  offset_eq h := h ▸ rfl
  text_eq h h' := by rw [← h, ← h']
  count_lt _ h h' := by rw [← h, ← h']
  free_le h := by rw [eq_of_beq h]; rfl
  flush := by
    rintro _ s ⟨rfl, hs⟩
    exact ⟨rfl, (Step.flush s).ready hs⟩
  consume way _ _ := by
    rintro ⟨rfl, hs⟩
    exact ⟨rfl, (Step.consume way _).ready hs⟩
  reread way _ _ := by
    rintro ⟨rfl, hs⟩
    exact ⟨rfl, (Step.reread way _).ready hs⟩
  push d _ := by
    rintro ⟨rfl, hs⟩
    exact ⟨rfl, hs.push d⟩
  reportLimit := by
    rintro _ s ⟨rfl, hs⟩
    exact ⟨rfl, (Step.reportLimit s).ready hs⟩
  deeper := by
    rintro _ s ⟨rfl, hs⟩
    exact ⟨rfl, hs.deeper⟩
  shallower := by
    rintro _ s ⟨rfl, hs⟩
    exact ⟨rfl, hs.shallower⟩
  jsx _ h := h
  early _ _ h := by simp [markup] at h

theorem markup_header_eq {h h' : Header} (hh : markup.header h h') : h = h' := by
  obtain ⟨range, flags, modifiers⟩ := h
  obtain ⟨range', flags', modifiers'⟩ := h'
  obtain rfl : range' = range := hh.range_eq
  obtain rfl : modifiers' = modifiers := hh.modifiers_eq
  obtain rfl : flags' = flags := hh.exact_eq trivial
  rfl

/-- Corresponding nodes are the same. -/
theorem markup_right_eq (n : markup.NodePair) : n.right = n.left :=
  (n.matched.mono fun _ _ => markup_header_eq).eq.symm

end Coupling

open Coupling in
/-- From the first token on the two runs have the same answer. -/
theorem sourceStatements_inert {source : String} (h : '<' ∉ source.toList) {ctx ctx' : Context}
    [markup.Contexts ctx ctx'] {statements : List Node} {t : ParseState}
    (hrun : (sourceStatements ctx).run (.firstToken source.toList) = some (statements, t)) :
    (sourceStatements ctx').run (.firstToken source.toList) = some (statements, t) := by
  have hR : markup.Recurs top top := top_recurs trivial
  have hfollows : markup.Follows (sourceStatements ctx) (sourceStatements ctx') :=
    sourceStatements_follows
  obtain ⟨c, t', hleft, hright, rfl, -⟩ := hfollows _ _ ⟨rfl, inferInstance⟩
    (fun u hu => visited_ne_lessThan h hu) _ _ hrun
  rw [hright, ← hleft]
  exact congrArg (fun ns => some (ns, t')) (List.map_congr_left fun n _ => markup_right_eq n)

/-- Whatever a source without angle brackets is, its tree and its diagnostics are the same with JSX
and without it. -/
theorem parse_jsx_inert (source : String) (h : '<' ∉ source.toList) (options : ParseOptions) :
    parse source { options with jsx := true } = parse source { options with jsx := false } := by
  have hcontexts : Coupling.markup.Contexts (.ofOptions { options with jsx := true })
      (.ofOptions { options with jsx := false }) :=
    Coupling.contexts_ofOptions rfl (.inl rfl) (.inl rfl) (.inr ⟨rfl, rfl⟩)
  have hrun : run source { options with jsx := false } =
      run source { options with jsx := true } := by
    obtain ⟨statements, s, hrun, -⟩ := run_ends source { options with jsx := true }
    rw [hrun]
    rw [run_eq, Option.map_eq_some_iff] at hrun ⊢
    obtain ⟨⟨statements, t⟩, hstatements, heq⟩ := hrun
    cases heq
    exact ⟨_, sourceStatements_inert h hstatements, rfl⟩
  rw [parse, parse, hrun]

/-- An arrow function around a conditional. -/
theorem arrow_jsx_inert : '<' ∉ "(a, b) => a ? [b] : b;".toList ∧
    parse "(a, b) => a ? [b] : b;" { ({} : ParseOptions) with jsx := true } =
      parse "(a, b) => a ? [b] : b;" { ({} : ParseOptions) with jsx := false } :=
  ⟨by decide, parse_jsx_inert _ (by decide) {}⟩

end EcmaSyntax
