import EcmaSyntax.Proofs.Coupling.Abreast
import EcmaSyntax.Proofs.Elements

/-! # Decisions in other contexts

Type arguments of a call, and a pattern at the start of a function type, are taken if nothing is
reported about them. The runs of two contexts that differ in strictness report alike since the token
with which they begin, if no early error may be found, and so decide alike. -/
namespace EcmaSyntax
open Parse Grammar
variable {α β : Type}

/-! ## Behind the first token -/

namespace Parse

/-- A routine that consumes the present token and goes on as another one. -/
structure Enters (p q : Parse α) (s : ParseState) : Prop where
  run_eq : p.run s = q.run (s.consume .plain)
  visits : ∀ u, q.visits (s.consume .plain) u → p.visits s u

/-- A routine between two tokens, behind the first of them. -/
def closed (closing : Kind) (p : Parse α) : Parse α := do
  let inner ← p
  let _ ← expect closing
  return inner

namespace Enters
variable {p q : Parse α} {f : α → Parse β} {s : ParseState}

theorem look {g : ParseState → α} {q : Parse β} (h : (f (g s)).Enters q s) :
    (observe g >>= f).Enters q s :=
  ⟨h.run_eq, fun u hu => .inr ⟨_, _, rfl, h.visits u hu⟩⟩

theorem bind (h : p.Enters q s) : (p >>= f).Enters (q >>= f) s := by
  constructor
  · change (Parse.bind p f).run s = (Parse.bind q f).run (s.consume .plain)
    simp only [Parse.bind, h.run_eq]
  · rintro u (hu | ⟨a, t, hrun, hu⟩)
    · exact .inl (h.visits u hu)
    · exact .inr ⟨a, t, h.run_eq.trans hrun, hu⟩

theorem between {opening closing : Kind} (hs : s.token = opening) :
    (Parse.between opening closing p).Enters (closed closing p) s := by
  have hexpect := expect_run hs
  refine ⟨?_, fun u hu => .inr ⟨true, _, hexpect, hu⟩⟩
  refine Option.ext fun ⟨a, t⟩ => ?_
  change (expect opening >>= fun _ => closed closing p).run s = _ ↔ _
  rw [run_bind, hexpect]
  constructor
  · rintro ⟨_, _, heq, hrun⟩
    cases heq
    exact hrun
  · exact fun hrun => ⟨_, _, rfl, hrun⟩

end Enters

/-! ## Fewer answers -/

/-- Every answer of a routine is that of another one, which comes through no fewer states. -/
structure Within (p q : Parse α) : Prop where
  agrees : p.Agrees q
  visits : ∀ {s u}, p.visits s u → q.visits s u

namespace Within
variable {p q : Parse α} {f g : α → Parse β} {step step' : α → Parse (Turn α)}

theorem refl (p : Parse α) : p.Within p := ⟨.refl p, fun h => h⟩

theorem bind (h : p.Within q) (hf : ∀ a, (f a).Within (g a)) : (p >>= f).Within (q >>= g) := by
  refine ⟨.bind h.agrees fun a => (hf a).agrees, ?_⟩
  rintro s u (hu | ⟨a, t, hrun, hu⟩)
  · exact .inl (h.visits hu)
  · exact .inr ⟨a, t, h.agrees hrun, (hf a).visits hu⟩

theorem behind (hf : ∀ a, (f a).Within (g a)) : (p >>= f).Within (p >>= g) := bind (.refl p) hf

theorem ite {c : Prop} [Decidable c] {p' q' : Parse α} (h : p.Within q) (h' : p'.Within q') :
    (if c then p else p').Within (if c then q else q') := by
  split
  · exact h
  · exact h'

theorem turns (h : ∀ a, (step a).Within (step' a)) (n : Nat) (a : α) :
    (Parse.turns step n a).Within (Parse.turns step' n a) := by
  induction n generalizing a with
  | zero => exact .refl _
  | succ n ih =>
    refine behind fun start => bind (h a) fun turn => ?_
    cases turn with
    | done b => exact .refl _
    | again b => exact behind fun _ => ite (ih b) (.refl _)

theorem loop (h : ∀ a, (step a).Within (step' a)) (a : α) :
    (Parse.loop step a).Within (Parse.loop step' a) := behind fun _ => turns h _ a

end Within
end Parse

namespace Grammar

theorem commaItems_within {item item' : Parse Node} (close : Kind) (h : item.Within item') :
    (commaItems close item).Within (commaItems close item') := by
  refine .bind (.loop (fun l => ?_) _) fun _ => .refl _
  refine .behind fun _ => .ite (.refl _) (.behind fun _ => .bind (.bind h fun _ => .refl _) fun n => ?_)
  cases n <;> exact .refl _

/-- A rule with a bound is the rule itself, as far as the bound admits it. -/
theorem below_within (W : Nat) (rule : Rule α) :
    ((below W top.recur).recur rule).Within (top.recur rule) := by
  refine ⟨below_agrees_top W rule, fun {s u} hu => ?_⟩
  have hstart : (top.recur rule).visits s s := .inl rfl
  have hbelow : ((below W top.recur).recur rule).visits s = _ := observe_visits
  rw [hbelow] at hu
  rcases hu with rfl | hu
  · exact hstart
  · split at hu
    · exact hu
    · cases hu
      exact hstart

theorem typeArgumentsOfCall_within (W : Nat) (ctx : Context) :
    (@typeArgumentsOfCall (below W top.recur) ctx).Within (@typeArgumentsOfCall top ctx) :=
  .behind fun _ => .bind (.behind fun _ => .bind (commaItems_within _ (below_within W _))
    fun _ => .refl _) fun _ => .refl _

end Grammar

/-- A state from which no attempt at the type arguments of a call reports an early error. -/
def ParseState.Steady (u : ParseState) : Prop :=
  u.token = .lessThanToken → ∀ ctx v, (@typeArgumentsOfCall top ctx).visits u.flush v →
    ∀ d ∈ v.sink.toList.drop u.flush.sink.size, d.isEarlyError = false

namespace Coupling

/-! ## One coupling behind another -/

/-- A run that goes on behind its first token in another coupling. -/
theorem FollowsAt.enter {K L : Coupling} [Coupled K α] [Coupled L α] {p q p' q' : Parse α}
    {s s' : ParseState} (hp : p.Enters p' s) (hq : q.Enters q' s')
    (hcalm : (∀ u, p.visits s u → K.calm u) →
      ∀ u, p'.visits (s.consume .plain) u → L.calm u)
    (h : L.FollowsAt p' q' (s.consume .plain) (s'.consume .plain))
    (hstate : ∀ t t', L.state t t' → K.state t t')
    (hpair : ∀ c : Coupled.Pair L α, ∃ d : Coupled.Pair K α,
      Coupled.left d = Coupled.left c ∧ Coupled.right d = Coupled.right c) :
    K.FollowsAt p q s s' := by
  intro hk a t hrun
  obtain ⟨c, t', rfl, hright, ht⟩ := h (hcalm hk) a t (hp.run_eq.symm.trans hrun)
  obtain ⟨d, hd, hd'⟩ := hpair c
  refine ⟨d, t', hd, ?_, hstate t t' ht⟩
  rw [hq.run_eq, hright, hd']

section Follows
variable {K : Coupling} [K.Lawful]

theorem Follows.closed [Coupled K α] (closing : Kind) {p q : Parse α} (h : K.Follows p q) :
    K.Follows (Parse.closed closing p) (Parse.closed closing q) :=
  .bind h fun c => .same (.expect _) fun _ => .pure c rfl

/-- Answers that do not have to correspond. -/
@[reducible] def Coupled.any (K : Coupling) (α : Type) : Coupled K α := ⟨α × α, Prod.fst, Prod.snd⟩

/-- A routine of which only the way matters, with what is made of its answer. -/
theorem Follows.way [Coupled K α] {β : Type} {p q : Parse α} {f g : α → ParseState → β}
    (h : K.Follows p q) : @Follows β K (.any K β) (p >>= fun a => Parse.observe (f a))
      (q >>= fun a => Parse.observe (g a)) :=
  @Follows.bind K α β _ (.any K β) _ _ _ _ h fun _ =>
    @Follows.observe K _ β (.any K β) _ _ fun s s' _ _ => ⟨(f _ s, g _ s'), rfl, rfl⟩

end Follows

/-! ## Strictness -/

/-- The same states in contexts that differ in strictness, whatever is reported. -/
def strictness : Coupling where
  shift := 0
  extra := 0
  floor := 0
  edge _ := True
  exact := False
  free := isStrictness
  cursor := Eq
  count _ _ := True
  state := ParseState.Abreast
  calm := ParseState.Steady

instance : strictness.Lawful where
  aligned h := aligned_of_abreast h (fun _ => rfl) rfl trivial (Nat.zero_le _)
  edged _ _ := ParseState.edged_of_forall (fun _ => trivial) _
  offset_eq h := h ▸ rfl
  text_eq h h' := by rw [← h, ← h']
  count_lt h := h.elim
  free_le h := isStrictness_le h
  flush h := h.flush
  consume way _ _ h := h.consume way
  reread way _ _ h := h.reread way
  push _ hd h := h.push_both hd.start_le hd.start_le
  reportLimit h := h.reportLimit
  deeper h := h.deeper
  shallower h := h.shallower
  jsx h := by cases h
  early message message' _ _ _ _ h := h.note_both message message'

/-- Contexts that differ in strictness do so since any place. -/
theorem since_contexts {ctx ctx' : Context} [h : strictness.Contexts ctx ctx'] (past : Past) :
    (since past true).Contexts ctx ctx' :=
  ⟨fun m hm => h.has_eq m ((Bool.true_and _).symm.trans hm), h.has_of_has⟩

section Opening
variable {s s' : ParseState}

/-- What has been reported before the token behind one that opens a list. -/
def Past.opening (h : s.Abreast s') (hs : s.token.isOpening = true) : Past where
  floor := (s.consume .plain).start.offset
  left := s.sink.toList
  right := s'.sink.toList
  left_lt _ hd := h.held.lt_consume hs hd .plain
  right_lt _ hd := by
    have hs' : s'.token.isOpening = true := by
      rw [ParseState.token, h.scanner_eq]
      exact hs
    rw [← (h.consume .plain).start_eq]
    exact h.held'.lt_consume hs' hd .plain

variable (h : s.Abreast s') (hs : s.token.isOpening = true)
include h

theorem Past.opening_since :
    (Past.opening h hs).Since (s.consume .plain) (s'.consume .plain) := by
  refine ⟨h.consume .plain, Nat.le_refl _, s.scanner.pending.toList, Sink.toList_extend _ _, ?_⟩
  rw [← h.scanner_eq]
  exact Sink.toList_extend _ _

theorem Past.opening_count (differs : Bool) :
    (Coupling.since (Past.opening h hs) differs).count s.sink.size s'.sink.size :=
  ⟨0, (Sink.length_toList _).symm, (Sink.length_toList _).symm⟩

end Opening

/-! ### Type arguments -/

section TypeArguments
variable {R : Recursion} {ctx ctx' : Context} {s s' : ParseState}

/-- Type arguments of a call behind the angle bracket. -/
def restOfTypeArguments (R : Recursion) (before : Nat) (ctx : Context) :
    Parse (Option (List Node)) := do
  let arguments ← closed .greaterThanToken
    (commaItems .greaterThanToken (recur (.type (withConditionalTypes ctx))))
  let follows ← isAtAny [.openParenToken, .noSubstitutionTemplateLiteral, .templateHead]
  return if follows && (← reported) == before then some arguments else none

theorem typeArgumentsOfCall_enters (hs : s.token = .lessThanToken) :
    (@typeArgumentsOfCall R ctx).Enters (restOfTypeArguments R s.sink.size ctx) s :=
  .look (.bind (.between hs))

/-- Trees in the same place that match in more match in this. -/
def NodePair.strict {K : Coupling} (hshift : K.shift = 0) (n : K.NodePair) : strictness.NodePair where
  left := n.left
  right := n.right
  matched := n.matched.mono fun h h' hh => by
    refine ⟨?_, Nat.zero_le _, trivial, trivial, hh.modifiers_eq, hh.flags_eq, False.elim⟩
    rw [hh.range_eq, hshift]
    rfl

theorem callTypeArguments?_strict (hsince : ∀ past, (since past true).Recurs R R)
    (hwithin : ∀ ctx, (@typeArgumentsOfCall R ctx).Within (@typeArgumentsOfCall top ctx))
    [strictness.Contexts ctx ctx'] :
    strictness.Follows (@callTypeArguments? R ctx) (@callTypeArguments? R ctx') := by
  intro s s' hs
  refine .look fun hcalm => ?_
  rw [(Lawful.aligned hs).token_eq]
  by_cases ht : s.token = .lessThanToken
  case neg =>
    rw [beq_false_of_ne ht]
    exact .pure hs none rfl
  rw [ht]
  have hflush : s.flush.Abreast s'.flush := hs.flush
  have hopening : s.flush.token.isOpening = true := congrArg Kind.isOpening ht
  have ht' : s'.flush.token = .lessThanToken := (congrArg (·.token) hs.scanner_eq).trans ht
  let past := Past.opening hflush hopening
  have hR := hsince past
  have hcontexts : (since past true).Contexts ctx ctx' := since_contexts past
  refine .attempt hs (.enter (L := since past true) (typeArgumentsOfCall_enters ht)
    (typeArgumentsOfCall_enters ht') ?_ ?_ ?_ ?_)
  · intro _ u hu _
    have hvisits := (typeArgumentsOfCall_enters (s := s.flush) ht).visits u hu
    rw [show past.left.length = s.flush.sink.size from Sink.length_toList _]
    exact hcalm ht ctx u ((hwithin ctx).visits hvisits)
  · exact (Follows.bind (.closed _ (commaItems_follows _ (Meets.recur .type)))
      (takenArguments_follows trivial (Past.opening_count hflush hopening true))) _ _
      (Past.opening_since hflush hopening)
  · exact fun t t' ht => ht.abreast
  · intro arguments
    refine ⟨arguments.map (List.map (NodePair.strict rfl)), ?_, ?_⟩
    · cases arguments with
      | none => rfl
      | some ns => exact congrArg some List.map_map
    · cases arguments with
      | none => rfl
      | some ns => exact congrArg some List.map_map

end TypeArguments

/-! ### Patterns -/

section Patterns
variable {R R' : Recursion} {ctx : Context} {s s' : ParseState}

theorem objectLiteral_enters (hs : s.token = .openBraceToken) :
    (@bindingName R ctx).Enters
      (closed .closeBraceToken
        (commaList .closeBraceToken fun _ => R.recur (.objectElement ctx.enclosed)) >>=
          fun l => node s.mark (.objectLiteral l.toList)) s := by
  refine .look ?_
  rw [hs]
  exact .look (.bind (.between hs))

theorem arrayLiteral_enters (hs : s.token = .openBracketToken) :
    (@bindingName R ctx).Enters
      (closed .closeBracketToken (Parse.loop (@arrayTurn R ctx.enclosed) {}) >>=
          fun l => node s.mark (.arrayLiteral l.toList l.hasTrailingComma)) s := by
  refine .look ?_
  rw [hs]
  exact .look (.bind (.between hs))

theorem token_of_isPatternStart {k : Kind} (h : k.isPatternStart = true) :
    k = .openBracketToken ∨ k = .openBraceToken := by
  cases k <;> first | exact .inl rfl | exact .inr rfl | cases h

theorem isOpening_of_isPatternStart {k : Kind} (h : k.isPatternStart = true) :
    k.isOpening = true := by
  rcases token_of_isPatternStart h with rfl | rfl <;> rfl

/-- A pattern of which only the reports count. -/
theorem checkedPattern_strict {q q' : Parse Listed} {g g' : Listed → ParseState → Node}
    (h : s.Abreast s') (hs : s.token.isOpening = true)
    (hp : (@bindingName R ∅).Enters (q >>= fun l => Parse.observe (g l)) s)
    (hp' : (@bindingName R' ∅).Enters (q' >>= fun l => Parse.observe (g' l)) s')
    (hq : (since (.opening h hs) false).Follows q q') :
    strictness.FollowsAt (do let _ ← @bindingName R ∅; return (← reported) == s.sink.size)
      (do let _ ← @bindingName R' ∅; return (← reported) == s'.sink.size) s s' := by
  refine .enter (L := since (.opening h hs) false) hp.bind hp'.bind (fun _ _ _ => nofun) ?_
    (fun t t' ht => ht.abreast) fun b => ⟨b, rfl, rfl⟩
  refine (@Follows.bind _ Node Bool (.any _ Node) _ _ _ _ _ hq.way fun _ => ?_) _ _
    (Past.opening_since h hs)
  exact reportedSince_follows trivial (Past.opening_count h hs false) fun b => .pure b rfl

theorem skipParameterStart_strict (hsince : ∀ past, (since past false).Recurs R R) :
    strictness.Follows (@skipParameterStart R) (@skipParameterStart R) := by
  have hname : strictness.Follows (do advance; return true) (do advance; return true) :=
    .same .advance fun _ => .pure true rfl
  refine .same skipModifiers_follows fun _ s s' hs => .look fun _ => ?_
  have htoken : s'.token = s.token := congrArg (·.token) hs.scanner_eq
  rw [htoken]
  refine .ite (hname s s' hs) ?_
  split
  case isFalse => exact .pure hs false rfl
  case isTrue hpattern =>
    have hopening : s.token.isOpening = true := isOpening_of_isPatternStart hpattern
    let past := Past.opening hs hopening
    have hR := hsince past
    have hempty := (since past false).contexts_rfl ∅
    refine .look fun _ => ?_
    rcases token_of_isPatternStart hpattern with ht | ht
    · exact checkedPattern_strict hs hopening (arrayLiteral_enters ht)
        (arrayLiteral_enters (htoken.trans ht))
        (.closed _ (.loop (ListedPair.empty _) rfl arrayTurn_follows))
    · exact checkedPattern_strict hs hopening (objectLiteral_enters ht)
        (objectLiteral_enters (htoken.trans ht))
        (.closed _ (commaList_follows _ fun _ => Meets.recur .objectElement))

end Patterns

/-! ### Grammars -/

/-- A grammar whose rules follow each other in contexts that differ in strictness, and report alike
since any place. -/
theorem Meets.strict {R : Recursion} (h : strictness.Meets R R)
    (hsince : ∀ past differs, (since past differs).Recurs R R)
    (hwithin : ∀ ctx, (@typeArgumentsOfCall R ctx).Within (@typeArgumentsOfCall top ctx)) :
    strictness.Recurs R R where
  typeArguments := callTypeArguments?_strict (hsince · true) hwithin
  functionType := startsFunctionType_follows (skipParameterStart_strict (hsince · false))

theorem strictness_below (W : Nat) :
    strictness.Recurs (below W top.recur) (below W top.recur) := by
  induction W using Nat.strongRecOn with
  | ind W ih =>
    have hmeets : strictness.Meets (below W top.recur) (below W top.recur) := below_meets ih
    exact hmeets.strict (fun _ _ => below_recurs trivial W) (typeArgumentsOfCall_within W)

/-- The grammar decides alike in all contexts that differ in strictness only. -/
theorem strictness_top : strictness.Recurs top top := by
  have hmeets : strictness.Meets top top := top_meets strictness_below
  exact hmeets.strict (fun _ _ => top_recurs trivial) fun ctx => .refl _

end Coupling
end EcmaSyntax
