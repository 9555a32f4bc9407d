import EcmaSyntax.Proofs.Grammar.Source

/-! # Termination

A parse could go on forever in two ways: a loop could take turns at one token, or rules could meet
each other without consuming any. In the first case the start of the present token tells the turns
apart; in the second the rank of the rules decreases. Both hold at every state that a parse can come
to, whatever the source is. -/
namespace EcmaSyntax
open Parse Grammar ParseState

/-! ## States and measures -/

/-- A state that the parse of a source can come to, at any level of nesting. -/
def ParseState.Reachable (text : List Char) (s : ParseState) : Prop :=
  ∃ n, Moves ((ParseState.firstToken text).atDepth n) s

theorem ParseState.Reachable.ready {text : List Char} {s : ParseState} (h : s.Reachable text) :
    s.Ready := by
  obtain ⟨n, hm⟩ := h
  have hfirst : (ParseState.firstToken text).Ready := inferInstance
  exact hm.ready ⟨hfirst.token, hfirst.faulty_of_limit⟩

/-- A rule is lighter than another one that was met before it: tokens have been consumed in between,
or it ranks below the other. -/
def Rule.Lighter {α β : Type} (rule : Rule α) (t : ParseState) (outer : Rule β) (s : ParseState) :
    Prop := t.left < s.left ∨ t.left = s.left ∧ rule.rank < outer.rank

instance {α β : Type} (rule : Rule α) (t : ParseState) (outer : Rule β) (s : ParseState) :
    Decidable (rule.Lighter t outer s) := inferInstanceAs (Decidable (_ ∨ _ ∧ _))

theorem Rule.rank_lt {α : Type} (rule : Rule α) : rule.rank < 8 := by
  cases rule <;> simp [Rule.rank]

theorem Rule.lighter_of_weight_lt {α β : Type} {rule : Rule α} {t : ParseState} {outer : Rule β}
    {s : ParseState} (h : rule.weight t < outer.weight s) : rule.Lighter t outer s := by
  have houter := outer.rank_lt
  unfold Rule.weight at h
  unfold Rule.Lighter
  omega

/-- The grammar as far as a rule may use it: what is not lighter than the rule has no answer. -/
@[reducible] def lighterThan {α : Type} (outer : Rule α) (s : ParseState) : Recursion where
  recur rule := do
    if ← observe fun t => decide (rule.Lighter t outer s) then top.recur rule else unanswered

theorem lighterThan_lawful {α : Type} (outer : Rule α) (s : ParseState) :
    @Lawful (lighterThan outer s) (outer.weight s) := by
  let := lighterThan outer s
  refine ⟨fun rule t _ hlt hfit => .look (.ite (fun _ => ?_) fun hge => absurd ?_ hge)⟩
  · exact (top_lawful (outer.weight s)).recur_reads rule t hlt hfit
  · exact decide_eq_true (Rule.lighter_of_weight_lt hlt)

/-! ## Loops -/

/-- The turns of a loop from an accumulator and a state on. Every turn but the last starts at a later
token than the one before. -/
inductive Looped {α : Type} (step : α → Parse (Turn α)) : α → ParseState → α → ParseState → Prop
  | done {a b s t} : (step a).run s = some (.done b, t) → Looped step a s b t
  | again {a b c s t u} : (step a).run s = some (.again b, t) →
      s.start.offset < t.start.offset → Looped step b t c u → Looped step a s c u

theorem looped_of_turns {α : Type} {step : α → Parse (Turn α)} {n : Nat} {a b : α}
    {s t : ParseState} (h : (turns step n a).run s = some (b, t)) : Looped step a s b t := by
  induction n generalizing a s with
  | zero => cases h
  | succ n ih =>
    obtain ⟨start, _, hstart, h⟩ := run_bind.mp h
    cases hstart
    obtain ⟨turn, u, hstep, hrest⟩ := run_bind.mp h
    cases turn with
    | done c =>
      cases hrest
      exact .done hstep
    | again c =>
      change ((if s.start.offset < u.start.offset then turns step n c else unanswered).run u) = _
        at hrest
      split at hrest
      case isTrue hlt => exact .again hstep hlt (ih hrest)
      case isFalse => cases hrest

theorem looped_of_loop {α : Type} {step : α → Parse (Turn α)} {a b : α} {s t : ParseState}
    (h : (loop step a).run s = some (b, t)) : Looped step a s b t := by
  obtain ⟨n, _, hn, h⟩ := run_bind.mp h
  cases hn
  exact looped_of_turns h

section Loops
variable [Recursion]

/-- The loops of the grammar, each with what it begins with and the state in which it begins. A loop
behind a first operand begins with that operand. -/
inductive LoopAt (s : ParseState) : {α : Type} → (α → Parse (Turn α)) → α → Prop
  | statements {ctx inModule directives isEnd} :
      LoopAt s (bodyTurn inModule isEnd) ⟨ctx, directives, #[]⟩
  | clauses {ctx} : LoopAt s (caseTurn ctx) #[]
  | variableList {ctx} : LoopAt s (variableTurn ctx) #[]
  | specifiers {direction} :
      LoopAt s (commaTurn .closeBraceToken fun _ => some <$> specifier direction) {}
  | enumMembers {ctx} : LoopAt s (enumTurn ctx) #[]
  | classMembers {ctx} : LoopAt s (classTurn ctx) #[]
  | typeMembers {ctx} : LoopAt s (typeMemberTurn ctx) #[]
  | objectElements {ctx} :
      LoopAt s (commaTurn .closeBraceToken fun _ => recur (.objectElement ctx)) {}
  | arrayElements {ctx} : LoopAt s (arrayTurn ctx) {}
  | arguments {ctx} : LoopAt s (commaTurn .closeParenToken fun _ => argument ctx) {}
  | coverElements {ctx} : LoopAt s (coverTurn ctx) {}
  | parameters {ctx} : LoopAt s (commaTurn .closeParenToken (listedParameter ctx)) {}
  | indexParameters {ctx} : LoopAt s (indexParameterTurn ctx) #[]
  | decorators {ctx} : LoopAt s (decoratorTurn ctx) #[]
  | parameterModifiers : LoopAt s (modifierTurn Kind.isAccessModifier fun _ => isBeforeBinding) ∅
  | classModifiers : LoopAt s (modifierTurn isClassModifier isBeforeMember) ∅
  | skippedModifiers : LoopAt s skipModifierTurn ()
  | typeArguments {ctx} :
      LoopAt s (commaTurn .greaterThanToken fun _ => some <$> recur (.type ctx)) {}
  | typeParameters {ctx} :
      LoopAt s (commaTurn .greaterThanToken fun _ => some <$> typeParameter ctx) {}
  | tupleElements {ctx} :
      LoopAt s (commaTurn .closeBracketToken fun _ => some <$> tupleElement ctx) {}
  | typeReferences {ctx} : LoopAt s (moreTurn .commaToken (typeReference ctx)) #[]
  | unionMembers {ctx} : LoopAt s (moreTurn .barToken (intersectionType ctx)) #[]
  | intersectionMembers {ctx} : LoopAt s (moreTurn .ampersandToken (intersectionMember ctx)) #[]
  | templateSpans {ctx} : LoopAt s (templateTurn ctx) #[]
  | attributes {ctx} : LoopAt s (attributeTurn ctx) #[]
  | children {ctx} : LoopAt s (childTurn ctx) #[]
  | skipped : LoopAt s skipTurn ()
  | commas {ctx r first} : r.Ready → (recur (.assignment ctx)).run r = some (first, s) →
      LoopAt s (expressionTurn ctx r.mark) first
  | operators {ctx p r first} : r.Ready → (recur (.unary ctx)).run r = some (first, s) →
      LoopAt s (operation ctx p r.mark) first
  | suffixes {ctx calls r base} : r.Ready → (memberBase ctx).run r = some (base, s) →
      LoopAt s (suffix ctx r.mark calls) base
  | postfixes {ctx r first} : r.Ready → (primaryType ctx).run r = some (first, s) →
      LoopAt s (postfixTurn ctx r.mark) first
  | qualifiers {ctx r first} : r.Ready → (entityHead ctx).run r = some (first, s) →
      LoopAt s (entityTurn r.mark) first
  | tagMembers {r m first path spelling} : r.Ready → m.At r → r.token.isName = true →
      identifierToken.run r = some (first, s) → LoopAt s (tagTurn m) ⟨first, path, spelling⟩

variable {s : ParseState} [s.Ready]

/-- Every loop of the grammar has an answer, if all rules are read as the grammar says. -/
theorem LoopAt.reads {α : Type} {step : α → Parse (Turn α)} {a : α} (h : LoopAt s step a)
    (hall : ∀ W, Lawful W) : (loop step a).Reads s fun _ _ => True := by
  have hs := hall (s.left * 8 + 8)
  -- a list that is gathered begins without nodes
  have hcollect (ph : Phrase) (ctx : Context) {step : Array Node → Parse (Turn (Array Node))}
      (hstep : ∀ (found : Array Node) (t : ParseState) [t.Ready], t.left ≤ s.left →
        Extends s (Part.all ph ctx found.toList) t → (step found).Reads t
          (AfterTurn (fun found u => Extends s (Part.all ph ctx found.toList) u)
            (fun found u => Extends s (Part.all ph ctx found.toList) u) t)) :
      (loop step #[]).Reads s fun _ _ => True :=
    (collect_reads ph ctx fun found t _ _ hl h => hstep found t hl h).first
  have hitems (ph : Phrase) (ctx : Context) {close : Kind} {item : Parse Node}
      (hitem : ∀ (t : ParseState) [t.Ready], t.left ≤ s.left →
        item.Reads t fun n u => Built t ⟨ph, ctx, n⟩ u) :
      (loop (commaTurn close fun _ => some <$> item) {}).Reads s fun _ _ => True :=
    (commaItems_reads fun t _ _ hl => hitem t hl).first
  cases h with
  | statements => exact (statementList_reads (Nat.le_refl _)).first
  | clauses => exact hcollect _ _ fun _ _ _ hl h => caseTurn_reads (by omega) h
  | variableList => exact hcollect _ _ fun _ _ _ hl h => variableTurn_reads (by omega) h
  | specifiers => exact hitems .specifier ∅ fun _ _ _ => specifier_reads ∅
  | enumMembers => exact hcollect _ _ fun _ _ _ hl h => enumTurn_reads (by omega) h
  | classMembers => exact hcollect _ _ fun _ _ _ hl h => classTurn_reads (by omega) h
  | typeMembers => exact hcollect _ _ fun _ _ _ hl h => typeMemberTurn_reads (by omega) h
  | objectElements =>
    exact (commaList_reads fun _ _ _ _ hl => objectElement_rule (by omega)).mono fun _ _ _ => trivial
  | @arrayElements ctx =>
    have h : (loop (arrayTurn ctx) {}).Reads s fun l t =>
        Extends s (Part.all .arrayElement ctx l.toList) t :=
      loop_reads _ (.refl s) fun _ _ _ _ hl h => arrayTurn_reads (by omega) h
    exact h.mono fun _ _ _ => trivial
  | arguments =>
    exact (commaList_reads fun _ _ _ _ hl => argument_reads (by omega)).mono fun _ _ _ => trivial
  | @coverElements ctx =>
    have h : (loop (coverTurn ctx) {}).Reads s fun c t => Covers ctx s c t :=
      loop_reads _ ⟨.refl s, fun _ => nofun⟩ fun _ _ _ _ hl h => coverTurn_reads (by omega) h
    exact h.mono fun _ _ _ => trivial
  | parameters =>
    exact (commaList_reads fun _ _ _ _ hl => listedParameter_reads (by omega)).mono
      fun _ _ _ => trivial
  | indexParameters => exact hcollect _ _ fun _ _ _ hl h => indexParameterTurn_reads (by omega) h
  | decorators => exact (decorators_reads (by omega)).first
  | parameterModifiers => exact parameterModifiers_reads
  | classModifiers => exact classModifiers_reads
  | skippedModifiers => exact skipModifiers_reads
  | typeArguments => exact hitems _ _ fun _ _ hl => type_rule (by omega)
  | typeParameters => exact hitems _ _ fun _ _ hl => typeParameter_reads (by omega)
  | tupleElements => exact hitems _ _ fun _ _ hl => tupleElement_reads (by omega)
  | typeReferences =>
    exact (more_reads (by decide) fun _ _ _ hl => typeReference_reads (by omega)).first
  | unionMembers =>
    exact (more_reads (by decide) fun _ _ _ hl => intersectionType_reads (by omega)).first
  | intersectionMembers =>
    exact (more_reads (by decide) fun _ _ _ hl => intersectionMember_reads (by omega)).first
  | templateSpans => exact hcollect _ _ fun _ _ _ hl h => templateTurn_reads (by omega) h
  | attributes => exact hcollect _ _ fun _ _ _ hl h => attributeTurn_reads (by omega) h
  | children => exact (childLoop_reads (by omega)).mono fun _ _ _ => trivial
  | skipped => exact skipToEnd_reads.mono fun _ _ _ => trivial
  | @commas _ r _ hr hrun =>
    have hs := hall (r.left * 8 + 8)
    exact (((expression_reads (by omega)).rest rfl).rest hrun).mono fun _ _ _ => trivial
  | @operators _ _ r _ hr hrun =>
    have hs := hall (r.left * 8 + 8)
    exact (((operand_reads (by omega)).rest rfl).rest hrun).mono fun _ _ _ => trivial
  | @suffixes ctx calls r base hr hrun =>
    have hs := hall (r.left * 8 + 8)
    have hbase := (memberBase_reads (by omega)).of_run hrun
    have hl := hbase.moves.left_le hr
    -- whatever the base is, the links behind it are the same
    have h : (loop (suffix ctx r.mark calls) base).Reads s fun n t =>
        False → Built r ⟨.suffixed calls, ctx, n⟩ t :=
      loop_reads (fun n t => Linkable False calls ctx r n t) ⟨nofun, nofun⟩
        fun _ _ _ _ hl' hn => suffix_reads (by omega) (.mark r) hn
    exact h.mono fun _ _ _ => trivial
  | @postfixes _ r _ hr hrun =>
    have hs := hall (r.left * 8 + 8)
    exact (((postfixType_reads (by omega)).rest rfl).rest hrun).mono fun _ _ _ => trivial
  | @qualifiers _ r _ hr hrun =>
    exact ((entityName_reads.rest rfl).rest hrun).mono fun _ _ _ => trivial
  | @tagMembers r m first path spelling hr hm hname hrun =>
    have hfirst := ((nameToken_reads ∅ hname).of_run hrun).1
    have h : (loop (tagTurn m) ⟨first, path, spelling⟩).Reads s (ReadTag False ∅ r) :=
      loop_reads _ ⟨hfirst.choose (by simp), nofun⟩ fun _ _ _ _ _ h => tagTurn_reads hm h
    exact h.mono fun _ _ _ => trivial

end Loops

/-! ## Termination -/

theorem run_ends (source : String) (options : ParseOptions) :
    ∃ statements s, run source options = some (statements, s) ∧ s.token = .endOfFileToken := by
  obtain ⟨statements, s, hrun, -, hend⟩ := source_reads (.ofOptions options) source.toList
  exact ⟨statements, s, hrun, hend⟩

/-- A parse ends at the end of its source. At every state that it can come to, the turns of a loop
start at later and later tokens until the loop ends, and a rule that may use lighter ones only still
has an answer. -/
theorem run_terminates (source : String) (options : ParseOptions) :
    (∃ statements s, run source options = some (statements, s) ∧ s.token = .endOfFileToken) ∧
      ∀ s : ParseState, s.Reachable source.toList →
        (∀ {α : Type} (step : α → Parse (Turn α)) (a : α), @LoopAt top s α step a →
          ∃ b t, Looped step a s b t) ∧
        ∀ {α : Type} (rule : Rule α), rule.Fits s →
          ∃ a t, (@readHere (lighterThan rule s) α rule).run s = some (a, t) := by
  refine ⟨run_ends source options, fun s hs => ?_⟩
  have := hs.ready
  refine ⟨fun step a hloop => ?_, fun rule hfit => ?_⟩
  · let := top
    obtain ⟨b, t, hrun, -⟩ := hloop.reads top_lawful
    exact ⟨b, t, looped_of_loop hrun⟩
  · let := lighterThan rule s
    have := lighterThan_lawful rule s
    obtain ⟨a, t, hrun, -⟩ := readHere_reads (Nat.le_refl _) hfit
    exact ⟨a, t, hrun⟩

end EcmaSyntax
