import EcmaSyntax.Proofs.Flat.Spelling
import EcmaSyntax.Proofs.Inertness
import EcmaSyntax.Proofs.Operands

/-! # Reading flat expressions

Names with binary operators between them, of any number, are one expression, read without a
diagnostic and grouped by precedence. A less-than sign makes the parser look for type arguments; as
there is no parenthesis and no template behind them, it always comes back. -/
namespace EcmaSyntax
open Parse Grammar ParseState

/-! ## Tokens -/

/-- A state on a token of some kind with a text behind it, where nothing has been reported. -/
structure ParseState.On (s : ParseState) (kind : Kind) (behind : List Char) : Prop where
  token : s.token = kind
  behind : s.scanner.stop.rest = behind
  pending : s.scanner.pending = ∅
  clean : s.sink = ∅

section Tokens
variable {s : ParseState} {kind kind' : Kind} {gap word text : List Char} {k : Kind}

variable (gap word) in
/-- The token behind a gap. -/
theorem ParseState.On.consume (hsound : s.scanner.stop.Sound)
    (h : s.On kind (gap ++ (word ++ text)))
    (hgap : ∀ b, Trivia.extent (.betweenTokens b) (gap ++ (word ++ text)) = { size := gap.length })
    (hread : Lexeme.read (word ++ text) = ⟨kind', word.length, ∅, none⟩) :
    (s.consume .plain).On kind' text ∧
      (s.consume .plain).reading.text = String.ofList word := by
  have hflush : s.flush = s := flush_eq_self h.pending
  have htrivia : s.scanner.trivia = { size := gap.length } := by
    rw [Scanner.trivia, h.behind, hgap]
  have hstart : s.scanner.skipTrivia.start = s.scanner.stop.skip gap.length := by
    rw [Scanner.skipTrivia, htrivia]
  have hrest : s.scanner.skipTrivia.start.rest = word ++ text := by
    rw [hstart, Cursor.skip_rest, h.behind, List.drop_left]
  have hpending : s.scanner.skipTrivia.pending = ∅ := by
    rw [Scanner.skipTrivia, htrivia]
    exact h.pending
  have hscan : s.scanner.scan = s.scanner.skipTrivia.take ⟨kind', word.length, ∅, none⟩ := by
    rw [Scanner.scan, hrest, hread]
  have hconsume : s.consume .plain =
      { s with scanner := s.scanner.skipTrivia.take ⟨kind', word.length, ∅, none⟩ } := by
    rw [ParseState.consume, hflush, ← hscan]
    rfl
  have hsound' : s.scanner.skipTrivia.start.Sound :=
    hstart ▸ Cursor.skip_sound _ hsound
  rw [hconsume]
  refine ⟨⟨rfl, ?_, hpending, h.clean⟩, congrArg String.ofList ?_⟩
  · change (s.scanner.skipTrivia.start.skip word.length).rest = text
    rw [Cursor.skip_rest, hrest, List.drop_left]
  · change s.scanner.skipTrivia.start.textTo (s.scanner.skipTrivia.start.skip word.length) = word
    rw [Cursor.textTo_skip _ hsound', hrest, List.take_left]

/-- A name behind a blank. -/
theorem ParseState.On.name {x : String} [hs : s.Ready] (h : s.On kind (' ' :: (x.toList ++ text)))
    (hx : IsPlainName x) (htext : EndsWord text) :
    (s.consume .plain).On .identifier text ∧ (s.consume .plain).reading.text = x := by
  have hread := Lexeme.read_word hx.word htext
  rw [String.ofList_toList, hx.plain] at hread
  have hgap (b : Bool) : Trivia.extent (.betweenTokens b) ([' '] ++ (x.toList ++ text)) =
      { size := 1 } := by
    rw [List.singleton_append, Trivia.extent_blank, Trivia.extent_word hx.word]
    rfl
  have h := h.consume [' '] _ hs.token.stop_sound hgap hread
  rwa [String.ofList_toList] at h

/-- An operator between blanks. -/
theorem ParseState.On.operator [hs : s.Ready]
    (h : s.On kind (' ' :: (k.chars ++ ' ' :: text))) (hk : k.IsValueOperator) :
    (s.consume .plain).On k.scanned (k.extension ++ ' ' :: text) := by
  obtain ⟨hchars, -⟩ := hk.chars_eq
  have hread := Lexeme.read_operator hk text
  have hgap (b : Bool) : Trivia.extent (.betweenTokens b) ([' '] ++ (k.chars ++ ' ' :: text)) =
      { size := 1 } := by
    rw [List.singleton_append, Trivia.extent_blank, Trivia.extent_operator hk]
    rfl
  rw [hchars, List.append_assoc] at h hread hgap
  exact (h.consume [' '] _ hs.token.stop_sound hgap hread).1

theorem ParseState.reread_greaterThan_eq (h : s.token ≠ .greaterThanToken) :
    s.reread .greaterThan = s := congrArg Prod.snd (Option.some.inj (reread_greaterThan_run h))

/-- An operator is read as a whole where it is asked for. -/
theorem ParseState.On.reread (h : s.On k.scanned (k.extension ++ ' ' :: text))
    (hk : k.IsValueOperator) : (s.reread .greaterThan).On k (' ' :: text) := by
  obtain ⟨-, hscanned, -⟩ := hk.chars_eq
  by_cases hgreater : k.scanned = .greaterThanToken
  · have hoperator : Lexeme.greaterThan s.scanner.stop.rest = (k, k.extension.length) := by
      rw [h.behind, Lexeme.greaterThan_operator hk hgreater]
    have htoken : (s.scanner.token == .greaterThanToken) = true :=
      beq_iff_eq.mpr (h.token.trans hgreater)
    have hreread : s.reread .greaterThan = { s with scanner := { s.scanner with
        token := k, stop := s.scanner.stop.skip k.extension.length } } := by
      rw [ParseState.reread, Scanner.reread, Scanner.rescanGreaterThan, if_pos htoken, hoperator]
    rw [hreread]
    refine ⟨rfl, ?_, h.pending, h.clean⟩
    change (s.scanner.stop.skip k.extension.length).rest = _
    rw [Cursor.skip_rest, h.behind, List.drop_left]
  · obtain ⟨hsame, hnone⟩ := hscanned.resolve_left hgreater
    rw [reread_greaterThan_eq fun htoken => hgreater (h.token.symm.trans htoken)]
    rwa [hsame, hnone] at h

/-- A word at the beginning of a source is its first token. -/
theorem firstToken_word (hword : IsWord word) (htext : EndsWord text) :
    (ParseState.firstToken (word ++ text)).On
        ((Kind.ofKeyword? (String.ofList word)).getD .identifier) text ∧
      (ParseState.firstToken (word ++ text)).reading.text = String.ofList word := by
  have hshebang : (Scanner.ofText (word ++ text)).skipShebang = Scanner.ofText (word ++ text) := by
    obtain ⟨c, hc, hstart⟩ := hword.begins
    obtain ⟨rest, rfl⟩ := List.head?_eq_some_iff.mp hc
    unfold Scanner.skipShebang
    split
    case h_1 heq =>
      obtain ⟨rfl, -⟩ := List.cons.inj heq
      exact absurd hstart (by decide)
    case h_2 => rfl
  have hbegin : (ParseState.ofText (word ++ text)).On .unknown ([] ++ (word ++ text)) := by
    rw [ParseState.ofText, hshebang]
    exact ⟨rfl, rfl, rfl, rfl⟩
  have hsound : (ParseState.ofText (word ++ text)).scanner.stop.Sound := by
    rw [ParseState.ofText, hshebang]
    exact Cursor.start_sound _
  have hread := Lexeme.read_word hword htext
  obtain ⟨hon, hname⟩ := hbegin.consume _ _ hsound (fun b => Trivia.extent_word hword b) hread
  have hisName : ((ParseState.ofText (word ++ text)).consume .plain).token.isName = true := by
    rw [hon.token]
    cases hkeyword : Kind.ofKeyword? (String.ofList word) with
    | none => rfl
    | some k =>
      obtain ⟨hkeyword, -⟩ := Kind.ofKeyword?_kind hkeyword
      simp [Kind.isName, hkeyword]
  rw [firstToken_eq hisName]
  exact ⟨hon, hname⟩

end Tokens

/-! ## Type arguments -/

/-- Where neither a parenthesis nor a template can follow, type arguments are not taken. -/
theorem Grammar.callTypeArguments?_none [Recursion] {W : Nat} [Lawful W] {s : ParseState} [s.Ready]
    (ctx : Context) (hb : s.left * 8 ≤ W) (ht : s.token = .lessThanToken)
    (hpending : s.scanner.pending = ∅)
    (hfollows : ∀ t, Moves s t → ¬ FollowsTypeArguments t.token) :
    (callTypeArguments? ctx).run s = some (none, s) := by
  have hflush := flush_eq_self hpending
  obtain ⟨ts, t, hrun, hts⟩ := attempt_reads (typeArgumentsOfCall_reads (s := s.flush) hb ht)
  have hmoves := Parse.moves _ hrun
  rcases hts with ⟨rfl, rfl⟩ | ⟨hsome, hts⟩
  · rw [hflush] at hrun
    exact run_bind.mpr ⟨true, s, isAt_run ht, hrun⟩
  · exact absurd ((hts hsome).taken hsome).2 (hfollows t hmoves)

/-- In a source without parentheses and templates nothing follows type arguments. -/
theorem Reading.Placed.not_follows {source : String} {r : Reading} (h : r.Placed source)
    (hparen : '(' ∉ source.toList) (htick : '\x60' ∉ source.toList) :
    ¬ FollowsTypeArguments r.token := by
  intro hfollows
  rcases List.mem_cons.mp hfollows with ht | ht
  · have htext : r.token.punctuatorText = some (String.ofList ['(']) := by
      rw [ht]
      rfl
    exact hparen (h.mem_of_punctuator htext List.mem_cons_self)
  · have hopens : r.token.opensTemplate = true := by
      revert ht
      generalize r.token = k
      revert k
      decide
    exact htick (h.mem_source (List.mem_of_head? (h.spelled.template hopens)))

/-! ## Names -/

/-- Tokens before which a name is an operand, be it that type arguments are looked for. -/
def Kind.endsName (k : Kind) : Bool :=
  (k == .lessThanToken || !k.continuesExpression) && k != .plusPlusToken && k != .minusMinusToken

theorem Kind.IsValueOperator.scanned_endsName {k : Kind} (h : k.IsValueOperator) :
    k.scanned.endsName = true := by
  have hall : ∀ k ∈ valueOperators, k.scanned.endsName = true := by decide
  exact hall k h.mem

/-- A state on the first name of a flat expression. -/
structure ParseState.AtFlat (s : ParseState) (ending first : String)
    (rest : List (Kind × String)) : Prop where
  on : s.On .identifier (flatTail ending rest)
  text : s.reading.text = first

/-- A state behind a name of a flat expression. The next operator has been read as a whole, or is
about to be. -/
def ParseState.Before (s : ParseState) (ending : String) : List (Kind × String) → Prop
  | [] => (s.reread .greaterThan).On .semicolonToken []
  | (k, x) :: rest =>
    (s.reread .greaterThan).On k (' ' :: (x.toList ++ flatTail ending rest))

theorem ParseState.Before.reread {s : ParseState} {ending : String} {rest : List (Kind × String)}
    (h : s.Before ending rest) : (s.reread .greaterThan).Before ending rest := by
  unfold ParseState.Before at h ⊢
  rwa [reread_greaterThan_idem]

section Names
variable {source ending first : String} {rest : List (Kind × String)} {s : ParseState}
variable {ctx : Context}

/-- The end of a statement, with or without a blank before it. -/
theorem ParseState.On.semicolon {kind : Kind} [hs : s.Ready] (h : s.On kind ending.toList)
    (hending : EndsStatement ending) : (s.consume .plain).On .semicolonToken [] := by
  have hsound := hs.token.stop_sound
  rcases hending with rfl | rfl
  · exact (h.consume [] [';'] hsound (fun b => by cases b <;> rfl) rfl).1
  · exact (h.consume [' '] [';'] hsound (fun _ => rfl) rfl).1

/-- The token behind a name. -/
theorem ParseState.AtFlat.next [s.Ready] (h : s.AtFlat ending first rest)
    (hending : EndsStatement ending) (hrest : AreOperations rest) :
    (s.consume .plain).Before ending rest ∧ (s.consume .plain).token.endsName = true ∧
      (s.consume .plain).scanner.pending = ∅ := by
  cases rest with
  | nil =>
    have hon := h.on.semicolon hending
    refine ⟨?_, hon.token ▸ rfl, hon.pending⟩
    rw [ParseState.Before, reread_greaterThan_eq fun htoken => by cases hon.token.symm.trans htoken]
    exact hon
  | cons o rest =>
    obtain ⟨⟨hk, -⟩, -⟩ := List.forall_mem_cons.mp hrest
    have hon := h.on.operator hk
    exact ⟨hon.reread hk, hon.token ▸ hk.scanned_endsName, hon.pending⟩

variable (ctx) in
/-- A name of a flat expression is an operand. -/
theorem unary_flat [hs : s.Ready] (h : s.AtFlat ending first rest) (hending : EndsStatement ending)
    (hrest : AreOperations rest) (hplaced : s.reading.Placed source)
    (hparen : '(' ∉ source.toList) (htick : '\x60' ∉ source.toList)
    (hdepth : s.depth < nestingLimit) :
    ∃ n : Node, n.form = .identifier false first none ∧
      (top.recur (.unary ctx)).run s = some (n, s.consume .plain) := by
  obtain ⟨-, hends, hpending⟩ := h.next hending hrest
  simp only [Kind.endsName, Bool.and_eq_true, Bool.or_eq_true, bne_iff_ne] at hends
  obtain ⟨⟨hcontinues, hplus⟩, hminus⟩ := hends
  rw [← h.text]
  refine unary_name ctx h.on.token hdepth (fun m n => ?_) hplus hminus
  let _ := below (s.left * 8 + 2) top.recur
  rcases hcontinues with hless | hstops
  · have := below_lawful (s.left * 8 + 2)
    have hmoves : Moves s.deeper (s.deeper.consume .plain) := .single (.consume .plain _)
    have hle : (s.deeper.consume .plain).left ≤ s.left := hmoves.left_le hs.deeper
    have hless : (s.deeper.consume .plain).token = .lessThanToken := beq_iff_eq.mp hless
    have hnone := callTypeArguments?_none ctx (by omega) hless hpending fun t hm =>
      ((hmoves.trans hm).placed hplaced).not_follows hparen htick
    refine run_bind.mpr ⟨.lessThanToken, _, congrArg (fun k => some (k, _)) hless, ?_⟩
    exact run_bind.mpr ⟨none, _, hnone, rfl⟩
  · rw [Bool.not_eq_true'] at hstops
    exact suffix_stops hstops

end Names

/-! ## Operands -/

section Operation
variable [Recursion] {ctx : Context} {p : Precedence} {m : Mark} {left right : Node}
variable {s t : ParseState}

theorem operation_stops (h : p.binds (s.reread .greaterThan).token = false) :
    (operation ctx p m left).run s = some (.done left, s.reread .greaterThan) := by
  refine run_bind.mpr ⟨(), _, rfl, run_bind.mpr ⟨_, _, rfl, ?_⟩⟩
  rw [h]
  rfl

variable (m left) in
theorem operation_goes (hin : ctx.has .withoutIn = false)
    (hbinds : p.binds (s.reread .greaterThan).token = true)
    (hsort : assertionSort? (s.reread .greaterThan).token = none)
    (hright : (recur (.operand ctx (.ofOperator (s.reread .greaterThan).token))).run
      ((s.reread .greaterThan).consume .plain) = some (right, t)) :
    (operation ctx p m left).run s = some
      (.again (.mk (t.header m) (.binary left (s.reread .greaterThan).token right)), t) := by
  refine run_bind.mpr ⟨(), _, rfl, run_bind.mpr ⟨_, _, rfl, ?_⟩⟩
  rw [hbinds, hin, Bool.and_false, hsort]
  exact run_bind.mpr ⟨(), _, rfl, run_bind.mpr ⟨right, t, hright, rfl⟩⟩

end Operation

section Operands
variable {source ending : String} {ctx : Context}

/-- What an operand takes of the operators behind its first name: those of a tree. It ends before
the others. -/
structure TakesFlat (ending : String) (p : Precedence) (tree : OperatorTree)
    (rest : List (Kind × String)) (n : Node) (t : ParseState) : Prop where
  describes : tree.Describes n
  reread : t.reread .greaterThan = t
  split : ∃ left, rest = tree.rest ++ left ∧ t.Before ending left ∧
    ∀ o ∈ left.head?, p.binds o.1 = false

/-- Every operand that begins with a name and these operators is read. -/
def OperandsRead (source ending : String) (ctx : Context) (rest : List (Kind × String)) : Prop :=
  ∀ (s : ParseState) [s.Ready] (first : String) (p : Precedence) (W : Nat),
    s.AtFlat ending first rest → s.reading.Placed source → s.depth < nestingLimit →
      s.left * 8 + 3 ≤ W → ∃ (n : Node) (t : ParseState) (tree : OperatorTree),
        (@operand (below W top.recur) ctx p).run s = some (n, t) ∧ tree.first = first ∧
          TakesFlat ending p tree rest n t

/-- The turns through operators, where the operands behind them are read. -/
theorem operators_flat {p : Precedence} {W bound : Nat} {m : Mark}
    (hin : ctx.has .withoutIn = false) (hending : EndsStatement ending)
    (hread : ∀ rest, rest.length < bound → AreOperations rest → OperandsRead source ending ctx rest)
    {rest : List (Kind × String)} (hbound : rest.length ≤ bound) (hrest : AreOperations rest)
    {u : ParseState} [u.Ready] (hu : u.Before ending rest) (hplaced : u.reading.Placed source)
    (hdepth : u.depth < nestingLimit) (hW : u.left * 8 + 3 ≤ W) {left : Node}
    {tree : OperatorTree} (htree : tree.Describes left) :
    ∃ (n : Node) (t : ParseState) (whole : OperatorTree),
      Looped (@operation (below W top.recur) ctx p m) left u n t ∧ whole.first = tree.first ∧
        TakesFlat ending p whole (tree.rest ++ rest) n t := by
  let _ := below W top.recur
  induction hlength : rest.length using Nat.strong_induction_on generalizing rest u left tree with
  | _ length ih =>
  have hdone (hstop : ∀ o ∈ rest.head?, p.binds o.1 = false)
      (hbinds : p.binds (u.reread .greaterThan).token = false) :
      ∃ (n : Node) (t : ParseState) (whole : OperatorTree),
        Looped (operation ctx p m) left u n t ∧ whole.first = tree.first ∧
          TakesFlat ending p whole (tree.rest ++ rest) n t :=
    ⟨left, _, tree, .done (operation_stops hbinds), rfl, htree, u.reread_greaterThan_idem, rest, rfl,
      hu.reread, hstop⟩
  cases rest with
  | nil => exact hdone nofun (by rw [show _ = _ from ParseState.On.token hu]; rfl)
  | cons o rest =>
    obtain ⟨k, x⟩ := o
    have hon : (u.reread .greaterThan).On k (' ' :: (x.toList ++ flatTail ending rest)) := hu
    by_cases hbinds : p.binds k = true
    · obtain ⟨⟨hk, hx⟩, hrest⟩ := List.forall_mem_cons.mp hrest
      rw [List.length_cons] at hlength hbound
      have hreread : Moves u (u.reread .greaterThan) := .single (.reread .greaterThan u)
      have : (u.reread .greaterThan).Ready := hreread.ready inferInstance
      obtain ⟨hname, htext⟩ := hon.name hx (endsWord_flatTail hending rest)
      have hmoves : Moves u ((u.reread .greaterThan).consume .plain) :=
        hreread.trans (.single (.consume .plain _))
      have hlt : ((u.reread .greaterThan).consume .plain).left < u.left := by
        refine Nat.lt_of_lt_of_le (consume_left_lt .plain ?_) (hreread.left_le inferInstance)
        rw [hon.token]
        rintro rfl
        cases hk.1
      -- the operand behind the operator takes some of the other operators
      obtain ⟨right, t, inner, hoperand, hfirst, hdescribes, -, left', hsplit, hbefore, -⟩ :=
        hread rest (by omega) hrest ((u.reread .greaterThan).consume .plain) x (.ofOperator k) _
          ⟨hname, htext⟩ (hmoves.placed hplaced) (hmoves.depth_eq ▸ hdepth) (Nat.le_refl _)
      have hright : (recur (.operand ctx (.ofOperator k))).run
          ((u.reread .greaterThan).consume .plain) = some (right, t) :=
        (below_run (by change _ * 8 + 3 < W; omega)).trans ((top_run _ _).trans hoperand)
      have hgoes := operation_goes m left hin (hon.token ▸ hbinds)
        (hon.token ▸ hk.2) (hon.token ▸ hright)
      have ht := Parse.moves _ hright
      have hmoved := hmoves.trans ht
      have : t.Ready := hmoved.ready inferInstance
      have hleft := ht.left_le (hmoves.ready inferInstance)
      have hrest' : AreOperations left' := fun o ho =>
        hrest o (hsplit ▸ List.mem_append_right _ ho)
      have hlen : left'.length ≤ rest.length := by
        rw [hsplit, List.length_append]
        exact Nat.le_add_left _ _
      have htree' : (OperatorTree.binary tree k inner).Describes
          (.mk (t.header m) (.binary left (u.reread .greaterThan).token right)) :=
        ⟨left, right, by rw [hon.token]; rfl, htree, hdescribes⟩
      obtain ⟨n, v, whole, hlooped, hwhole, htakes⟩ := ih left'.length (by omega) (by omega) hrest'
        hbefore (hmoved.placed hplaced) (hmoved.depth_eq ▸ hdepth) (by omega) htree' rfl
      have hforward := (hmoved.offset_lt_iff inferInstance).mpr (by omega)
      refine ⟨n, v, whole, .again hgoes hforward hlooped, hwhole, ?_⟩
      have hwritten : tree.rest ++ (k, x) :: rest =
          (OperatorTree.binary tree k inner).rest ++ left' := by
        rw [OperatorTree.rest, hfirst, hsplit, List.append_assoc, List.cons_append]
      exact hwritten ▸ htakes
    · have hbinds := Bool.eq_false_iff.mpr hbinds
      refine hdone (fun o ho => ?_) (hon.token ▸ hbinds)
      cases ho
      exact hbinds

/-- Operands of flat expressions are read, however many operators there are: what stands behind an
operator has fewer of them. -/
theorem operandsRead (hin : ctx.has .withoutIn = false) (hending : EndsStatement ending)
    (hparen : '(' ∉ source.toList) (htick : '\x60' ∉ source.toList)
    {rest : List (Kind × String)} (hrest : AreOperations rest) :
    OperandsRead source ending ctx rest := by
  induction hlength : rest.length using Nat.strong_induction_on generalizing rest with
  | _ length ih =>
  intro s _ first p W hat hplaced hdepth hW
  obtain ⟨base, hform, hunary⟩ := unary_flat ctx hat hending hrest hplaced hparen htick hdepth
  obtain ⟨hbefore, -⟩ := hat.next hending hrest
  have hmoves : Moves s (s.consume .plain) := .single (.consume .plain s)
  have hle := hmoves.left_le inferInstance
  have hname : (OperatorTree.name first).Describes base := hform
  obtain ⟨n, t, tree, hlooped, hfirst, htakes⟩ := operators_flat (m := s.mark) (p := p) (W := W)
    hin hending (fun rest' hlt hrest' => ih _ (hlength ▸ hlt) hrest' rfl)
    (Nat.le_refl _) hrest hbefore (hmoves.placed hplaced) (hmoves.depth_eq ▸ hdepth) (by omega) hname
  refine ⟨n, t, tree, ?_, hfirst, htakes⟩
  have hbase : ((below W top.recur).recur (.unary ctx)).run s = some (base, s.consume .plain) :=
    (below_run (by change s.left * 8 + 2 < W; omega)).trans hunary
  exact run_bind.mpr ⟨_, s, rfl, run_bind.mpr ⟨base, _, hbase, loop_of_looped hlooped⟩⟩

end Operands

/-! ## Sources -/

theorem OperatorTree.Describes.isPlainOperand {tree : OperatorTree} {n : Node}
    (h : tree.Describes n) : n.IsPlainOperand := by
  cases tree with
  | name text =>
    refine .inl ?_
    rw [Node.isIdentifier, show n.form = _ from h]
    rfl
  | binary left operator right =>
    obtain ⟨l, r, hform, -⟩ := h
    exact .inr ⟨l, operator, r, hform⟩

/-- At the loosest level an operand takes all operators. -/
theorem Kind.IsValueOperator.binds_comma {k : Kind} (h : k.IsValueOperator) :
    Precedence.comma.binds k = true := by
  have hall : ∀ k ∈ valueOperators, Precedence.comma.binds k = true := by decide
  exact hall k h.mem

section Sources
variable {ending first : String} {rest : List (Kind × String)}

/-- The first token is the first name. -/
theorem firstToken_flat (hending : EndsStatement ending) (hfirst : IsPlainName first)
    (rest : List (Kind × String)) :
    (ParseState.firstToken (flatText ending first rest).toList).AtFlat ending first rest := by
  obtain ⟨hon, hname⟩ := firstToken_word hfirst.word (endsWord_flatTail hending rest)
  rw [String.ofList_toList] at hname
  rw [String.ofList_toList, hfirst.plain] at hon
  rw [toList_flatText]
  exact ⟨hon, hname⟩

/-- A flat expression is read without a diagnostic, however long it is, and is the standard reading
of its names and operators by precedence. -/
theorem parse_flat (hending : EndsStatement ending) (hfirst : IsPlainName first)
    (hrest : AreOperations rest) (options : ParseOptions) :
    (parse (flatText ending first rest) options).diagnostics = ∅ ∧ ∃ header n,
      (parse (flatText ending first rest) options).root.form =
        .sourceBody options.goal [.mk header (.expressionStatement n)] ∧
      (OperatorTree.standard first rest).Describes n := by
  have hat := firstToken_flat hending hfirst rest
  obtain ⟨hparen, htick⟩ := not_mem_flatText hending hfirst hrest
  have hin : (Context.ofOptions options).has .withoutIn = false :=
    Context.ofOptions_argument options _ List.mem_cons_self
  generalize hsource : flatText ending first rest = source at hat hparen htick ⊢
  obtain ⟨n, t, tree, hoperand, rfl, hdescribes, hreread, left, hsplit, hbefore, hstops⟩ :=
    operandsRead hin hending hparen htick hrest
      (ParseState.firstToken source.toList).deeper.deeper.deeper first .comma
      ((ParseState.firstToken source.toList).left * 8 + 4)
      ⟨⟨hat.on.token, hat.on.behind, hat.on.pending, hat.on.clean⟩, hat.text⟩
      (firstToken_placed source) (show 0 + 3 < 500 by decide) (Nat.le_succ _)
  have hready : t.Ready := (Parse.moves _ hoperand).ready inferInstance
  obtain rfl : left = [] := by
    cases left with
    | nil => rfl
    | cons o left =>
      have ho := hrest o (hsplit ▸ List.mem_append_right _ List.mem_cons_self)
      exact Bool.noConfusion ((hstops o rfl).symm.trans ho.1.binds_comma)
  have hsemicolon : t.On .semicolonToken [] := hreread ▸ hbefore
  have hlast : (t.shallower.consume .plain).On .endOfFileToken [] := by
    have h : t.shallower.On .semicolonToken ([] ++ ([] ++ [])) :=
      ⟨hsemicolon.token, hsemicolon.behind, hsemicolon.pending, hsemicolon.clean⟩
    exact (h.consume [] [] (s := t.shallower) hready.token.stop_sound (fun _ => rfl) rfl).1
  obtain ⟨header, hitem⟩ := item_of_operand (Context.ofOptions options).isModule
    (.inl hat.on.token) (show 0 + 2 < 500 by decide) hsemicolon.token
    hdescribes.isPlainOperand.not_arrowParameters hoperand
  have hparse := parse_of_item (t := (t.shallower.consume .plain).shallower.shallower)
    (by rw [hat.on.token]; rfl) hlast.token (hdescribes.isPlainOperand.no_directive header) hitem
  have hclean : (t.shallower.consume .plain).shallower.shallower.flush.sink = ∅ := by
    rw [flush_eq_self (s := (t.shallower.consume .plain).shallower.shallower) hlast.pending]
    exact hlast.clean
  have hwithin : n.Within (parse source options).root := by
    rw [hparse]
    exact .child (.child .root List.mem_cons_self) List.mem_cons_self
  have hgrouped : tree.Grouped := by
    refine hdescribes.grouped (fun inner hinner => ?_) fun o ho => ?_
    · rcases parse_within (hinner.trans hwithin) with ⟨_, _, rfl⟩ | ⟨p, hp, hin⟩
      · exact .of_plain rfl rfl
      · exact hp.grouped inner hin
    · exact (hrest o (hsplit ▸ List.mem_append_left _ ho)).1
  rw [hparse]
  refine ⟨hclean, header, n, rfl, ?_⟩
  rw [List.append_nil] at hsplit
  rw [hsplit, ← hgrouped.eq_standard fun o ho => (hrest o (hsplit ▸ ho)).1]
  exact hdescribes

/-- Comparisons of a difference whose subtrahend is a power of a power. -/
theorem comparisons_flat : (parse "a < b - c ** d ** e > f;" {}).diagnostics = ∅ ∧ ∃ header n,
    (parse "a < b - c ** d ** e > f;" {}).root.form =
      .sourceBody .script [.mk header (.expressionStatement n)] ∧
    (OperatorTree.binary (.binary (.name "a") .lessThanToken (.binary (.name "b") .minusToken
      (.binary (.name "c") .asteriskAsteriskToken (.binary (.name "d") .asteriskAsteriskToken
        (.name "e"))))) .greaterThanToken (.name "f")).Describes n := by
  obtain ⟨rest, hrest⟩ : ∃ rest : List (Kind × String), rest = [(.lessThanToken, "b"),
    (.minusToken, "c"), (.asteriskAsteriskToken, "d"), (.asteriskAsteriskToken, "e"),
    (.greaterThanToken, "f")] := ⟨_, rfl⟩
  have htext : flatText ";" "a" rest = "a < b - c ** d ** e > f;" := by
    rw [hrest]
    decide +kernel
  have htree : OperatorTree.standard "a" rest =
      .binary (.binary (.name "a") .lessThanToken (.binary (.name "b") .minusToken
        (.binary (.name "c") .asteriskAsteriskToken (.binary (.name "d") .asteriskAsteriskToken
          (.name "e"))))) .greaterThanToken (.name "f") := by
    rw [hrest]
    decide +kernel
  rw [← htext, ← htree]
  exact parse_flat (.inl rfl) (by decide +kernel) (by rw [hrest]; decide +kernel) {}

end Sources
end EcmaSyntax
