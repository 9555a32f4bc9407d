import EcmaSyntax.Proofs.Rights
import EcmaSyntax.Proofs.Operands

/-! # Towers of powers

The operand behind a power operator is read at the level of the operator, so the guard of nesting
does not see how many of them lie within each other: a tower of powers is read without a diagnostic
however high it is. -/
namespace EcmaSyntax
open Parse Grammar ParseState

/-! ## Spelling -/

/-- What follows the first name in a tower of `n` powers. -/
def towerTail : Nat → List Char
  | 0 => [';']
  | n + 1 => '*' :: '*' :: 'a' :: towerTail n

/-- The text of a tower of powers. -/
def towerText (n : Nat) : String := String.ofList ('a' :: towerTail n)

/-- The present token is a name, with a given text behind it. -/
structure ParseState.AtName (s : ParseState) (behind : List Char) : Prop where
  token : s.token = .identifier
  rest : s.scanner.stop.rest = behind

theorem name_before {c : Char} (rest : List Char) (hc : c = ';' ∨ c = '*') :
    Lexeme.read ('a' :: c :: rest) = ⟨.identifier, 1, ∅, none⟩ := by
  have hrun : Lexeme.nameRun Text.isNamePart 0 ('a' :: c :: rest) = ⟨1, ∅⟩ := by
    have ha : Text.isNamePart 'a' = true := by decide +kernel
    have hc' : Text.isNamePart c = false ∧ Lexeme.escape? (c :: rest) = none := by
      rcases hc with rfl | rfl
      all_goals exact ⟨by decide +kernel, rfl⟩
    simp only [Lexeme.nameRun, ha, hc', if_true, Bool.false_eq_true, if_false]
    rfl
  have hread : Lexeme.read ('a' :: c :: rest) = Lexeme.name ('a' :: c :: rest) := rfl
  have hword : Kind.ofKeyword? (String.ofList ['a']) = none := by decide +kernel
  rw [hread, Lexeme.name, hrun]
  simp [hword]

theorem read_name_tail (n : Nat) :
    Lexeme.read ('a' :: towerTail n) = ⟨.identifier, 1, ∅, none⟩ := by
  cases n with
  | zero => exact name_before _ (.inl rfl)
  | succ n => exact name_before _ (.inr rfl)

/-- A token without trivia before it. -/
theorem consume_next {s : ParseState} {text : List Char} (kind : Kind) (size : Nat)
    (h : s.scanner.stop.rest = text)
    (hgap : ∀ atLineStart, Trivia.extent (.betweenTokens atLineStart) text = {})
    (hread : Lexeme.read text = ⟨kind, size, ∅, none⟩) :
    (s.consume .plain).token = kind ∧
      (s.consume .plain).scanner.stop = s.scanner.stop.skip size := by
  have htrivia : s.flush.scanner.trivia = {} := by
    change Trivia.extent _ s.scanner.stop.rest = _
    rw [h, hgap]
  have hskip : s.flush.scanner.skipTrivia.start = s.scanner.stop := by
    simp only [Scanner.skipTrivia, htrivia]
    rfl
  have hlexeme : Lexeme.read s.flush.scanner.skipTrivia.start.rest =
      ⟨kind, size, ∅, none⟩ := by
    rw [hskip, h, hread]
  change s.flush.scanner.scan.token = kind ∧ s.flush.scanner.scan.stop = _
  rw [Scanner.scan, hlexeme, ← hskip]
  exact ⟨rfl, rfl⟩

/-- A name before a tower. -/
theorem atName_of_rest {s : ParseState} {n : Nat} (h : s.scanner.stop.rest = 'a' :: towerTail n) :
    (s.consume .plain).AtName (towerTail n) := by
  obtain ⟨htoken, hstop⟩ := consume_next _ _ h (fun b => by cases b <;> rfl) (read_name_tail n)
  refine ⟨htoken, ?_⟩
  rw [hstop, Cursor.skip, Cursor.skip, Cursor.next, h]

theorem firstToken_tower (n : Nat) :
    (ParseState.firstToken ('a' :: towerTail n)).AtName (towerTail n) := by
  have hat : ((ParseState.ofText ('a' :: towerTail n)).consume .plain).AtName (towerTail n) :=
    atName_of_rest rfl
  have hname : ((ParseState.ofText ('a' :: towerTail n)).consume .plain).token.isName = true := by
    rw [hat.token]
    rfl
  exact firstToken_eq hname ▸ hat

/-! ## Shape -/

/-- A tree with a way through `k` right operands. -/
def Node.Leans (n : Node) (k : Nat) : Prop :=
  ∀ j, ∃ path last, n.follow (Node.rightStep fun _ => true) j path = some (j + k, last)

theorem Node.Leans.right {n : Node} {k : Nat} (h : n.Leans k) (header : Header) (left : Node)
    (operator : Kind) : Node.Leans (.mk header (.binary left operator n)) (k + 1) := by
  intro j
  obtain ⟨path, last, hpath⟩ := h (j + 1)
  refine ⟨("right", 0) :: path, last, ?_⟩
  rw [Nat.add_comm k, ← Nat.add_assoc, ← hpath]
  rfl

/-! ## Reading -/

section Tower
variable {s t : ParseState} {n : Nat} {ctx : Context} {p : Precedence} {W : Nat}

/-- The token behind a name in a tower. -/
theorem ParseState.AtName.next (h : s.AtName (towerTail n)) :
    (n = 0 ∧ (s.consume .plain).token = .semicolonToken ∧
      (s.consume .plain).scanner.stop.rest = []) ∨
    ∃ k, n = k + 1 ∧ (s.consume .plain).token = .asteriskAsteriskToken ∧
      ((s.consume .plain).consume .plain).AtName (towerTail k) := by
  cases n with
  | zero =>
    obtain ⟨htoken, hstop⟩ := consume_next .semicolonToken 1 h.rest
      (fun b => by cases b <;> rfl) rfl
    refine .inl ⟨rfl, htoken, ?_⟩
    rw [hstop, Cursor.skip, Cursor.skip, Cursor.next, h.rest]
    rfl
  | succ n =>
    obtain ⟨htoken, hstop⟩ := consume_next .asteriskAsteriskToken 2 h.rest
      (fun b => by cases b <;> rfl) rfl
    have hrest : (s.consume .plain).scanner.stop.rest = 'a' :: towerTail n := by
      rw [hstop, Cursor.skip, Cursor.skip, Cursor.skip, Cursor.next, Cursor.next, h.rest]
      rfl
    exact .inr ⟨n, rfl, htoken, atName_of_rest hrest⟩

variable (ctx) in
/-- A name in a tower is an operand. -/
theorem unary_tower [s.Ready] (hname : s.token = .identifier) (hdepth : s.depth < nestingLimit)
    (hnext : (s.consume .plain).token = .semicolonToken ∨
      (s.consume .plain).token = .asteriskAsteriskToken) :
    ∃ n : Node, n.isIdentifier = true ∧
      (top.recur (.unary ctx)).run s = some (n, s.consume .plain) := by
  have hstops (k : Kind) (hk : .semicolonToken ≠ k ∧ .asteriskAsteriskToken ≠ k) :
      (s.consume .plain).token ≠ k := by
    rcases hnext with h | h
    · exact h ▸ hk.1
    · exact h ▸ hk.2
  have hcontinues : (s.consume .plain).token.continuesExpression = false := by
    rcases hnext with h | h
    all_goals
      rw [h]
      rfl
  obtain ⟨n, hform, hrun⟩ := unary_name ctx hname hdepth
    (fun _ _ => @suffix_stops (below _ _) _ _ _ _ _ hcontinues) (hstops _ (by decide))
    (hstops _ (by decide))
  exact ⟨n, by rw [Node.isIdentifier, hform]; rfl, hrun⟩

variable (ctx) in
/-- A tower of powers is an operand in which every power is the right operand of the one before
it. None of them is read deeper than the first. -/
theorem operand_tower [s.Ready] (hdepth : s.depth < nestingLimit) (hat : s.AtName (towerTail n))
    (hp : p.binds .asteriskAsteriskToken = true) (hW : s.left * 8 + 3 ≤ W) :
    ∃ (power : Node) (t : ParseState), power.Leans n ∧ t.token = .semicolonToken ∧
      t.scanner.stop.rest = [] ∧ power.IsPlainOperand ∧
      (@operand (below W top.recur) ctx p).run s = some (power, t) := by
  induction n generalizing s p W with
  | zero =>
    obtain ⟨-, hnext, hend⟩ | ⟨k, hk, -⟩ := hat.next
    · obtain ⟨base, hbase, hrun⟩ := unary_tower ctx hat.token hdepth (.inl hnext)
      have hbinds : p.binds (s.consume .plain).token = false := by
        rw [hnext]
        rfl
      refine ⟨base, s.consume .plain, fun j => ⟨[], base, rfl⟩, hnext, hend, .inl hbase, ?_⟩
      refine run_bind.mpr ⟨_, s, rfl, run_bind.mpr ⟨base, _, (below_run ?_).trans hrun, ?_⟩⟩
      · change s.left * 8 + 2 < W
        omega
      · exact @operators_done (below W top.recur) _ _ _ _ _ _ (by simp [hnext]) hbinds
    · cases hk
  | succ n ih =>
    obtain ⟨hn, -⟩ | ⟨k, hk, htoken, hright⟩ := hat.next
    · cases hn
    obtain rfl := Nat.succ.inj hk
    obtain ⟨base, hbase, hrun⟩ := unary_tower ctx hat.token hdepth (.inr htoken)
    have hlt : (s.consume .plain).left < s.left := consume_left_lt .plain (by simp [hat.token])
    have hlt' : ((s.consume .plain).consume .plain).left < (s.consume .plain).left :=
      consume_left_lt .plain (by simp [htoken])
    obtain ⟨power, t, hleans, hsemicolon, hend, -, hpower⟩ :=
      ih (s := (s.consume .plain).consume .plain) (p := .exponentiation) hdepth hright rfl
        (Nat.le_refl _)
    have hrecur : ((below W top.recur).recur (.operand ctx .exponentiation)).run
        ((s.consume .plain).consume .plain) = some (power, t) := by
      refine (below_run ?_).trans ((top_run _ _).trans hpower)
      change _ * 8 + 3 < W
      omega
    let whole : Node := .mk (t.header s.mark) (.binary base .asteriskAsteriskToken power)
    refine ⟨whole, t, hleans.right _ _ _, hsemicolon, hend, .inr ⟨_, _, _, rfl⟩, ?_⟩
    have hm := Parse.moves _ hrecur
    have htready : t.Ready := hm.ready inferInstance
    have hmoved : (s.consume .plain).start.offset < t.start.offset := by
      have hmoves : Moves (s.consume .plain) t := .cons (.consume .plain _) hm
      have hle := hm.left_le inferInstance
      exact (hmoves.offset_lt_iff inferInstance).mpr (by omega)
    refine run_bind.mpr ⟨_, s, rfl, run_bind.mpr ⟨base, _, (below_run ?_).trans hrun, ?_⟩⟩
    · change s.left * 8 + 2 < W
      omega
    have hturn : (@operation (below W top.recur) ctx p s.mark base).run (s.consume .plain) =
        some (.again whole, t) := by
      refine run_bind.mpr ⟨(), _, reread_greaterThan_run (by simp [htoken]), ?_⟩
      refine run_bind.mpr ⟨(s.consume .plain).token, _, rfl, ?_⟩
      rw [htoken, hp]
      exact run_bind.mpr ⟨(), _, rfl, run_bind.mpr ⟨power, t, hrecur, rfl⟩⟩
    refine loop_of_looped (.again hturn hmoved (.done ?_))
    refine run_bind.mpr ⟨(), t, reread_greaterThan_run (by simp [hsemicolon]), ?_⟩
    refine run_bind.mpr ⟨t.token, t, rfl, ?_⟩
    rw [hsemicolon]
    rfl

variable (ctx) in
/-- A tower of powers as the only statement of a text. -/
theorem item_tower (inModule : Bool) [hs : s.Ready] (hdepth : s.depth + 3 < nestingLimit)
    (hat : s.AtName (towerTail n)) :
    ∃ (power : Node) (t : ParseState) (header : Header), power.Leans n ∧ power.IsPlainOperand ∧
      t.token = .endOfFileToken ∧ (top.recur (.item inModule ctx)).run s =
        some (.mk header (.expressionStatement power), t) := by
  obtain ⟨power, t, hleans, hsemicolon, hend, hpower, hoperand⟩ :=
    operand_tower (s := s.deeper.deeper.deeper) (p := .comma) (W := s.left * 8 + 4) ctx
      hdepth ⟨hat.token, hat.rest⟩ rfl (Nat.le_succ _)
  obtain ⟨header, hitem⟩ := item_of_operand inModule (.inl hat.token) (Nat.lt_of_succ_lt hdepth)
    hsemicolon hpower.not_arrowParameters hoperand
  refine ⟨power, _, header, hleans, hpower, ?_, hitem⟩
  exact (consume_next (s := t.shallower) _ _ hend (fun _ => rfl) rfl).1

end Tower

/-- No number bounds the steps into right operands: those of powers are read without a new level,
so a tower of powers is as high as its text is long. -/
theorem rights_unbounded : ¬ ∃ bound, ∀ (source : String) (options : ParseOptions) (k : Nat)
    (n : Node), (parse source options).root.Walk (Node.rightStep fun _ => true) 0 k n →
      k ≤ bound := by
  rintro ⟨bound, h⟩
  have hat : (ParseState.firstToken (towerText (bound + 1)).toList).AtName
      (towerTail (bound + 1)) := by
    rw [towerText, String.toList_ofList]
    exact firstToken_tower _
  obtain ⟨power, t, header, hleans, hpower, hend, hrun⟩ :=
    item_tower (.ofOptions {}) (Context.ofOptions {}).isModule (show 0 + 3 < 500 by decide) hat
  obtain ⟨path, last, hpath⟩ := hleans 0
  have hparse := parse_of_item (by rw [hat.token]; rfl) hend (hpower.no_directive _) hrun
  have hwalk : (parse (towerText (bound + 1)) {}).root.Walk (Node.rightStep fun _ => true) 0
      (0 + (bound + 1)) last := by
    rw [hparse]
    exact Node.Walk.root.follow (show Node.follow _ 0 _
      (("statements", 0) :: ("expression", 0) :: path) = _ from hpath)
  have := h _ _ _ _ hwalk
  omega

end EcmaSyntax
