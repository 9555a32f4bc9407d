import EcmaSyntax.Proofs.Extents
import EcmaSyntax.Proofs.LineBreaks
import EcmaSyntax.Proofs.Token.Trivia

/-! # What stands between statements

The statements of a clean source follow each other with nothing but trivia in between, behind a line
that names an interpreter, if there is one. Every routine that a declaration begins with hands the
place where the declaration begins on, except for one: behind `declare` a word that begins no
declaration begins a plain statement, and that statement begins at the word. -/
namespace EcmaSyntax
open Parse Grammar ParseState

/-! ## Statements -/

section Routines
variable [Recursion] {r s : ParseState} {m keyword : Mark} {ctx : Context}

theorem functionDeclaration_framed (hm : m.start = r.start) :
    (functionDeclaration ctx m).Gives s (Framed r) :=
  .behind fun _ _ _ => .behind fun _ _ _ => .behind fun _ _ _ => .behind fun _ _ _ =>
    .behind fun _ _ _ => .behind fun _ _ _ => .behind fun _ _ _ => .behind fun _ _ _ =>
      node_framed hm rfl

theorem classDeclaration_framed (hm : m.start = r.start) :
    (classLike .declaration ctx m).Gives s (Framed r) :=
  .behind fun _ _ _ => .behind fun _ _ _ => .behind fun _ _ _ => .behind fun _ _ _ =>
    .behind fun _ _ _ => .behind fun _ _ _ => .behind fun _ _ _ => node_framed hm rfl

theorem variableStatement_framed {flags : NodeFlags} (hm : m.start = r.start) :
    (variableStatement ctx m keyword flags).Gives s (Framed r) :=
  .behind fun _ _ _ => .behind fun _ _ _ => node_framed hm rfl

theorem enumDeclaration_framed (hm : m.start = r.start) :
    (enumDeclaration ctx m).Gives s (Framed r) :=
  .behind fun _ _ _ => .behind fun _ _ _ => node_framed hm rfl

theorem interfaceDeclaration_framed (hm : m.start = r.start) :
    (interfaceDeclaration ctx m).Gives s (Framed r) :=
  .behind fun _ _ _ => .behind fun _ _ _ => .behind fun _ _ _ => .behind fun _ _ _ =>
    node_framed hm rfl

theorem typeAlias_framed (hm : m.start = r.start) : (typeAlias ctx m).Gives s (Framed r) :=
  .behind fun _ _ _ => .behind fun _ _ _ => .behind fun _ _ _ => .behind fun _ _ _ =>
    .behind fun _ _ _ => node_framed hm rfl

theorem constDeclaration_framed (hm : m.start = r.start) :
    (constDeclaration ctx m).Gives s (Framed r) :=
  .behind fun _ _ _ => .ite
    (fun _ => .behind fun _ _ _ => .behind fun _ _ _ => enumDeclaration_framed hm)
    fun _ => .look (.behind fun _ _ _ => variableStatement_framed hm)

omit [Recursion] in
theorem importDeclaration_framed (hm : m.start = r.start) :
    (importDeclaration ctx m).Gives s (Framed r) :=
  .behind fun _ _ _ => .behind fun _ _ _ => .behind fun _ _ _ => .behind fun _ _ _ =>
    node_framed hm rfl

omit [Recursion] in
theorem exportNames_framed {isTypeOnly : Bool} (hm : m.start = r.start) :
    (exportNames m isTypeOnly).Gives s (Framed r) :=
  .behind fun _ _ _ => .behind fun _ _ _ => .behind fun _ _ _ => node_framed hm rfl

theorem exportValue_framed {isEquals : Bool} (hm : m.start = r.start) :
    (exportValue ctx m isEquals).Gives s (Framed r) :=
  .behind fun _ _ _ => .behind fun _ _ _ => node_framed hm rfl

theorem exportDeclared_framed (hm : m.start = r.start) :
    (exportDeclared ctx m).Gives s (Framed r) :=
  .look (.behind fun _ _ _ => node_framed hm rfl)

theorem exportDeclaration_framed (hm : m.start = r.start) :
    (exportDeclaration ctx m).Gives s (Framed r) := by
  have hm : (m.withModifiers ModifierFlag.exported).start = r.start := hm
  refine .behind fun _ t _ => .look ?_
  split
  case h_1 =>
    refine .behind fun _ _ _ => .behind fun answer u _ => ?_
    cases answer with
    | some declaration => exact node_framed hm rfl
    | none => exact exportValue_framed hm
  case h_2 => exact .behind fun _ _ _ => exportValue_framed hm
  case h_3 =>
    exact .behind fun _ _ _ => .behind fun _ _ _ => .behind fun _ _ _ => .behind fun _ _ _ =>
      node_framed hm rfl
  case h_4 => exact exportNames_framed hm
  case h_5 =>
    exact .behind fun _ _ _ => .ite (fun _ => .behind fun _ _ _ => exportNames_framed hm)
      fun _ => exportDeclared_framed hm
  case h_6 => exact exportDeclared_framed hm

theorem block_framed : (block ctx).Gives s (Framed s) :=
  .look (.behind fun _ _ _ => node_framed rfl rfl)

theorem ifStatement_framed : (ifStatement ctx).Gives s (Framed s) :=
  .look <| .behind fun _ _ _ => .behind fun _ _ _ => .behind fun _ _ _ => .behind fun _ _ _ =>
    node_framed rfl rfl

theorem doStatement_framed : (doStatement ctx).Gives s (Framed s) :=
  .look <| .behind fun _ _ _ => .behind fun _ _ _ => .behind fun _ _ _ => .behind fun _ _ _ =>
    .behind fun _ _ _ => node_framed rfl rfl

theorem whileStatement_framed : (whileStatement ctx).Gives s (Framed s) :=
  .look <| .behind fun _ _ _ => .behind fun _ _ _ => .behind fun _ _ _ => node_framed rfl rfl

theorem forRest_framed {first : Option Node} (hm : m.start = r.start) :
    (forRest ctx m first).Gives s (Framed r) :=
  .behind fun _ _ _ => .behind fun _ _ _ => .behind fun _ _ _ => .behind fun _ _ _ =>
    .behind fun _ _ _ => .behind fun _ _ _ => node_framed hm rfl

theorem forEachRest_framed {sort : IterationSort} {isAwait : Bool} {first : Node}
    (hm : m.start = r.start) : (forEachRest ctx m sort isAwait first).Gives s (Framed r) :=
  .behind fun _ _ _ => .behind fun _ _ _ => .behind fun _ _ _ => node_framed hm rfl

theorem forLoop_framed : (forLoop ctx).Gives s (Framed s) := by
  refine .look <| .behind fun _ _ _ => .behind fun _ _ _ => .behind fun _ _ _ =>
    .behind fun first t _ => ?_
  cases first with
  | none => exact forRest_framed rfl
  | some first =>
    exact .behind fun _ _ _ => .ite (fun _ => forEachRest_framed rfl) fun _ =>
      .behind fun _ _ _ => .ite (fun _ => forEachRest_framed rfl) fun _ => forRest_framed rfl

omit [Recursion] in
theorem jump_framed {sort : JumpSort} : (jump ctx sort).Gives s (Framed s) :=
  .look <| .behind fun _ _ _ => .behind fun _ _ _ => .behind fun _ _ _ => node_framed rfl rfl

theorem returnStatement_framed : (returnStatement ctx).Gives s (Framed s) :=
  .look <| .behind fun _ _ _ => .behind fun _ _ _ => .behind fun _ _ _ => .behind fun _ _ _ =>
    node_framed rfl rfl

theorem withStatement_framed : (withStatement ctx).Gives s (Framed s) :=
  .look <| .behind fun _ _ _ => .behind fun _ _ _ => .behind fun _ _ _ => .behind fun _ _ _ =>
    node_framed rfl rfl

theorem switchStatement_framed : (switchStatement ctx).Gives s (Framed s) :=
  .look <| .behind fun _ _ _ => .behind fun _ _ _ => .behind fun _ _ _ => node_framed rfl rfl

theorem throwStatement_framed : (throwStatement ctx).Gives s (Framed s) :=
  .look <| .behind fun _ _ _ => .behind fun _ _ _ => .behind fun _ _ _ => node_framed rfl rfl

theorem tryStatement_framed : (tryStatement ctx).Gives s (Framed s) :=
  .look <| .behind fun _ _ _ => .behind fun _ _ _ => .behind fun _ _ _ => .behind fun _ _ _ =>
    .behind fun _ _ _ => node_framed rfl rfl

theorem functionStatement_framed {site : StatementSite} :
    (functionStatement ctx site).Gives s (Framed s) :=
  .look (.behind fun _ _ _ => functionDeclaration_framed rfl)

theorem expressionStatement_framed : (expressionStatement ctx).Gives s (Framed s) :=
  .look <| .behind fun _ _ _ => .behind fun _ _ _ => .look <| .ite
    (fun _ => .behind fun _ _ _ => .behind fun _ _ _ => node_framed rfl rfl)
    fun _ => .behind fun _ _ _ => .behind fun _ _ _ => .behind fun _ _ _ => node_framed rfl rfl

/-- A statement begins with the present token. -/
theorem statement_framed {site : StatementSite} : (statement ctx site).Gives s (Framed s) := by
  have hlook {p : Parse Node} (h : p.Gives s.flush (Framed s.flush)) :
      p.Gives s.flush (Framed s) := h.mono fun _ _ _ hn => hn.of_start rfl
  refine .look (.look ?_)
  split
  case h_1 => exact block_framed
  case h_2 => exact .look (.behind fun _ _ _ => node_framed rfl rfl)
  case h_3 => exact .behind fun _ _ _ => variableStatement_framed rfl
  case h_4 => exact ifStatement_framed
  case h_5 => exact doStatement_framed
  case h_6 => exact whileStatement_framed
  case h_7 => exact forLoop_framed
  case h_8 | h_9 => exact jump_framed
  case h_10 => exact returnStatement_framed
  case h_11 => exact withStatement_framed
  case h_12 => exact switchStatement_framed
  case h_13 => exact throwStatement_framed
  case h_14 | h_15 | h_16 => exact tryStatement_framed
  case h_17 => exact .look (.behind fun _ _ _ => .behind fun _ _ _ => node_framed rfl rfl)
  case h_18 => exact functionStatement_framed
  case h_19 =>
    refine Gives.lookAhead.bind fun _ t _ ht => ?_
    subst ht
    exact .ite (fun _ => hlook functionStatement_framed) fun _ => hlook expressionStatement_framed
  case h_20 => exact .behind fun _ _ _ => classDeclaration_framed rfl
  case h_21 =>
    refine Gives.advanceIf.bind fun b t _ ht =>
      .ite (fun _ => enumDeclaration_framed rfl) fun hb => ?_
    rcases ht with ⟨-, rfl⟩ | ⟨rfl, -⟩
    · exact hlook expressionStatement_framed
    · exact absurd rfl hb
  case h_22 => exact expressionStatement_framed

end Routines

/-! ## Declarations -/

/-- Words that may stand behind `declare` and yet begin no declaration. -/
def Kind.mayStandAlone : Kind → Bool
  | .asyncKeyword | .enumKeyword | .importKeyword | .interfaceKeyword | .letKeyword
  | .typeKeyword => true
  | _ => false

/-- Where nothing is reported, a node spans all from the present token to the last one consumed. -/
def Occupies (s : ParseState) (n : Node) (t : ParseState) : Prop :=
  t.Faulty ∨ n.range = ⟨s.start.offset, t.full.offset⟩

theorem Occupies.of_start {r s t : ParseState} {n : Node} (h : Occupies r n t)
    (hr : r.start = s.start) : Occupies s n t := h.imp_right fun h => hr ▸ h

/-- A node for which something has been consumed spans all of it. -/
theorem Framed.occupies {s t : ParseState} {n : Node} (h : Framed s n t) (hm : Moves s t)
    (hs : s.Ready) (hfruit : Fruitful s t) : Occupies s n t := by
  rcases h with hf | h
  · exact .inl hf
  rcases hfruit with hlt | hf
  · have hle := (hm.start_reaches_full hs hlt).offset_le hs.start_sound
    exact .inr (by rw [h.range_eq, Nat.max_eq_left hle])
  · exact .inl hf

/-- The present token is `declare`, and a plain statement begins with the word behind it. -/
structure ParseState.Declares (s : ParseState) (n : Node) (t : ParseState) : Prop where
  token_eq : s.token = .declareKeyword
  onLine : (s.consume .plain).OnLine
  next : (s.consume .plain).token.mayStandAlone = true
  occupies : Occupies (s.consume .plain) n t

/-- What is read of the rules that a declaration begins with. -/
structure RulesBegin [Recursion] : Prop where
  statement (ctx : Context) (s : ParseState) [s.Ready] :
    (recur (.statement ctx .plain)).Gives s (Framed s)
  declaration (ctx : Context) (m : Mark) (r s : ParseState) [s.Ready] (hm : m.start = r.start)
    (hs : s.token.canFollowDeclareOrAbstract = true) : (recur (.declaration ctx m)).Gives s
      fun n t => Framed r n t ∨ (s.token.mayStandAlone = true ∧ Occupies s n t)

section Declarations
variable [Recursion] {r s : ParseState} {m : Mark} {ctx : Context}

/-- A declaration begins at its mark, unless it is a plain statement or the word `declare` stands in
front of it. -/
theorem declaration_gives {Q : Node → ParseState → Prop} (hm : m.start = r.start)
    (hown : ∀ n t, Framed r n t → Q n t)
    (hplain : ∀ t, Moves s t → t.start = s.start →
      (s.token.canFollowDeclareOrAbstract = true → s.token.mayStandAlone = true) →
      (recur (.statement ctx .plain)).Gives t Q)
    (hdeclare : ∀ t m, s.token = .declareKeyword → t = s.flush.consume .plain → t.OnLine →
      t.token.canFollowDeclareOrAbstract = true → m.start = r.start →
      (recur (.declaration ctx m)).Gives t Q) : (declaration ctx m).Gives s Q := by
  have hframed {p : Parse Node} {t : ParseState} (h : p.Gives t (Framed r)) : p.Gives t Q :=
    h.mono fun n t _ => hown n t
  have halone {k : Kind} (ht : s.token = k) (hk : k.mayStandAlone = true) :
      (plainStatement ctx).Gives s.flush Q :=
    hplain _ (.single (.flush s)) rfl fun _ => ht ▸ hk
  have hword {k : Kind} (ht : s.token = k) (hk : k.mayStandAlone = true) {p : Parse Node}
      {g : ParseState → Bool} (h : ∀ t, p.Gives t (Framed r)) :
      (Parse.advanceIf (Parse.observe g) >>= fun b => if b then p else plainStatement ctx).Gives s Q :=
    Gives.advanceIf.bind fun b t _ hb => by
      rcases hb with ⟨rfl, rfl⟩ | ⟨rfl, -⟩
      · exact halone ht hk
      · exact hframed (h t)
  refine .look ?_
  split
  case h_1 => exact hframed (functionDeclaration_framed hm)
  case h_2 ht =>
    refine Gives.lookAhead.bind fun _ t _ h => ?_
    subst h
    exact .ite (fun _ => hframed (functionDeclaration_framed hm)) fun _ => halone ht rfl
  case h_3 | h_4 => exact hframed (classDeclaration_framed hm)
  case h_5 => exact hframed (constDeclaration_framed hm)
  case h_6 ht => exact .look (hword ht rfl fun _ => variableStatement_framed hm)
  case h_7 => exact hframed (.look (.behind fun _ _ _ => variableStatement_framed hm))
  case h_8 ht => exact hword ht rfl fun _ => interfaceDeclaration_framed hm
  case h_9 ht => exact hword ht rfl fun _ => enumDeclaration_framed hm
  case h_10 ht => exact hword ht rfl fun _ => typeAlias_framed hm
  case h_11 ht =>
    refine .look (Gives.advanceIf.bind fun b t _ hb => ?_)
    rcases hb with ⟨rfl, rfl⟩ | ⟨rfl, -⟩
    · exact hplain _ (.single (.flush s)) rfl fun h => by rw [ht] at h; cases h
    refine .look (.ite (fun _ => hframed (classDeclaration_framed hm)) fun _ => ?_)
    have hreport {span : Span} : (reportAt span .misplacedAbstract).Gives t fun _ u => u.Faulty :=
      .of_reads (reportAt_reads.mono fun _ _ h => h.faulty)
    refine hreport.bind fun _ u _ hf n v hrun => hown n v (.inl ?_)
    exact ((recur (.declaration ctx _)).moves hrun).faulty hf
  case h_12 ht =>
    refine Gives.advanceIf.bind fun b t _ hb => ?_
    rcases hb with ⟨rfl, rfl⟩ | ⟨rfl, rfl, hnext⟩
    · exact hplain _ (.single (.flush s)) rfl fun h => by rw [ht] at h; cases h
    · obtain ⟨hline, hnext⟩ := Bool.and_eq_true_iff.mp hnext
      exact hdeclare _ _ ht rfl (Bool.not_inj hline) hnext hm
  case h_13 ht =>
    refine Gives.lookAhead.bind fun _ t _ h => ?_
    subst h
    exact .ite (fun _ => .behind fun _ _ _ => hframed (importDeclaration_framed hm))
      fun _ => halone ht rfl
  case h_14 => exact .behind fun _ _ _ => hframed (exportDeclaration_framed hm)
  case h_15 =>
    refine hplain s (.refl s) rfl fun h => ?_
    unfold Kind.canFollowDeclareOrAbstract at h
    split at h <;> contradiction

variable [s.Ready]

/-- A declaration that is none behind `declare` begins at its mark or is a plain statement. -/
theorem declaration_framed
    (h : ∀ (t : ParseState) [t.Ready], (recur (.statement ctx .plain)).Gives t (Occupies t)) (hm : m.start = r.start)
    (hs : s.token.canFollowDeclareOrAbstract = true) : (declaration ctx m).Gives s
      fun n t => Framed r n t ∨ (s.token.mayStandAlone = true ∧ Occupies s n t) := by
  refine declaration_gives hm (fun _ _ => .inl) (fun t hmt hstart halone => ?_)
    fun t m' ht => by rw [ht] at hs; cases hs
  have := hmt.ready ‹s.Ready›
  exact (h t).mono fun _ _ _ hn => .inr ⟨halone hs, hn.of_start hstart⟩

theorem declaration_begins (h : RulesBegin) (hm : m.start = s.start) :
    (declaration ctx m).Gives s fun n t => Framed s n t ∨ s.Declares n t := by
  refine declaration_gives hm (fun _ _ => .inl) (fun t hmt hstart _ => ?_)
    fun t m' ht heq hline hnext hm' => ?_
  · have := hmt.ready ‹s.Ready›
    exact (h.statement ctx t).mono fun _ _ _ hn => .inl (hn.of_start hstart)
  · subst heq
    have hmoves : Moves s (s.flush.consume .plain) :=
      .cons (.flush s) (.single (.consume .plain s.flush))
    have := hmoves.ready ‹s.Ready›
    refine (h.declaration ctx m' s _ hm' hnext).mono fun n t _ hn => ?_
    exact hn.imp_right fun hn => ⟨ht, hline, hn.1, hn.2⟩

/-- An item begins with the present token, or with the word behind `declare`. -/
theorem item_begins {inModule : Bool} (h : RulesBegin) :
    (item inModule ctx).Gives s fun n t => Framed s n t ∨ s.Declares n t := by
  have hframed {p : Parse Node} {t : ParseState} (hp : p.Gives t (Framed s)) :
      p.Gives t fun n u => Framed s n u ∨ s.Declares n u := hp.mono fun _ _ _ => .inl
  refine .ite (fun _ => .look (.look (.ite (fun _ => ?_) fun _ => ?_))) fun _ => .look ?_
  · exact hframed (exportDeclaration_framed rfl)
  · refine Gives.bind (Q := fun _ t => t = s ∨ t = s.flush) ?_ fun b t hmt ht =>
      .ite (fun _ => hframed (importDeclaration_framed rfl)) fun _ => ?_
    · refine .look ?_
      cases s.token == .importKeyword with
      | true => exact Gives.lookAhead.mono fun _ _ _ => .inr
      | false => exact .pure (.inl rfl)
    · rcases ht with rfl | rfl
      · exact declaration_begins h rfl
      · have := hmt.ready ‹s.Ready›
        refine (declaration_begins (s := s.flush) h rfl).mono fun _ _ _ hn => ?_
        exact hn.imp (fun hn => hn.of_start rfl)
          fun hn => ⟨hn.token_eq, hn.onLine, hn.next, hn.occupies⟩
  · exact declaration_begins h rfl

end Declarations

/-! ## Rules -/

section Rules
variable {s t : ParseState} {ctx : Context}

theorem statement_rule_framed [s.Ready] {site : StatementSite} :
    (top.recur (.statement ctx site)).Gives s (Framed s) :=
  top_gives rfl (fun _ _ => .inl) fun W =>
    (@statement_framed (below W top.recur) _ _ _).mono fun _ _ _ hn => hn.shallower

theorem statement_rule_occupies [hs : s.Ready] {site : StatementSite} :
    (top.recur (.statement ctx site)).Gives s (Occupies s) := by
  intro n t hrun
  have := top_lawful (s.left * 8 + 6)
  have hbuilt := (@statement_rule top _ _ s _ ctx site (Nat.le_refl _)).of_run hrun
  exact (statement_rule_framed hrun).occupies hbuilt.moves hs hbuilt.fruits

theorem declaration_rule_framed [s.Ready] {r : ParseState} {m : Mark} (hm : m.start = r.start)
    (hs : s.token.canFollowDeclareOrAbstract = true) : (top.recur (.declaration ctx m)).Gives s
      fun n t => Framed r n t ∨ (s.token.mayStandAlone = true ∧ Occupies s n t) := by
  intro n t hrun
  rw [top_run] at hrun
  let _ := below (Rule.weight (.declaration ctx m) s) top.recur
  have hgives : (readHere (.declaration ctx m)).Gives s
      fun n t => Framed r n t ∨ (s.token.mayStandAlone = true ∧ Occupies s n t) :=
    declaration_framed
      (fun t _ n u hrun => statement_rule_occupies (below_run_eq_some.mp hrun).2) hm hs
  exact hgives hrun

theorem rulesBegin (W : Nat) : @RulesBegin (below W top.recur) := by
  let _ := below W top.recur
  refine ⟨fun ctx s _ n t hrun => ?_, fun ctx m r s _ hm hs n t hrun => ?_⟩
  · have hrun := (below_run_eq_some.mp hrun).2
    exact statement_rule_framed hrun
  · exact declaration_rule_framed hm hs (below_run_eq_some.mp hrun).2

/-- An item spans all that is consumed for it, but for the word `declare` in front of a plain
statement. -/
theorem item_rule_occupies [hs : s.Ready] {inModule : Bool} :
    (top.recur (.item inModule ctx)).Gives s fun n t => Occupies s n t ∨ s.Declares n t := by
  intro n t hrun
  have := top_lawful (s.left * 8 + 8)
  have hbuilt := (@item_rule top _ _ s _ ctx inModule (Nat.le_refl _)).of_run hrun
  have hbegins : (top.recur (.item inModule ctx)).Gives s
      fun n t => Framed s n t ∨ s.Declares n t := by
    refine top_gives rfl (fun _ _ hf => .inl (.inl hf)) fun W => ?_
    let _ := below W top.recur
    refine (item_begins (rulesBegin W)).mono fun n t _ hn => ?_
    exact hn.imp Framed.shallower
      fun hn => ⟨hn.token_eq, hn.onLine, hn.next, hn.occupies⟩
  exact (hbegins hrun).imp_left fun hn => hn.occupies hbuilt.moves hs hbuilt.fruits

end Rules

/-! ## Sources -/

/-- What stands in front of a statement: trivia, and in front of a plain statement, perhaps the word
`declare` on its line. -/
inductive Lead (source : String) (pos stop : Nat) : Prop
  | trivia (h : Trivia.Between source pos stop)
  | declare {c d e : Cursor} {k : Kind} (hc : (Cursor.start source.toList).Reaches c)
    (hfront : Trivia.Between source pos c.offset) (hword : c.Writes .declareKeyword d)
    (hline : d.SameLine) (hbehind : Trivia.Between source d.offset stop)
    (hstop : d.ahead.offset = stop) (hnext : d.ahead.Writes k e) (hk : k.mayStandAlone = true)

/-- Nodes one behind the other, from one offset to another one, with nothing between them but what
may stand in front of a statement. -/
inductive Filled (source : String) : Nat → List Node → Nat → Prop
  | nil {pos : Nat} : Filled source pos [] pos
  | cons {n : Node} {ns : List Node} {pos stop : Nat} (hlead : Lead source pos n.range.pos)
    (htail : Filled source n.range.stop ns stop) : Filled source pos (n :: ns) stop

theorem Filled.push {source : String} {pos stop : Nat} {ns : List Node} {n : Node}
    (h : Filled source pos ns stop) (hlead : Lead source stop n.range.pos) :
    Filled source pos (ns ++ [n]) n.range.stop := by
  induction h with
  | nil => exact .cons hlead .nil
  | cons hfront _ ih => exact .cons hfront (ih hlead)

/-- The place behind a first line that names an interpreter, or the start of the source. -/
def BehindShebang (source : String) (pos : Nat) : Prop :=
  pos = 0 ∨ ∃ line rest, source.toList = '#' :: '!' :: (line ++ rest) ∧ Trivia.InLine line ∧
    Trivia.EndsLine rest ∧ pos = (String.ofList ('#' :: '!' :: line)).utf8ByteSize

section Sources
variable {source : String} {s t : ParseState} {n : Node}

theorem Kind.text_of_mayStandAlone {k : Kind} (h : k.mayStandAlone = true) :
    k.text.isSome = true := by
  unfold mayStandAlone at h
  split at h <;> first | rfl | cases h

/-- A statement that has been read follows what may stand in front of it. -/
theorem Filled.read {pos : Nat} {ns : List Node} (h : Filled source pos ns s.full.offset)
    (hs : s.Seated source) (hn : Occupies s n t ∨ s.Declares n t) :
    t.Faulty ∨ Filled source pos (ns ++ [n]) t.full.offset := by
  rcases hn with (hf | hrange) | ⟨ht, hline, hk, hf | hrange⟩
  · exact .inl hf
  · have hstop : n.range.stop = t.full.offset := congrArg Range.stop hrange
    refine .inr (hstop ▸ h.push (.trivia ?_))
    rw [hrange]
    exact hs.spaced.between hs.placed
  · exact .inl hf
  · have hu := hs.consume
    have hstart := hs.consume_start
    have hstop : n.range.stop = t.full.offset := congrArg Range.stop hrange
    have hpos : n.range.pos = (s.consume .plain).start.offset := congrArg Range.pos hrange
    have hbehind : Trivia.Between source s.scanner.stop.offset (s.consume .plain).start.offset :=
      hs.consume_full .plain ▸ hu.spaced.between hu.placed
    have hnext := hu.writes (Kind.text_of_mayStandAlone hk)
    rw [hstart] at hnext
    refine .inr (hstop ▸ h.push ?_)
    rw [hpos]
    exact .declare hs.reaches_start (hs.spaced.between hs.placed) (ht ▸ hs.writes (ht ▸ rfl))
      (hs.consume_sameLine hline) hbehind (congrArg Cursor.offset hstart).symm hnext hk

/-- The statements so far leave nothing out, or something has been reported. -/
def Grammar.Body.FillsTo (source : String) (pos : Nat) (b : Body) (t : ParseState) : Prop :=
  t.Faulty ∨ Filled source pos b.statements.toList t.full.offset

/-- An item that has been read consumes something and leaves nothing out in front of it. -/
theorem Grammar.Body.FillsTo.item {inModule : Bool} {pos : Nat} {b : Body} {ctx : Context}
    (hs : s.Seated source) (hb : b.FillsTo source pos s)
    (hrun : (top.recur (.item inModule ctx)).run s = some (n, t)) :
    t.Faulty ∨ (t.left < s.left ∧ (b.push n).FillsTo source pos t) := by
  have := hs.ready
  have := top_lawful (s.left * 8 + 8)
  have hbuilt := (@item_rule top _ _ s _ ctx inModule (Nat.le_refl _)).of_run hrun
  rcases hb with hf | hb
  · exact .inl (hbuilt.moves.faulty hf)
  rcases hbuilt.fruits with hlt | hf
  · refine .inr ⟨hlt, ?_⟩
    rw [Body.FillsTo, Body.statements_push, Array.toList_push]
    exact hb.read hs (item_rule_occupies hrun)
  · exact .inl hf

theorem bodyTurn_fills {inModule : Bool} {pos : Nat} {b : Body} (hs : s.Seated source)
    (hb : b.FillsTo source pos s) :
    (@bodyTurn top inModule (fun _ => false) b).Gives s
      (TurnGives (Body.FillsTo source pos) fun b t =>
        b.FillsTo source pos t ∧ t.token = .endOfFileToken) := by
  let := top
  have := hs.ready
  refine .look (.ite (fun hend => .pure ⟨hb, ?_⟩) fun _ => .ite (fun _ => .look ?_) fun _ => ?_)
  · exact eq_of_beq ((Bool.or_false _).symm.trans hend)
  · refine Gives.bind (fun _ _ => hb.item hs) fun n t hmt ht => ?_
    refine (Gives.of_reads Body.check_reads).bind fun _ u hmu hstill => ?_
    rcases ht with hf | ⟨hlt, hfills⟩
    · exact .behind fun _ v hmv => .pure (.inl (hmv.faulty (hmu.faulty hf)))
    · have hmoved : s.start.offset < u.start.offset :=
        ((hmt.trans hmu).offset_lt_iff hs.ready).mpr (hstill.left_eq ▸ hlt)
      have hstay : (ifUnmoved s.start.offset (skip .expression)).Gives u fun _ v => v = u :=
        .look (.ite (fun heq => absurd (eq_of_beq heq) (Nat.ne_of_gt hmoved)) fun _ => .pure rfl)
      refine hstay.bind fun _ v _ hv => .pure ?_
      exact hv ▸ hfills.imp hmu.faulty fun h => hstill.full_eq ▸ h
  · exact reportHere_faulty.bind fun _ t _ hf => .behind fun _ u hm => .pure (.inl (hm.faulty hf))

/-- Nothing but trivia stands between the last token and the end of the source. -/
theorem ParseState.Seated.between_end (hs : s.Seated source) (ht : s.token = .endOfFileToken) :
    Trivia.Between source s.full.offset source.utf8ByteSize := by
  have hrest : s.start.rest = [] :=
    (Cursor.left_eq_zero hs.ready.start_sound).mp (hs.ready.ended_iff.mp ht)
  have htotal := hs.reaches_start.total_eq
  rw [Cursor.total, hrest, List.map_nil, List.sum_nil, Nat.add_zero] at htotal
  have hsize : s.start.offset = source.utf8ByteSize := by
    rw [htotal, utf8ByteSize_eq]
    exact Nat.zero_add _
  exact hsize ▸ hs.spaced.between hs.placed

theorem sourceStatements_fill {ctx : Context} (hs : s.Seated source) :
    (sourceStatements ctx).Gives s fun statements t => t.Faulty ∨
      (Filled source s.full.offset statements t.full.offset ∧
        Trivia.Between source t.full.offset source.utf8ByteSize) := by
  have hloop : (loop (@bodyTurn top ctx.isModule fun _ => false) ⟨ctx, true, #[]⟩).Gives s
      fun b t => b.FillsTo source s.full.offset t ∧ t.token = .endOfFileToken :=
    .loop (I := Body.FillsTo source s.full.offset) (.inr .nil)
      fun _ _ hm hb => bodyTurn_fills (hs.moves hm) hb
  refine hloop.bind fun b t hm hb => .pure (hb.1.imp_right fun h => ⟨h, ?_⟩)
  exact (hs.moves hm).between_end hb.2

/-- Where the trivia in front of the first token begin. -/
theorem firstToken_behindShebang (source : String) :
    BehindShebang source (ParseState.firstToken source.toList).full.offset := by
  have hsound := Cursor.start_sound source.toList
  have hfull : (ParseState.firstToken source.toList).full =
      (Scanner.ofText source.toList).skipShebang.stop :=
    (Scanner.advance_movedOn (s := (ParseState.ofText source.toList).flush.scanner) .expression
      ((Scanner.skipShebang_reaches source.toList).sound hsound)).full_eq
  rw [hfull, Scanner.skipShebang]
  split
  case h_1 rest hrest =>
    have hrest : source.toList = '#' :: '!' :: rest := hrest
    refine .inr ⟨rest.takeWhile (!Text.isLineTerminator ·), rest.dropWhile (!Text.isLineTerminator ·),
      ?_, ?_, ?_, ?_⟩
    · rw [List.takeWhile_append_dropWhile, hrest]
    · intro c hc
      have hbody := List.mem_takeWhile_imp hc
      exact Bool.not_inj hbody
    · intro c hc
      have hhead := List.head?_dropWhile_not (!Text.isLineTerminator ·) rest
      rw [Option.mem_def.mp hc] at hhead
      exact Bool.not_inj hhead
    · change ((Cursor.start source.toList).skip (2 + Trivia.lineSize rest)).offset = _
      rw [((Cursor.Reaches.skip _ _).passes hsound).2, Cursor.textTo_skip _ hsound]
      change 0 + (String.ofList (source.toList.take _)).utf8ByteSize = _
      rw [hrest, Nat.zero_add, Nat.add_comm 2, List.take_succ_cons, List.take_succ_cons,
        Trivia.lineSize, ← List.prefix_iff_eq_take.mp (List.takeWhile_prefix _)]
  case h_2 => exact .inl rfl

/-- In a clean source nothing but trivia stands in front of the first statement, between two of them
and behind the last one, apart from a first line that names an interpreter, and from the word
`declare` in front of a statement that begins with a word on its line, but is no declaration. -/
theorem parse_fills (source : String) (options : ParseOptions)
    (hclean : (parse source options).diagnostics = ∅) :
    ∃ pos stop, BehindShebang source pos ∧
      Filled source pos (parse source options).root.children stop ∧
        Trivia.Between source stop source.utf8ByteSize := by
  obtain ⟨statements, t, hrun, -, -⟩ := Grammar.source_reads (.ofOptions options) source.toList
  have hparse : parse source options =
      ⟨.mk (rootHeader source t.sink) (.sourceBody options.goal statements), t.sink⟩ := by
    rw [parse, show run source options = some (statements, t) from hrun]
  have hsource : (Grammar.source (.ofOptions options)).Gives (.ofText source.toList)
      fun statements t => t.Faulty ∨
        (Filled source (ParseState.firstToken source.toList).full.offset statements t.full.offset ∧
          Trivia.Between source t.full.offset source.utf8ByteSize) := by
    refine Gives.bind (Q := fun _ t => t = .firstToken source.toList)
      (fun _ _ hrun => by cases hrun; rfl) fun _ t _ ht => ?_
    subst ht
    refine (sourceStatements_fill (firstToken_seated source)).bind fun statements t hm ht => ?_
    refine Gives.bind (Q := fun _ u => u = t.flush) (fun _ _ hrun => by cases hrun; rfl)
      fun _ u hmu hu => .pure ?_
    subst hu
    exact ht.imp_left hmu.faulty
  rw [hparse] at hclean ⊢
  obtain ⟨hfills, hend⟩ := (hsource hrun).resolve_left (not_faulty hclean)
  have hchildren : (Node.mk (rootHeader source t.sink)
      (.sourceBody options.goal statements)).children = statements := List.append_nil statements
  exact ⟨_, _, firstToken_behindShebang source, hchildren.symm ▸ hfills, hend⟩

/-- A clean source with a first line that names an interpreter, and with all kinds of statements
behind `declare`. -/
theorem declared_words_fill :
    let r := parse "#!a\ndeclare type; declare let b; let c // d" {}
    r.diagnostics = ∅ ∧ r.root.children.length = 3 ∧ ∃ pos stop,
      BehindShebang "#!a\ndeclare type; declare let b; let c // d" pos ∧
        Filled "#!a\ndeclare type; declare let b; let c // d" pos r.root.children stop ∧
          Trivia.Between "#!a\ndeclare type; declare let b; let c // d" stop
            "#!a\ndeclare type; declare let b; let c // d".utf8ByteSize := by
  intro r
  have hclean : r.diagnostics = ∅ := by decide +kernel
  exact ⟨hclean, by decide +kernel, parse_fills _ _ hclean⟩

/-- No trivia stand where a source begins with a token. -/
theorem Trivia.Between.eq_zero {c : Char} {text : List Char} {stop : Nat}
    (h : Trivia.Between source 0 stop) (htext : source.toList = c :: text)
    (hblank : Text.isBlank c = false) (hline : Text.isLineTerminator c = false)
    (hc : c ∉ '/' :: Trivia.markers) : stop = 0 := by
  obtain ⟨before, trivia, rest, hsource, hzero, rfl, hpieces⟩ := h
  have hbefore : before = [] := by
    have hempty := String.utf8ByteSize_eq_zero_iff.mp hzero.symm
    rw [← String.toList_ofList (l := before), hempty]
    rfl
  subst hbefore
  cases hpieces with
  | none => rfl
  | @cons _ piece trivia _ h _ =>
    rw [htext, List.nil_append, List.append_assoc] at hsource
    generalize trivia ++ rest = tail at h hsource
    cases h with
    | blank h =>
      cases hsource
      cases hblank.symm.trans h
    | lineTerminator h =>
      cases hsource
      cases hline.symm.trans h
    | lineComment | blockComment | unclosedComment =>
      cases hsource
      exact absurd List.mem_cons_self hc
    | conflictMarker hmarker =>
      cases hsource
      exact absurd (List.mem_cons_of_mem _ hmarker) hc

/-- The word `declare` stands in no statement, although the source is clean. -/
theorem declare_outside :
    (parse "declare type;" {}).diagnostics = ∅ ∧
      (parse "declare type;" {}).root.children.map (·.range) = [⟨8, 13⟩] ∧
        ¬ Trivia.Between "declare type;" 0 8 := by
  refine ⟨by decide +kernel, by decide +kernel, fun h => ?_⟩
  cases h.eq_zero (c := 'd') rfl rfl rfl (by decide)

end Sources
end EcmaSyntax
