import EcmaSyntax.Proofs.Grammar.Production
import EcmaSyntax.Proofs.Parse.Ready

/-! # Lines

A semicolon may be left out before a line break, and some tokens have to stand on the line of the
token before them. What a parse has found of this while it read a node is told by the states that it
came through. -/
namespace EcmaSyntax
open ParseState

def JumpSort.keyword : JumpSort → Kind
  | leave => .breakKeyword
  | resume => .continueKeyword

/-! ## Forms -/

namespace Form
variable {α : Type}

/-- Whether a form ends with a semicolon, which may be left out. -/
def takesSemicolon : Form α → Bool
  | .variableStatement .. | .expressionStatement .. | .returnStatement .. | .throwStatement ..
  | .jump .. | .debuggerStatement | .typeAlias .. | .importDeclaration .. | .exportAssignment ..
  | .propertyDefinition .. => true
  | .exportDeclaration _ _ _ declaration => declaration.isNone
  | _ => false

/-- The word that a form begins with, if the next token has to stand on its line, and the child that
begins with that token. Behind `yield` an asterisk may come first. -/
def boundWord? : Form α → Option (Kind × Option α)
  | .returnStatement (some e) => some (.returnKeyword, some e)
  | .throwStatement e => some (.throwKeyword, some e)
  | .jump sort (some label) => some (sort.keyword, some label)
  | .yield delegate (some e) => some (.yieldKeyword, if delegate then none else some e)
  | .arrowFunction true _ _ => some (.asyncKeyword, none)
  | _ => none

/-- The child whose end is followed by a token that has to stand on its line, and that token. -/
def boundTail? : Form α → Option (α × Kind)
  | .postfixUnary e operator => some (e, operator)
  | .nonNull e => some (e, .exclamationToken)
  | .typeAssertion sort e _ => some (e, sort.operator)
  | .arrowFunction _ parameters _ => some (parameters, .equalsGreaterThanToken)
  | _ => none

/-- The token that makes a generator. -/
def generatorMark (isGenerator : Bool) : List Kind :=
  if isGenerator then [.asteriskToken] else []

/-- The token before type parameters, where they follow the word `function`. -/
def typeParametersMark (name : Option α) (typeParameters : Option (List α)) : List Kind :=
  if name.isNone && typeParameters.isSome then [.lessThanToken] else []

/-- The tokens behind the word `async` of a function or method, up to the first child, if that
child begins there. The first of them has to stand on the line of the word. -/
def asyncHead? : Form α → Option (List Kind × Option α)
  | .function _ name true isGenerator typeParameters parameters _ _ =>
    some (.functionKeyword :: generatorMark isGenerator ++ typeParametersMark name typeParameters,
      name <|> if typeParameters.isSome then none else some parameters)
  | .method .method _ name _ true isGenerator _ _ _ _ =>
    some (generatorMark isGenerator, some name)
  | _ => none

/-- Whether no line break matters in a form, but perhaps at its end. -/
def isUnbound (form : Form α) : Bool :=
  form.boundWord?.isNone && form.boundTail?.isNone && form.asyncHead?.isNone

/-- Whether no line break matters in a form. -/
def isFree (form : Form α) : Bool := !form.takesSemicolon && form.isUnbound

end Form

/-! ## States -/

namespace ParseState

/-- No line break precedes the present token. -/
def OnLine (s : ParseState) : Prop := s.reading.hasPrecedingLineBreak = false

/-- A statement may end before the present token without a semicolon. -/
def MayEnd (s : ParseState) : Prop :=
  s.token = .closeBraceToken ∨ s.token = .endOfFileToken ∨ s.reading.hasPrecedingLineBreak = true

/-- A statement that was read between two states, and not for nothing, has its semicolon, or may
lack it. -/
structure Ended (s t : ParseState) : Prop where
  consumed : t.left < s.left
  semicolon : t.MayEnd ∨ ∃ u, Moves s u ∧ u.token = .semicolonToken ∧ t = u.consume .plain

/-- Tokens of the given kinds follow each other on the way from a state, between the start of the
first of them and the start of the token behind the last. -/
inductive Passes (s : ParseState) : Nat → List Kind → Nat → Prop
  | nil (pos : Nat) : Passes s pos [] pos
  | cons {u : ParseState} {ks : List Kind} {stop : Nat} : Moves s u →
      Passes s (u.consume .plain).start.offset ks stop →
      Passes s u.start.offset (u.token :: ks) stop

/-- A token of a kind on the way from a state, and behind it, on the same line, another token. -/
def Joins (s : ParseState) (pos : Nat) (k : Kind) (next : Nat) : Prop :=
  ∃ u, Moves s u ∧ u.token = k ∧ u.start.offset = pos ∧ (u.consume .plain).OnLine ∧
    (u.consume .plain).start.offset = next

/-- The word `async` on the way from a state, and behind it, from its line on, tokens of the given
kinds up to an offset. -/
def AsyncUpTo (s : ParseState) (ks : List Kind) (stop : Nat) : Prop :=
  ∃ pos next, s.Joins pos .asyncKeyword next ∧ s.Passes next ks stop

/-- A token of a kind on the way from a state, on the line on which the one before it ended. -/
def Trails (s : ParseState) (stop : Nat) (k : Kind) : Prop :=
  ∃ u, Moves s u ∧ u.token = k ∧ u.full.offset = stop ∧ u.OnLine

variable {r s t : ParseState} {pos next stop : Nat} {k : Kind} {ks : List Kind}


theorem Passes.of_move (h : s.Passes pos ks stop) (hm : Moves r s) : r.Passes pos ks stop := by
  induction h with
  | nil => exact .nil _
  | cons hu _ ih => exact .cons (hm.trans hu) ih

/-- One more token behind the others. -/
theorem Passes.concat (h : s.Passes pos ks t.start.offset) (hm : Moves s t) :
    s.Passes pos (ks ++ [t.token]) (t.consume .plain).start.offset := by
  generalize hstop : t.start.offset = stop at h
  induction h with
  | nil => exact hstop ▸ .cons hm (.nil _)
  | cons hu _ ih => exact .cons hu (ih hstop)

theorem Joins.of_move (h : s.Joins pos k next) (hm : Moves r s) : r.Joins pos k next :=
  let ⟨u, hu, hrest⟩ := h
  ⟨u, hm.trans hu, hrest⟩

theorem AsyncUpTo.of_move (h : s.AsyncUpTo ks stop) (hm : Moves r s) : r.AsyncUpTo ks stop :=
  let ⟨pos, next, hjoins, hpasses⟩ := h
  ⟨pos, next, hjoins.of_move hm, hpasses.of_move hm⟩

theorem AsyncUpTo.concat (h : s.AsyncUpTo ks t.start.offset) (hm : Moves s t) :
    s.AsyncUpTo (ks ++ [t.token]) (t.consume .plain).start.offset :=
  let ⟨pos, next, hjoins, hpasses⟩ := h
  ⟨pos, next, hjoins, hpasses.concat hm⟩

end ParseState

/-- What has been found of the line breaks in a node of a form that was read between two states. -/
structure Form.Lined (form : Form Node) (s t : ParseState) : Prop where
  semicolon : form.takesSemicolon = true → s.Ended t
  word : ∀ k e, form.boundWord? = some (k, e) →
    ∃ next, s.Joins s.start.offset k next ∧ ∀ n ∈ e, n.range.pos = next
  tail : ∀ e k, form.boundTail? = some (e, k) → s.Trails e.range.stop k
  async : ∀ ks e, form.asyncHead? = some (ks, e) →
    ∃ stop, s.AsyncUpTo ks stop ∧ ∀ n ∈ e, n.range.pos = stop

/-- A form in which no line break matters. -/
theorem Form.Lined.of_free {form : Form Node} {s t : ParseState} (h : form.isFree = true) :
    form.Lined s t := by
  simp only [isFree, isUnbound, Bool.and_eq_true, Bool.not_eq_true', Option.isNone_iff_eq_none] at h
  obtain ⟨hsemicolon, ⟨hword, htail⟩, hasync⟩ := h
  refine ⟨fun h => ?_, fun _ _ h => ?_, fun _ _ h => ?_, fun _ _ h => ?_⟩
  · cases hsemicolon.symm.trans h
  · cases hword.symm.trans h
  · cases htail.symm.trans h
  · cases hasync.symm.trans h

/-- A form in which only its end matters. -/
theorem Form.Lined.of_ended {form : Form Node} {s t : ParseState} (h : s.Ended t)
    (hword : form.boundWord? = none) (htail : form.boundTail? = none)
    (hasync : form.asyncHead? = none) : form.Lined s t := by
  refine ⟨fun _ => h, fun _ _ h => ?_, fun _ _ h => ?_, fun _ _ h => ?_⟩
  · cases hword.symm.trans h
  · cases htail.symm.trans h
  · cases hasync.symm.trans h

theorem Form.Lined.of_unbound {form : Form Node} {s t : ParseState} (h : s.Ended t)
    (hform : form.isUnbound = true) : form.Lined s t := by
  simp only [isUnbound, Bool.and_eq_true, Option.isNone_iff_eq_none] at hform
  exact .of_ended h hform.1.1 hform.1.2 hform.2

/-- A function, in which the word `async` matters. -/
theorem Form.Lined.function {placement : Placement} {name body result : Option Node}
    {isAsync isGenerator : Bool} {typeParameters : Option (List Node)} {parameters : Node}
    {s t : ParseState}
    (h : isAsync = true → ∃ stop, s.AsyncUpTo
        (.functionKeyword :: generatorMark isGenerator ++ typeParametersMark name typeParameters)
        stop ∧
      ∀ n ∈ name <|> (if typeParameters.isSome then none else some parameters),
        n.range.pos = stop) :
    (Form.function placement name isAsync isGenerator typeParameters parameters result body).Lined
      s t := by
  refine ⟨nofun, nofun, nofun, fun ks e he => ?_⟩
  cases isAsync with
  | false => cases he
  | true =>
    cases he
    exact h rfl

/-- A method, in which the word `async` matters if it is no accessor. -/
theorem Form.Lined.method {sort : MethodSort} {decorators : List Node} {name parameters : Node}
    {body result : Option Node} {optional isAsync isGenerator : Bool}
    {typeParameters : Option (List Node)} {s t : ParseState}
    (h : sort = .method → isAsync = true → ∃ stop,
      s.AsyncUpTo (generatorMark isGenerator) stop ∧ name.range.pos = stop) :
    (Form.method sort decorators name optional isAsync isGenerator typeParameters parameters result
      body).Lined s t := by
  refine ⟨nofun, nofun, nofun, fun ks e he => ?_⟩
  cases sort <;> cases isAsync <;> cases he
  obtain ⟨stop, hstop, hname⟩ := h rfl rfl
  exact ⟨stop, hstop, fun n hn => by cases hn; exact hname⟩

/-- A form in which only the word at its beginning matters. -/
theorem Form.Lined.of_joins {form : Form Node} {s t : ParseState} {k : Kind} {next : Nat}
    {e : Option Node} (h : s.Joins s.start.offset k next) (he : ∀ n ∈ e, n.range.pos = next)
    (hword : form.boundWord? = some (k, e)) (hsemicolon : form.takesSemicolon = false)
    (htail : form.boundTail? = none) (hasync : form.asyncHead? = none) : form.Lined s t := by
  refine ⟨fun h => ?_, fun _ _ h' => ?_, fun _ _ h => ?_, fun _ _ h => ?_⟩
  · cases hsemicolon.symm.trans h
  · cases hword.symm.trans h'
    exact ⟨next, h, he⟩
  · cases htail.symm.trans h
  · cases hasync.symm.trans h

/-- A form in which only a token behind a child matters. -/
theorem Form.Lined.of_trails {form : Form Node} {s t : ParseState} {e : Node} {k : Kind}
    (h : s.Trails e.range.stop k) (htail : form.boundTail? = some (e, k))
    (hsemicolon : form.takesSemicolon = false) (hword : form.boundWord? = none)
    (hasync : form.asyncHead? = none) : form.Lined s t := by
  refine ⟨fun h => ?_, fun _ _ h => ?_, fun _ _ h' => ?_, fun _ _ h => ?_⟩
  · cases hsemicolon.symm.trans h
  · cases hword.symm.trans h
  · cases htail.symm.trans h'
    exact h
  · cases hasync.symm.trans h

/-- An arrow function, in which the arrow matters, and the word `async` at its beginning. -/
theorem Form.Lined.arrowFunction {isAsync : Bool} {parameters body : Node} {s t : ParseState}
    (harrow : s.Trails parameters.range.stop .equalsGreaterThanToken)
    (h : isAsync = true → ∃ next, s.Joins s.start.offset .asyncKeyword next) :
    (Form.arrowFunction isAsync parameters body).Lined s t := by
  refine ⟨nofun, fun k e he => ?_, fun e k he => ?_, nofun⟩
  · cases isAsync <;> cases he
    obtain ⟨next, hnext⟩ := h rfl
    exact ⟨next, hnext, nofun⟩
  · cases he
    exact harrow

end EcmaSyntax
