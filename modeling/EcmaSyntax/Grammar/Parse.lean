import EcmaSyntax.Grammar.Step

/-! # Routines of a parse

A routine reads and changes the state of a parse, and only by steps: it carries the proof. So
looking ahead can go back to a checkpoint and leave no trace, whatever the routine is. It also tells
which states it comes through: those between any two lines of it, those of a speculation that is
undone, and the one where it ends. A run that would never end has no answer: a loop whose turn goes
on at the same token, and a rule that meets one that is no lighter. -/
namespace EcmaSyntax

/-- A routine with an answer of type `α`, which it may fail to find. -/
structure Parse (α : Type) where
  run : ParseState → Option (α × ParseState)
  /-- The states that a run from a state comes through. -/
  visits : ParseState → ParseState → Prop
  moves : ∀ {s a t}, run s = some (a, t) → Moves s t
  along : ∀ {s u}, visits s u → Along s u
  ends : ∀ {s a t}, run s = some (a, t) → visits s t

namespace Parse
variable {α β : Type}

/-- Looks at the state. -/
def observe (f : ParseState → α) : Parse α where
  run s := some (f s, s)
  visits s u := u = s
  moves h := by cases h; exact .refl _
  along h := h ▸ .refl _
  ends h := by cases h; rfl

/-- Makes a step. -/
def act (f : ParseState → ParseState) (hf : ∀ s, Step s (f s)) : Parse Unit where
  run s := some ((), f s)
  visits s u := u = s ∨ u = f s
  moves h := by cases h; exact .single (hf _)
  along h := by
    rcases h with rfl | rfl
    · exact .refl _
    · exact .step (hf _) (.refl _)
  ends h := by cases h; exact .inr rfl

/-- What would never end. -/
def unanswered : Parse α where
  run _ := none
  visits s u := u = s
  moves h := by cases h
  along h := h ▸ .refl _
  ends h := by cases h

/-- Goes on with the answer of a routine. -/
protected def bind (p : Parse α) (f : α → Parse β) : Parse β where
  run s :=
    match p.run s with
    | none => none
    | some (a, t) => (f a).run t
  visits s u := p.visits s u ∨ ∃ a t, p.run s = some (a, t) ∧ (f a).visits t u
  moves h := by
    split at h
    · cases h
    case h_2 hp => exact (p.moves hp).trans ((f _).moves h)
  along h := by
    rcases h with h | ⟨a, t, hp, h⟩
    · exact p.along h
    · exact (p.moves hp).along ((f a).along h)
  ends h := by
    split at h
    · cases h
    case h_2 hp => exact .inr ⟨_, _, hp, (f _).ends h⟩

instance : Monad Parse where
  pure a := observe fun _ => a
  bind := Parse.bind

instance : Inhabited (Parse α) := ⟨unanswered⟩

/-! ## Speculation and depth -/

/-- Runs a routine for its answer only. -/
def lookAhead (p : Parse α) : Parse α where
  run s := (p.run s.flush).map fun (a, t) => (a, t.rewind s.flush.checkpoint)
  visits s u := u = s ∨ p.visits s.flush u ∨
    ∃ a t, p.run s.flush = some (a, t) ∧ u = t.rewind s.flush.checkpoint
  moves h := by
    obtain ⟨⟨a, t⟩, hp, h⟩ := Option.map_eq_some_iff.mp h
    cases h
    rw [(p.moves hp).rewind_flush]
    exact .single (.flush _)
  along h := by
    rcases h with rfl | h | ⟨a, t, hp, rfl⟩
    · exact .refl _
    · exact .step (.flush _) (p.along h)
    · rw [(p.moves hp).rewind_flush]
      exact .step (.flush _) (.refl _)
  ends h := by
    obtain ⟨⟨a, t⟩, hp, h⟩ := Option.map_eq_some_iff.mp h
    cases h
    exact .inr (.inr ⟨_, _, hp, rfl⟩)

/-- Runs a routine and goes back if it fails. -/
def attempt (p : Parse (Option α)) : Parse (Option α) where
  run s :=
    (p.run s.flush).map fun (answer, t) =>
      (answer, if answer.isSome then t else t.rewind s.flush.checkpoint)
  visits s u := u = s ∨ p.visits s.flush u ∨
    ∃ t, p.run s.flush = some (none, t) ∧ u = t.rewind s.flush.checkpoint
  moves h := by
    obtain ⟨⟨answer, t⟩, hp, h⟩ := Option.map_eq_some_iff.mp h
    cases h
    refine .cons (.flush _) ?_
    split
    · exact p.moves hp
    · rw [(p.moves hp).rewind_flush]
      exact .refl _
  along h := by
    rcases h with rfl | h | ⟨t, hp, rfl⟩
    · exact .refl _
    · exact .step (.flush _) (p.along h)
    · rw [(p.moves hp).rewind_flush]
      exact .step (.flush _) (.refl _)
  ends h := by
    obtain ⟨⟨answer, t⟩, hp, h⟩ := Option.map_eq_some_iff.mp h
    cases answer with
    | none =>
      cases h
      exact .inr (.inr ⟨t, hp, rfl⟩)
    | some _ =>
      cases h
      exact .inr (.inl (p.ends hp))

/-- Runs a routine one level deeper, if a level is left. -/
def deeper (p : Parse α) : Parse α where
  run s :=
    if s.depth < nestingLimit then (p.run s.deeper).map fun (a, t) => (a, t.shallower) else none
  visits s u := u = s ∨ s.depth < nestingLimit ∧
    (p.visits s.deeper u ∨ ∃ a t, p.run s.deeper = some (a, t) ∧ u = t.shallower)
  moves h := by
    split at h
    · obtain ⟨⟨a, t⟩, hp, h⟩ := Option.map_eq_some_iff.mp h
      cases h
      exact (p.moves hp).shallower
    · cases h
  along h := by
    rcases h with rfl | ⟨hdepth, h | ⟨a, t, hp, rfl⟩⟩
    · exact .refl _
    · exact .deeper hdepth (p.along h)
    · exact (p.moves hp).shallower.along (.refl _)
  ends h := by
    split at h
    case isTrue hdepth =>
      obtain ⟨⟨a, t⟩, hp, h⟩ := Option.map_eq_some_iff.mp h
      cases h
      exact .inr ⟨hdepth, .inr ⟨_, _, hp, rfl⟩⟩
    case isFalse => cases h

theorem deeper_run_eq_some {p : Parse α} {a : α} {s t : ParseState} :
    (deeper p).run s = some (a, t) ↔
      s.depth < nestingLimit ∧ ∃ u, p.run s.deeper = some (a, u) ∧ t = u.shallower := by
  change (if s.depth < nestingLimit then (p.run s.deeper).map _ else none) = _ ↔ _
  split
  case isFalse h => simp [h]
  case isTrue h =>
    rw [Option.map_eq_some_iff]
    constructor
    · rintro ⟨⟨b, u⟩, hp, heq⟩
      cases heq
      exact ⟨h, u, hp, rfl⟩
    · rintro ⟨-, u, hp, rfl⟩
      exact ⟨(a, u), hp, rfl⟩

/-! ## Tokens -/

def token : Parse Kind := observe (·.token)

/-- Whether the present token is of a kind. -/
def isAt (kind : Kind) : Parse Bool := observe (·.token == kind)

/-- Whether the present token is of one of the kinds. -/
def isAtAny (kinds : List Kind) : Parse Bool := observe (kinds.contains ·.token)

/-- Whether the present token passes a test. -/
def tokenIs (test : Kind → Bool) : Parse Bool := observe (test ·.token)

/-- Whether the present token passes a test and no line break precedes it. -/
def onSameLine (test : Kind → Bool) : Parse Bool :=
  observe fun s => !s.reading.hasPrecedingLineBreak && test s.token

/-- The present token with its ends and flags. -/
def reading : Parse Reading := observe (·.reading)

def tokenText : Parse String := observe (·.reading.text)

def tokenSpan : Parse Span := observe (·.tokenSpan)

/-- The offset at which the present token starts. -/
def tokenStart : Parse Nat := observe (·.start.offset)

/-- Whether a line break precedes the present token. -/
def afterLineBreak : Parse Bool := observe (·.reading.hasPrecedingLineBreak)

/-- The number of diagnostics so far. -/
def reported : Parse Nat := observe (·.sink.size)

/-- Reads the present token anew. -/
def reread (way : Scanner.Rereading) : Parse Unit := act (·.reread way) (.reread way)

def flush : Parse Unit := act ParseState.flush .flush

/-- Consumes the present token with its faults. -/
def consume (way : Scanner.Advance) : Parse Unit := act (·.consume way) (.consume way)

/-- Moves to the next token. -/
def advance : Parse Unit := consume .plain

/-- Moves to the next token where a slash starts a regular expression. -/
def advanceToExpression : Parse Unit := consume .expression

/-- Consumes the present token if it is of a kind. -/
def accept (kind : Kind) : Parse Bool := do
  if ← isAt kind then
    advance
    return true
  else return false

/-! ## Diagnostics -/

/-- Reports at a place what the grammar finds there. -/
def reportAt (span : Span) (message : Message) (argument : Option String := none)
    (h : message.isGrammatical = true := by exact Eq.refl true) : Parse Unit :=
  act (·.push (.report span message argument)) (.push _ (Diagnostic.isAny_report.trans h))

/-- Reports at the present token. -/
def reportHere (message : Message) (argument : Option String := none)
    (h : message.isGrammatical = true := by exact Eq.refl true) : Parse Unit := do
  reportAt (← tokenSpan) message argument h

/-- Reports at the present token in a certain case. -/
def reportWhen (c : Bool) (message : Message)
    (h : message.isGrammatical = true := by exact Eq.refl true) : Parse Unit := do
  if c then reportHere message none h

/-- Reports that a text was expected in place of the present token. -/
def reportMissing (text : String) : Parse Unit := reportHere .tokenExpected text

/-- Reports that a token was expected in place of the present one. -/
def reportExpected (kind : Kind) : Parse Unit := reportMissing (kind.text.getD "token")

/-- Reports once that the limit of nesting is reached. -/
def reportLimit : Parse Unit := act ParseState.reportLimit .reportLimit

/-- Consumes the present token if it is of a kind, and reports it as missing otherwise. -/
def expect (kind : Kind) : Parse Bool := do
  if ← accept kind then return true
  else
    reportExpected kind
    return false

/-- Whether a semicolon may be left out before the present token. -/
def canOmitSemicolon : Parse Bool := observe fun s =>
  match s.token with
  | .semicolonToken | .closeBraceToken | .endOfFileToken => true
  | _ => s.reading.hasPrecedingLineBreak

/-- Consumes a semicolon, or reports it where it may not be left out. -/
def expectSemicolon : Parse Unit := do
  unless ← accept .semicolonToken do
    unless ← canOmitSemicolon do reportExpected .semicolonToken

/-! ## Nodes -/

/-- A mark at the present token. -/
def mark : Parse Mark := observe (·.mark)

/-- A node that began at a mark and ends with the last token consumed. -/
def node (m : Mark) (form : Form Node) : Parse Node := observe fun s => .mk (s.header m) form

/-- A node that is missing before the present token. -/
def missing (form : Form Node) : Parse Node := observe fun s => .mk s.missingHeader form

def missingIdentifier : Parse Node := missing (.identifier false "" none)

def missingStatement : Parse Node := missing .emptyStatement

/-! ## Tests of the next token -/

/-- Whether a test succeeds at the next token. -/
def nextIs (test : Parse Bool) : Parse Bool :=
  lookAhead do
    advance
    test

/-- Moves to the next token, if it passes a test. -/
def advanceTo (test : Parse Bool) : Parse (Option Unit) := do
  advance
  return if ← test then some () else none

/-- Consumes the present token if a test succeeds at the one after it. -/
def advanceIf (test : Parse Bool) : Parse Bool := Option.isSome <$> attempt (advanceTo test)

/-- Consumes the present token if a test succeeds before it. -/
def advanceWhen (test : Parse Bool) : Parse Bool := do
  if ← test then
    advance
    return true
  else return false

/-! ## Parts that may be absent -/

/-- A routine where the present token is of a kind. -/
def whenAt (kind : Kind) (p : Parse α) : Parse (Option α) := do
  if ← isAt kind then some <$> p else return none

/-- A routine where the present token is of none of the kinds. -/
def unlessAtAny (kinds : List Kind) (p : Parse α) : Parse (Option α) := do
  if ← isAtAny kinds then return none else some <$> p

/-- A routine behind a token, if the token is there. -/
def behind (kind : Kind) (p : Parse α) : Parse (Option α) := do
  if ← accept kind then some <$> p else return none

/-- A routine between two tokens. -/
def between (opening closing : Kind) (p : Parse α) : Parse α := do
  let _ ← expect opening
  let inner ← p
  let _ ← expect closing
  return inner

/-- A routine between two tokens; it is left out if the first of them is missing. -/
def within (opening closing : Kind) (absent : α) (p : Parse α) : Parse α := do
  if ← expect opening then
    let inner ← p
    let _ ← expect closing
    return inner
  else return absent

/-! ## Repetition -/

/-- What follows one turn of a loop. -/
inductive Turn (α : Type)
  | again (a : α)
  | done (a : α)

def Turn.map (f : α → β) : Turn α → Turn β
  | again a => .again (f a)
  | done a => .done (f a)

/-- At most `n` turns of a loop. A turn after which the loop goes on must have moved. -/
def turns (step : α → Parse (Turn α)) : Nat → α → Parse α
  | 0, _ => unanswered
  | n + 1, a => do
    let start ← tokenStart
    match ← step a with
    | .done b => return b
    | .again b => if start < (← tokenStart) then turns step n b else unanswered

/-- Repeats a step until it is done. Every turn but the last moves on, so that there are no more
of them than characters are left. -/
def loop (step : α → Parse (Turn α)) (a : α) : Parse α := do
  turns step ((← observe (·.left)) + 1) a

/-- Gathers the nodes of a loop whose turns are given the nodes so far. -/
def collect (step : Array Node → Parse (Turn (Array Node))) : Parse (List Node) :=
  return (← loop step #[]).toList

/-- A routine where the present token still starts at an offset. -/
def ifUnmoved (start : Nat) (p : Parse Unit) : Parse Unit := do
  if (← tokenStart) == start then p

/-- Moves to the next token, but not beyond the end of the source. -/
def skip (way : Scanner.Advance) : Parse Unit := do
  unless ← isAt .endOfFileToken do consume way

/-- One turn on the way to the end of the source. -/
def skipTurn (_ : Unit) : Parse (Turn Unit) := do
  if ← isAt .endOfFileToken then return .done ()
  else
    advance
    return .again ()

/-- Moves to the end of the source. -/
def skipToEnd : Parse Unit := loop skipTurn ()

/-! ## Nesting -/

/-- Runs a routine one level deeper. At the limit of nesting this is reported once, the rest of the
source is skipped, and something else stands in for the routine. -/
def nested (absent p : Parse α) : Parse α := do
  if (← observe (·.depth)) < nestingLimit then deeper p
  else
    reportLimit
    skipToEnd
    absent

end Parse
end EcmaSyntax
