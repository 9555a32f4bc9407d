import EcmaSyntax.Grammar.CoverElement
import EcmaSyntax.Grammar.Statement

/-! # Whole sources

The grammar as a whole. A rule may meet lighter rules only, so that the weight of the first rule
bounds how many of them lie within each other. A nested rule is also read one level deeper than the
routine that meets it, and levels are limited. -/
namespace EcmaSyntax.Grammar
open Parse

/-- Reads a rule, given how the rules in it are read. -/
def readRule [Recursion] : {α : Type} → Rule α → Parse α
  | _, .item inModule ctx => item inModule ctx
  | _, .statement ctx site => statement ctx site
  | _, .declaration ctx m => declaration ctx m
  | _, .coverElement ctx => some <$> coverElement ctx
  | _, .assignment ctx => assignment ctx
  | _, .operand ctx precedence => operand ctx precedence
  | _, .unary ctx => unary ctx
  | _, .leftHandSide ctx => leftHandSide ctx
  | _, .newExpression ctx => newExpression ctx
  | _, .objectElement ctx => some <$> objectElement ctx
  | _, .classElement ctx => some <$> classElement ctx
  | _, .type ctx => type ctx
  | _, .typeOperator ctx => typeOperator ctx
  | _, .typeMember ctx => some <$> typeMember ctx
  | _, .element ctx inExpression => element ctx inExpression

/-- Reads a rule where it stands. -/
def readHere [Recursion] {α : Type} (rule : Rule α) : Parse α :=
  if rule.isNested then nested rule.absent (readRule rule) else readRule rule

/-- The rules that weigh less than a bound. -/
@[reducible] def below (bound : Nat) (read : {α : Type} → Rule α → Parse α) : Recursion where
  recur rule := do
    if (← observe rule.weight) < bound then read rule else unanswered

/-- Reads a rule with at most `n` rules within each other. -/
def read : Nat → {α : Type} → Rule α → Parse α
  | 0, _, _ => unanswered
  | n + 1, _, rule => do
    let weight ← observe rule.weight
    letI := below weight (read n)
    readHere rule

/-- The grammar as seen from the top. -/
@[reducible] def top : Recursion where
  recur rule := do read ((← observe rule.weight) + 1) rule

/-- The statements of a whole source. -/
def sourceStatements (ctx : Context) : Parse (List Node) :=
  letI := top
  statementList ctx ctx.isModule true fun _ => false

/-- A whole source from before its first token. -/
def source (ctx : Context) : Parse (List Node) := do
  advanceToExpression
  let statements ← sourceStatements ctx
  flush
  return statements

end Grammar

/-- The state before the first token of a source. -/
def ParseState.ofText (text : List Char) : ParseState :=
  { scanner := (Scanner.ofText text).skipShebang }

/-- A tree and the diagnostics in the order of their discovery. -/
structure ParseResult where
  root : Node
  diagnostics : Sink

/-- The header of the root of a source. -/
def rootHeader (source : String) (sink : Sink) : Header where
  range := ⟨0, source.utf8ByteSize⟩
  flags := .when (!sink.isEmpty) NodeFlag.hasErrors

/-- The statements of a source and the state at its end. -/
def run (source : String) (options : ParseOptions) : Option (List Node × ParseState) :=
  (Grammar.source (.ofOptions options)).run (.ofText source.toList)

/-- Reads a whole source. -/
def parse (source : String) (options : ParseOptions) : ParseResult :=
  let (statements, sink) := match run source options with
    | some (statements, s) => (statements, s.sink)
    | none => ([], ∅)
  ⟨.mk (rootHeader source sink) (.sourceBody options.goal statements), sink⟩

end EcmaSyntax
