import EcmaSyntax.Flag.Basic
import EcmaSyntax.Options.Basic

/-! # Grammar contexts

The grammar in force at a place: strict code, whether `yield` and `await` are operators, whether a
`return` may stand here, and so on. A context is passed down by value; a routine derives the
context of an inner region and never changes the one of its caller. -/
namespace EcmaSyntax

/-- A switch of the grammar. -/
inductive Mode
  | strict | moduleGoal | regularExpression | yieldOperator | awaitOperator | returnStatement
  /-- Between the marks of a conditional, where a colon may end the branch. -/
  | conditionalBranch
  | conditionalTypes | jsx
  /-- In the head of a loop, where `in` is no operator. -/
  | withoutIn
  | withoutWebCompat | classBody | decorator
deriving DecidableEq

abbrev Context := FlagSet Mode

namespace Mode

def bit : Mode → Nat
  | strict => 0
  | moduleGoal => 1
  | regularExpression => 2
  | yieldOperator => 3
  | awaitOperator => 4
  | returnStatement => 5
  | conditionalBranch => 6
  | conditionalTypes => 7
  | jsx => 8
  | withoutIn => 9
  | withoutWebCompat => 10
  | classBody => 11
  | decorator => 12

instance : FlagFamily Mode where
  bit := bit
  familyName := "Context"
  named :=
    [("NONE", []), ("STRICT", [strict]), ("MODULE", [moduleGoal]),
      ("ALLOW_REGEXP", [regularExpression]), ("YIELD", [yieldOperator]),
      ("AWAIT", [awaitOperator]), ("RETURN", [returnStatement]),
      ("IN_CONDITIONAL", [conditionalBranch]), ("ALLOW_CONDITIONAL_TYPES", [conditionalTypes]),
      ("JSX", [jsx]), ("DISALLOW_IN", [withoutIn]), ("DISABLE_WEB_COMPAT", [withoutWebCompat]),
      ("IN_CLASS", [classBody]), ("DECORATOR", [decorator])]

@[simp] theorem has_one (a b : Mode) : (FlagSet.one a).has b = decide (b = a) := by
  cases a <;> cases b <;> rfl

@[simp] theorem has_ofList (modes : List Mode) (m : Mode) :
    (FlagSet.ofList modes).has m = modes.contains m := by
  have hfold (s : FlagSet Mode) :
      (modes.foldl (fun s a => s ∪ .one a) s).has m = (s.has m || modes.contains m) := by
    induction modes generalizing s with
    | nil => simp
    | cons a modes ih => simp [ih, Bool.or_assoc]
  simpa [FlagSet.ofList] using hfold ∅

end Mode

namespace Context

/-- The context of a whole source. -/
def ofOptions (o : ParseOptions) : Context :=
  .unionOf [
    Mode.conditionalTypes,
    .when (o.goal == .module) (.ofList [Mode.moduleGoal, Mode.strict, Mode.awaitOperator]),
    .when o.impliedStrict Mode.strict,
    .when (!o.webCompat) Mode.withoutWebCompat,
    .when o.jsx Mode.jsx]

/-- A context with more modes. -/
def including (ctx : Context) (modes : List Mode) : Context := ctx ∪ FlagSet.ofList modes

/-- A context with fewer modes. -/
def excluding (ctx : Context) (modes : List Mode) : Context := ctx \ FlagSet.ofList modes

@[simp] theorem has_including (ctx : Context) (modes : List Mode) (m : Mode) :
    (ctx.including modes).has m = (ctx.has m || modes.contains m) := by
  simp [including]

@[simp] theorem has_excluding (ctx : Context) (modes : List Mode) (m : Mode) :
    (ctx.excluding modes).has m = (ctx.has m && !modes.contains m) := by
  simp [excluding]

/-- The context of the body of a function. -/
def functionBody (ctx : Context) (isAsync isGenerator : Bool) : Context :=
  ((ctx.excluding
      [.yieldOperator, .awaitOperator, .conditionalBranch, .withoutIn, .decorator]).including
      [.returnStatement, .conditionalTypes])
    ∪ .when isAsync Mode.awaitOperator ∪ .when isGenerator Mode.yieldOperator

/-- The context of code that runs while a class is set up. -/
def classInitializer (ctx : Context) : Context :=
  (ctx.functionBody false false).excluding [.returnStatement]

/-- The context between parentheses or brackets, where `in` is an operator and a colon ends no
branch. -/
def enclosed (ctx : Context) : Context := ctx.excluding [.withoutIn, .conditionalBranch]

/-- The context of an argument. -/
def argument (ctx : Context) : Context :=
  ctx.excluding [.withoutIn, .conditionalBranch, .decorator]

/-- The context of a token before which a slash starts a regular expression. -/
def withRegularExpression (ctx : Context) : Context := ctx.including [.regularExpression]

def isStrict (ctx : Context) : Bool := ctx.has .strict
def isModule (ctx : Context) : Bool := ctx.has .moduleGoal

end Context
end EcmaSyntax
