import EcmaSyntax.Proofs.Places.Basic

/-! # What contexts know of places

A context permits no more than the place does in which something is read in it. The parts of a node
are read in contexts that keep up with the places behind its edges. -/
namespace EcmaSyntax
open Part

/-! ## Contexts -/

/-- What a context says about a place. -/
@[ext] structure Seat where
  strict : Bool
  returns : Bool
  inMember : Bool
  isCompatible : Bool
  isModule : Bool

/-- The seat for which a context is made. -/
def Context.seat (ctx : Context) : Seat where
  strict := ctx.isStrict
  returns := ctx.has .returnStatement
  inMember := ctx.has .classBody
  isCompatible := !ctx.has .withoutWebCompat
  isModule := ctx.isModule

/-- What a place permits. A module is strict code. -/
def Place.seat (options : ParseOptions) (place : Place) : Seat where
  strict := place.strict
  returns := place.returns
  inMember := place.inMember
  isCompatible := options.webCompat
  isModule := place.strict

namespace Seat

/-- A seat permits no more than another one does. -/
@[mk_iff] structure Within (s t : Seat) : Prop where
  strict : t.strict = true → s.strict = true
  returns : s.returns = true → t.returns = true
  inMember : s.inMember = true → t.inMember = true
  isCompatible : s.isCompatible = true → t.isCompatible = true
  isModule : s.isModule = true → t.isModule = true

@[simp] theorem Within.refl (s : Seat) : s.Within s := ⟨id, id, id, id, id⟩

theorem Within.trans {s t u : Seat} (h : s.Within t) (h' : t.Within u) : s.Within u :=
  ⟨h.strict ∘ h'.strict, h'.returns ∘ h.returns, h'.inMember ∘ h.inMember,
    h'.isCompatible ∘ h.isCompatible, h'.isModule ∘ h.isModule⟩

/-- The seat behind an edge of a form. -/
def across {α : Type} (s : Seat) (form : Form α) (name : String) : Seat :=
  { s with
    strict := s.strict || name ∈ form.classParts
    returns := name ∈ form.functionBodies || s.returns && name ∉ form.setups
    inMember := s.inMember || name ∈ form.memberFields }

theorem Within.across {options : ParseOptions} {place : Place} {s : Seat} {n : Node} {name : String}
    {before : List Node} (h : s.Within (place.seat options))
    (hbody : place.directed = true → n.form.isBody = false) :
    (s.across n.form name).Within ((place.across n name before).seat options) := by
  obtain ⟨hstrict, hreturns, hmember, hcompatible, hmodule⟩ := h
  have hdirected : (place.directed && n.form.isBody) = false := by
    cases hd : place.directed
    · rfl
    · simpa using hbody hd
  refine ⟨?_, ?_, ?_, hcompatible, ?_⟩ <;>
    simp only [Seat.across, Place.seat, Place.across, Bool.or_eq_true, Bool.and_eq_true,
      hdirected, Bool.false_and, Bool.or_false] at *
  · exact Or.imp_left hstrict
  · exact Or.imp_right (And.imp_left hreturns)
  · exact Or.imp_left hmember
  · exact fun h => .inl (hmodule h)

end Seat

namespace Context
variable (ctx : Context)

theorem seat_including {modes : List Mode}
    (h : ∀ m ∈ [.strict, .returnStatement, .classBody, .withoutWebCompat, .moduleGoal],
      m ∉ modes) : (ctx.including modes).seat = ctx.seat := by
  simp only [List.forall_mem_cons] at h
  simp [seat, isStrict, isModule, h]

theorem seat_excluding {modes : List Mode}
    (h : ∀ m ∈ [.strict, .returnStatement, .classBody, .withoutWebCompat, .moduleGoal],
      m ∉ modes) : (ctx.excluding modes).seat = ctx.seat := by
  simp only [List.forall_mem_cons] at h
  simp [seat, isStrict, isModule, h]

@[simp] theorem seat_argument : ctx.argument.seat = ctx.seat :=
  ctx.seat_excluding (by decide)

@[simp] theorem seat_enclosed : ctx.enclosed.seat = ctx.seat :=
  ctx.seat_excluding (by decide)

@[simp] theorem seat_withIn : ctx.withIn.seat = ctx.seat :=
  ctx.seat_excluding (by decide)

@[simp] theorem seat_branch : ctx.branch.seat = ctx.seat :=
  ctx.seat_including (by decide)

@[simp] theorem seat_conditionalTypes : (Grammar.withConditionalTypes ctx).seat = ctx.seat :=
  ctx.seat_including (by decide)

@[simp] theorem seat_functionBody (isAsync isGenerator : Bool) :
    (ctx.functionBody isAsync isGenerator).seat = { ctx.seat with returns := true } := by
  cases isAsync <;> cases isGenerator <;>
    simp [seat, isStrict, isModule, functionBody, FlagSet.when]

@[simp] theorem seat_parameters (isAsync isGenerator : Bool) :
    (ctx.parameters isAsync isGenerator).seat = { ctx.seat with returns := false } := by
  have hbody := ctx.seat_functionBody isAsync isGenerator
  simp_all [seat, parameters, isStrict, isModule]

@[simp] theorem seat_classInitializer :
    ctx.classInitializer.seat = { ctx.seat with returns := false } :=
  ctx.seat_parameters false false

@[simp] theorem seat_arrowContext (isAsync : Bool) :
    (Grammar.arrowContext ctx isAsync).seat = ctx.seat := by
  cases isAsync <;>
    simp [seat, isStrict, isModule, Grammar.arrowContext, FlagSet.when]

@[simp] theorem seat_strict :
    (ctx.including [.strict]).seat = { ctx.seat with strict := true } := by
  simp [seat, isStrict, isModule]

@[simp] theorem seat_classBody :
    (ctx.including [.classBody]).seat = { ctx.seat with inMember := true } := by
  simp [seat, isStrict, isModule]

end Context

/-! ## Parts of a node -/

namespace Phrase

/-- Whether a phrase may be read where directives count, or where they do not. -/
def allows (directed : Bool) : Phrase → Bool
  | .block directives => directives == directed
  | .statement _ | .declaration | .item _ => !directed
  | _ => true

/-- Whether what passes names may stand for a phrase. -/
def isPort : Phrase → Bool
  | .importDeclaration | .exportDeclaration | .item true => true
  | _ => false

end Phrase

/-- A phrase suits a field: the statements within others are read as such, and nothing is passed
but by a module. -/
@[mk_iff] structure Phrase.Suits (ph : Phrase) (form : Form Node) (name : String) : Prop where
  loop : name ∈ form.loopBodies → ph = .statement .plain
  branch : name ∈ form.branches → ∃ site, ph = .statement site
  port : ph.isPort = true → ∃ statements, form = .sourceBody .module statements

/-- A part is read as the edge to it demands. -/
structure Seated (ctx : Context) (form : Form Node) (edge : String × Node) (p : Part) : Prop where
  node_eq : p.node = edge.2
  within : p.phrase ≠ .identifier → p.ctx.seat.Within (ctx.seat.across form edge.1)
  allows : p.phrase.allows (edge.1 ∈ form.functionBodies) = true
  suits : p.phrase.Suits form edge.1

theorem seated_iff {ctx ctx' : Context} {form : Form Node} {name : String} {n : Node} {ph : Phrase} :
    Seated ctx form (name, n) ⟨ph, ctx', n⟩ ↔
      (ph ≠ .identifier → ctx'.seat.Within (ctx.seat.across form name)) ∧
      ph.allows (name ∈ form.functionBodies) = true ∧ ph.Suits form name :=
  ⟨fun h => ⟨h.within, h.allows, h.suits⟩,
    fun ⟨hwithin, hallows, hsuits⟩ => ⟨rfl, hwithin, hallows, hsuits⟩⟩

/-- Statements behind which no directive counts are read in one context. -/
theorem body_undirected {ctx : Context} {inModule : Bool} {statements : Array Node}
    {ns : List Node} : body inModule ⟨ctx, false, statements⟩ ns = all (.item inModule) ctx ns := by
  induction ns generalizing statements with
  | nil => rfl
  | cons n rest ih => exact congrArg _ ih

/-- The parts of a node are seated as its fields demand. -/
theorem Production.seats {faulty : Prop} {ph : Phrase} {ctx : Context} {form : Form Node}
    {ps : List Part} (h : Production faulty ph ctx form ps) (hbody : form.isBody = false) :
    List.Forall₂ (Seated ctx form) form.edges ps := by
  cases h <;>
    simp only [Form.edges, Form.fields, Field.children, Field.name, List.flatMap_cons,
      List.flatMap_nil, List.map_cons, List.map_nil, List.append_nil, List.append_assoc,
      List.cons_append, List.nil_append, opt, optAll, Option.toList_none, Option.toList_some,
      Option.getD_none, body_undirected, forall_all, forall_all_last, List.forall₂_cons,
      List.forall₂_nil_left_iff, seated_iff]
  case block => cases hbody
  case' combinedType sort _ _ _ => cases sort
  all_goals
    simp [Seat.within_iff, Seat.across, Phrase.suits_iff, Form.functionBodies, Form.setups, Form.classParts, Form.memberFields,
      Form.loopBodies, Form.branches, Phrase.allows, Phrase.isPort, Phrase.joined,
      Context.seat_including, Context.seat_excluding]

/-! ## Directives -/

section Directives
variable {options : ParseOptions} {place : Place} {ctx : Context}

/-- The context behind a directive knows that the statements behind it may be strict code. -/
theorem directiveContext_within {text : String} (h : ctx.seat.Within (place.seat options)) :
    (Grammar.directiveContext ctx text).seat.Within (Place.seat options { place with
      strict := place.strict || decide (text ∈ ["'use strict'", "\"use strict\""]) }) := by
  have hmodule (hm : ctx.isModule = true) : place.strict = true := h.isModule hm
  have hholds : text ∈ ["'use strict'", "\"use strict\""] →
      Grammar.holdsExactly "use strict" text = true := by
    revert text
    simp only [List.forall_mem_cons]
    decide
  unfold Grammar.directiveContext
  split
  case isTrue =>
    rw [Context.seat_strict]
    exact ⟨fun _ => rfl, h.returns, h.inMember, h.isCompatible,
      fun hm => by simp [Place.seat, hmodule hm]⟩
  case isFalse hdirective =>
    refine ⟨fun hs => h.strict ?_, h.returns, h.inMember, h.isCompatible,
      fun hm => by simp [Place.seat, hmodule hm]⟩
    rcases (Bool.or_eq_true _ _).mp hs with hs | htext
    · exact hs
    · exact hmodule (by simpa [hholds (of_decide_eq_true htext)] using hdirective)

/-- The context of a statement of a body accounts for the directives before it. -/
theorem push_within (b : Grammar.Body) (before : List Node)
    (h : b.ctx.seat.Within (place.seat options)) :
    (before.foldl Grammar.Body.push b).ctx.seat.Within
      (Place.seat options { place with
        strict := place.strict || b.inDirectives && startsStrict before }) := by
  induction before generalizing b place with
  | nil => simpa [startsStrict] using h
  | cons s rest ih =>
    cases hs : b.directive? s with
    | none =>
      have hpush : b.push s = ⟨b.ctx, false, b.statements.push s⟩ := by simp [Grammar.Body.push, hs]
      have hno : (b.inDirectives && startsStrict (s :: rest)) = false := by
        cases hd : b.inDirectives
        · rfl
        · have htext : s.directiveText? = none := by simpa [Grammar.Body.directive?, hd] using hs
          simp [startsStrict, htext]
      rw [List.foldl_cons, hno, Bool.or_false]
      have hrest := ih (b.push s) (by rw [hpush]; exact h)
      simpa [hpush] using hrest
    | some directive =>
      obtain ⟨text, range⟩ := directive
      have hd : b.inDirectives = true ∧ s.directiveText? = some (text, range) := by
        simpa [Grammar.Body.directive?] using hs
      have hpush : b.push s = ⟨Grammar.directiveContext b.ctx text, true, b.statements.push s⟩ := by
        simp [Grammar.Body.push, hs]
      have hstarts : startsStrict (s :: rest) =
          (decide (text ∈ ["'use strict'", "\"use strict\""]) || startsStrict rest) := by
        simp [startsStrict, Node.asksForStrict, hd.2]
      rw [List.foldl_cons, hd.1, Bool.true_and, hstarts, ← Bool.or_assoc]
      have hrest := ih (b.push s) (by rw [hpush]; exact directiveContext_within h)
      simpa [hpush] using hrest

end Directives
end EcmaSyntax
