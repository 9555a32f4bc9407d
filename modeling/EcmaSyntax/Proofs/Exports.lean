import EcmaSyntax.Proofs.Places.Placed
import EcmaSyntax.Proofs.Spans

/-! # What a module exports

Where nothing is reported, imports and exports stand at the top of a module only, so that none is
exported itself. What is exported instead of names is a declaration, or else any statement that may
stand at the top of a module: the word `export` does not ask for a declaration behind it. -/
namespace EcmaSyntax
open Part

namespace Kind

/-- The kinds of declarations. -/
def isDeclaration : Kind → Bool
  | .functionDeclaration | .classDeclaration | .variableStatement | .lexicalDeclaration
  | .interfaceDeclaration | .typeAliasDeclaration | .enumDeclaration => true
  | _ => false

/-- The kinds of statements that declare nothing and stand at the top of a module. -/
def isFreeStatement : Kind → Bool
  | .block | .emptyStatement | .debuggerStatement | .expressionStatement | .ifStatement
  | .doStatement | .whileStatement | .forStatement | .forInStatement | .forOfStatement
  | .breakStatement | .continueStatement | .switchStatement | .labeledStatement
  | .throwStatement | .tryStatement => true
  | _ => false

end Kind

namespace Phrase

/-- The phrases that a declaration may be. -/
def isStatement : Phrase → Bool
  | .declaration | .statement _ | .variableStatement _ | .function .declaration
  | .classLike .declaration | .enumeration | .block _ => true
  | _ => false

theorem isStatement_of_choice {ph ph' : Phrase} (h : ph ∈ ph'.choices)
    (hstatement : ph'.isStatement = true) : ph.isStatement = true := by
  revert ph
  cases ph'
  case function placement | classLike placement => cases placement <;> simp_all [choices, isStatement]
  all_goals simp_all [choices, isStatement]

end Phrase

/-- The declaration of an export. -/
def Form.exported? {α : Type} : Form α → Option α
  | .exportDeclaration _ _ _ declaration => declaration
  | _ => none

theorem Form.isPort_of_exported {α : Type} {form : Form α} {declaration : α}
    (h : form.exported? = some declaration) : form.isPort = true := by
  cases form <;> first | rfl | cases h

section Clean
variable {faulty : Prop} {ph ph' : Phrase} {ctx ctx' : Context} {form : Form Node} {n d : Node}

/-- A statement of strict code outside of functions declares something, or else it is free. -/
def Node.IsFree (n : Node) : Prop := n.kind.isDeclaration = true ∨ n.kind.isFreeStatement = true

theorem Node.IsFree.not_port (h : n.IsFree) : n.form.isPort = false := by
  obtain ⟨header, form⟩ := n
  cases form <;> first | rfl | (rcases h with h | h <;> cases h)

theorem Production.isFree {header : Header} {ps : List Part} (hclean : ¬ faulty)
    (h : Production faulty ph ctx form ps) (hph : ph.isStatement = true)
    (hstrict : ctx.isStrict = true) (hreturn : ctx.has .returnStatement = false) :
    (Node.mk header form).IsFree := by
  cases h
  case returnStatement hctx =>
    have := hctx.resolve_left hclean
    rw [hreturn] at this
    cases this
  case withStatement hctx =>
    have := hctx.resolve_left hclean
    rw [hstrict] at this
    cases this
  case function placement _ _ _ _ _ _ _ | classLike placement _ _ _ _ _ _ =>
    cases placement with
    | declaration => exact .inl rfl
    | expression => cases hph
  case variableStatement lexical _ => cases lexical <;> exact .inl rfl
  case forEach sort _ _ _ _ | jump sort _ => cases sort <;> exact .inr rfl
  case signature sort _ _ _ | combinedType sort _ _ _ => cases sort <;> cases hph
  all_goals first | (cases hph; done) | exact .inl rfl | exact .inr rfl

theorem Leaf.not_statement {r : Reading} (h : Leaf faulty r ph ctx form) :
    ph.isStatement = false := by
  cases h <;> rfl

theorem Parsed.isFree {p : Part} (hclean : ¬ faulty) (h : Parsed faulty p)
    (hph : p.phrase.isStatement = true) (hstrict : p.ctx.isStrict = true)
    (hreturn : p.ctx.has .returnStatement = false) : p.node.IsFree := by
  induction h with
  | node hp => exact hp.isFree hclean hph hstrict hreturn
  | leaf _ hl =>
    have := hl.not_statement
    rw [hph] at this
    cases this
  | missing hf => exact absurd hf hclean
  | serve _ hs ih =>
    cases hs with
    | choice hs => exact ih (Phrase.isStatement_of_choice hs hph) hstrict hreturn
    | functionBody => exact ih rfl hstrict hreturn
    | classBody hf | innerImport hf | innerExport hf => exact absurd hf hclean
    | _ => cases hph
  | simple | parenthesized => cases hph
  | @deeper n ph ctx _ ih =>
    refine ih ?_ hstrict hreturn
    cases ph <;> exact hph

/-- The declaration of an export has been read as such, in the context of the export. -/
theorem Parsed.exported {p : Part} (hclean : ¬ faulty) (h : Parsed faulty p)
    (hport : p.phrase.isPort = true) (hform : p.node.form.exported? = some d) :
    Parsed faulty ⟨.declaration, p.ctx, d⟩ := by
  induction h with
  | node hp hparts =>
    cases hp with
    | exportDeclared =>
      cases hform
      exact hparts _ (List.mem_singleton_self _)
    | _ => cases hform
  | leaf _ hl => cases hl <;> cases hport
  | missing hf => exact absurd hf hclean
  | @serve n ph ph' ctx ctx' hn hs ih =>
    have hstands := hn.standsFor hclean
    have hph := hstands.port (Form.isPort_of_exported hform)
    cases hs with
    | choice => exact ih hph hform
    | innerImport hf | innerExport hf => exact absurd hf hclean
    | _ => cases hport
  | simple | parenthesized => cases hport
  | @deeper n ph ctx _ ih =>
    refine ih ?_ hform
    cases ph <;> exact hport

end Clean

/-! ## Sources -/

/-- A child stands behind an edge. -/
theorem Node.exists_edge {n c : Node} (h : c ∈ n.children) : ∃ name before, n.Edge name before c := by
  obtain ⟨field, hfield, hc⟩ := List.mem_flatMap.mp h
  obtain ⟨before, after, hchildren⟩ := List.append_of_mem hc
  exact ⟨field.name, before, field, hfield, rfl, after, hchildren⟩

theorem Node.Placed.within {options : ParseOptions} {place : Place} {root n : Node}
    (h : root.Placed options place) (hn : n.Within root) : ∃ place', n.Placed options place' := by
  induction hn with
  | root => exact ⟨place, h⟩
  | child _ hc ih =>
    obtain ⟨_, -, hinner⟩ := ih h
    obtain ⟨name, before, he⟩ := Node.exists_edge hc
    exact ⟨_, hinner name before _ he⟩

/-- A source is no part of anything. -/
theorem Parsed.not_source {faulty : Prop} {p : Part} (h : Parsed faulty p) :
    ∀ n : Node, n.Within p.node → ∀ goal statements, n.form ≠ .sourceBody goal statements := by
  refine h.forall_within (fun hp _ => ?_) (fun {_ r _ _ _} hl => ?_) (fun ha => ?_) (fun _ => nofun)
    (fun _ _ => nofun) fun _ _ => nofun
  · cases hp <;> exact nofun
  · have hname : ∀ goal statements, Grammar.nameForm r ≠ .sourceBody goal statements := by
      unfold Grammar.nameForm
      split <;> exact nofun
    cases hl <;> first | exact hname | exact nofun
  · cases ha <;> exact nofun

/-- Where nothing is reported, imports and exports are statements of a module. -/
theorem parse_ports (source : String) (options : ParseOptions)
    (hclean : (parse source options).diagnostics = ∅) {n : Node}
    (hn : n.Within (parse source options).root) (hport : n.form.isPort = true) :
    options.goal = .module ∧ n ∈ (parse source options).root.children := by
  have hplaced := parse_placed source options hclean
  obtain ⟨header, statements, hroot, hparsed⟩ := parse_parsed source options
  cases hn with
  | root =>
    rw [hroot] at hport
    cases hport
  | @child _ m _ hm hc =>
    obtain ⟨_, hplace, -⟩ := hplaced.within hm
    obtain ⟨name, before, he⟩ := Node.exists_edge hc
    obtain ⟨_, hsource⟩ := hplace.ports name before n he hport
    rw [hroot] at hm
    rcases Node.within_iff.mp hm with rfl | ⟨c, hstatement, hin⟩
    · obtain ⟨hgoal, -⟩ := Form.sourceBody.inj hsource
      exact ⟨hgoal, hroot ▸ hc⟩
    · have hmem : c ∈ statements ++ [] := hstatement
      rw [List.append_nil, ← body_nodes _ _ statements] at hmem
      obtain ⟨p, hp, rfl⟩ := List.mem_map.mp hmem
      exact absurd hsource ((hparsed p hp).not_source m hin _ _)

/-- Where nothing is reported, the declaration of an export is a declaration or another statement
that may stand at the top of a module, but neither an import nor an export. -/
theorem parse_exports (source : String) (options : ParseOptions)
    (hclean : (parse source options).diagnostics = ∅) {n d : Node}
    (hn : n.Within (parse source options).root) (hform : n.form.exported? = some d) :
    n ∈ (parse source options).root.children ∧ d.IsFree ∧ d.form.isPort = false := by
  obtain ⟨hgoal, hmem⟩ := parse_ports source options hclean hn (Form.isPort_of_exported hform)
  refine ⟨hmem, ?_⟩
  obtain ⟨header, statements, hroot, hparsed⟩ := parse_parsed source options
  have hchildren : (parse source options).root.children = statements := by
    rw [hroot]
    exact List.append_nil _
  rw [hchildren] at hmem
  obtain ⟨before, after, rfl⟩ := List.append_of_mem hmem
  have hp := hparsed _ mem_body
  have hnot : ¬ (parse source options).diagnostics ≠ ∅ := by simp [hclean]
  have hpush := push_within ⟨.ofOptions options, true, #[]⟩ before (seat_ofOptions options)
  have hd := hp.exported hnot (by rw [isModule_ofOptions, hgoal]; rfl) hform
  have hfree := hd.isFree hnot rfl (hpush.strict (by simp [Place.seat, Place.ofOptions, hgoal]))
    (Bool.eq_false_iff.mpr fun hr => nomatch hpush.returns hr)
  exact ⟨hfree, hfree.not_port⟩

/-- A class is exported as such. -/
theorem class_exported :
    (parse "export class A \x7b\x7d" { goal := .module }).diagnostics = ∅ ∧ ∃ n d : Node,
      n.Within (parse "export class A \x7b\x7d" { goal := .module }).root ∧
      n.form.exported? = some d ∧ d.kind = .classDeclaration ∧ d.IsFree := by
  have hclean : (parse "export class A \x7b\x7d" { goal := .module }).diagnostics = ∅ := by
    decide +kernel
  have hpath : ((parse "export class A \x7b\x7d" { goal := .module }).root.at?
      [("statements", 0)]).any (·.form.exported?.any (·.kind == .classDeclaration)) = true := by
    decide +kernel
  obtain ⟨n, hwithin, hn⟩ := Node.within_of_any hpath
  obtain ⟨d, hd, hkind⟩ := (Option.any_eq_true _ _).mp hn
  exact ⟨hclean, n, d, hwithin, hd, eq_of_beq hkind, (parse_exports _ _ hclean hwithin hd).2.1⟩

/-- The word `export` stands before an expression, and nothing is reported. -/
theorem expression_exported :
    (parse "export foo;" { goal := .module }).diagnostics = ∅ ∧ ∃ n d : Node,
      n.Within (parse "export foo;" { goal := .module }).root ∧
      n.form.exported? = some d ∧ d.kind = .expressionStatement ∧ d.kind.isDeclaration = false := by
  have hpath : ((parse "export foo;" { goal := .module }).root.at?
      [("statements", 0)]).any (·.form.exported?.any (·.kind == .expressionStatement)) = true := by
    decide +kernel
  obtain ⟨n, hwithin, hn⟩ := Node.within_of_any hpath
  obtain ⟨d, hd, hkind⟩ := (Option.any_eq_true _ _).mp hn
  have hkind := eq_of_beq hkind
  exact ⟨by decide +kernel, n, d, hwithin, hd, hkind, hkind ▸ rfl⟩

end EcmaSyntax
