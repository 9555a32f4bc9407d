import EcmaSyntax.Proofs.Edges

/-! # Levels of types

Types are read at levels. A union consists of intersections, an intersection of operators and
function types, an operator stands before a type with brackets behind it, and these stand behind a
type that needs no brackets itself. Above all of them are conditional types, and the marks of tuple
elements. What is not allowed at a level can only be written there between parentheses. -/
namespace EcmaSyntax
open Part

/-! ## Levels -/

/-- The level at which a type of a kind is read. What is no compound of types is at the lowest. -/
def Kind.typeLevel : Kind → Nat
  | .restType => 7
  | .optionalType => 6
  | .conditionalType => 5
  | .unionType => 4
  | .intersectionType => 3
  | .functionType | .constructorType => 2
  | .typeOperator | .inferType => 1
  | _ => 0

/-- The highest level that a child may have, by the field that holds it. -/
def Form.typeBound {α : Type} (form : Form α) (name : String) : Nat :=
  match form with
  | .tupleType _ => 7
  | .wrappedType .rest _ => 6
  | .conditionalType .. => if name = "check_type" ∨ name = "extends_type" then 4 else 5
  | .combinedType .union _ => 3
  | .combinedType .intersection _ => 2
  | .typeOperator .. => 1
  | .arrayType _ => 0
  | .indexedAccessType .. => if name = "object_type" then 0 else 5
  | _ => 5

/-- The children of a node are of levels that it may hold, and a type that joins others has more
than one of them. -/
structure Node.TypesLeveled (n : Node) : Prop where
  joined : ∀ sort types, n.form = .combinedType sort types → 2 ≤ types.length
  bounded : ∀ e ∈ n.form.edges, e.2.kind.typeLevel ≤ n.form.typeBound e.1

/-- The level of types in a context, which may leave conditional types out. -/
def Context.typeLevel (ctx : Context) : Nat := if ctx.has .conditionalTypes then 5 else 4

namespace Context
variable {ctx : Context}

@[simp] theorem typeLevel_le : ctx.typeLevel ≤ 5 := by
  unfold typeLevel
  split <;> decide

@[simp] theorem le_typeLevel : 4 ≤ ctx.typeLevel := by
  unfold typeLevel
  split <;> decide

@[simp] theorem typeLevel_excluding : (ctx.excluding [.conditionalTypes]).typeLevel = 4 := by
  simp [typeLevel]

end Context

/-- The highest level that can stand for a phrase. -/
def Phrase.typeLevel (ctx : Context) : Phrase → Nat
  | .tupleElement => 7
  | .elementType => 6
  | .type | .typeOrPredicate | .assertedType => ctx.typeLevel
  | .unionType => 4
  | .intersectionType => 3
  | .intersectionMember | .functionType => 2
  | .typeOperator => 1
  | _ => 0

section Cases
variable {faulty : Prop} {ph ph' : Phrase} {ctx ctx' : Context} {form : Form Node} {n : Node}

theorem Phrase.typeLevel_of_choice (h : ph ∈ ph'.choices) :
    ph.typeLevel ctx ≤ ph'.typeLevel ctx := by
  revert ph
  cases ph'
  case item inModule => cases inModule <;> simp [choices, typeLevel]
  case elementType =>
    have hle : ctx.typeLevel ≤ 6 := Nat.le_succ_of_le Context.typeLevel_le
    simp [choices, typeLevel, hle]
  case type =>
    have hle : 2 ≤ ctx.typeLevel := Nat.le_trans (by decide) Context.le_typeLevel
    simp [choices, typeLevel, hle]
  all_goals simp [choices, typeLevel]

/-- A class of tokens that holds no compound types. -/
theorem Kind.typeLevel_eq_zero {test : Kind → Bool} {k : Kind} (hk : test k = true)
    (hnone : [Kind.restType, .optionalType, .conditionalType, .unionType, .intersectionType,
      .functionType, .constructorType, .typeOperator, .inferType].all (!test ·) = true) :
    k.typeLevel = 0 := by
  unfold typeLevel
  split
  case h_10 => rfl
  all_goals simp [hk] at hnone

theorem Production.typeLevel_le {h : Header} {ps : List Part}
    (hp : Production faulty ph ctx form ps) :
    (Node.mk h form).kind.typeLevel ≤ ph.typeLevel ctx := by
  cases hp
  case keywordType k hk => exact Nat.le_of_eq (Kind.typeLevel_eq_zero hk rfl)
  case conditionalType hconditional =>
    rw [Phrase.typeLevel, Context.typeLevel, if_pos hconditional]
    exact Nat.le_refl 5
  case signature sort _ _ _ => cases sort <;> exact Nat.le_of_ble_eq_true rfl
  case combinedType sort _ _ _ => cases sort <;> exact Nat.le_of_ble_eq_true rfl
  case function sort _ _ _ _ _ _ _ | method sort _ _ _ _ _ _ _ _ _ | classLike sort _ _ _ _ _ _
  | typeAssertion sort _ _ _ | variableStatement sort _ | specifier sort _ _ _
  | specifiers sort _ | forEach sort _ _ _ _ | jump sort _ =>
    cases sort <;> exact Nat.zero_le _
  case caseClause e _ => cases e <;> exact Nat.zero_le _
  all_goals exact Nat.le_of_ble_eq_true rfl

theorem Leaf.typeLevel_eq_zero {h : Header} {r : Reading} (hl : Leaf faulty r ph ctx form) :
    (Node.mk h form).kind.typeLevel = 0 := by
  have hname : (Node.mk h (Grammar.nameForm r)).kind.typeLevel = 0 := by
    unfold Grammar.nameForm
    split <;> rfl
  cases hl with
  | literal hk | keyword hk => exact Kind.typeLevel_eq_zero hk rfl
  | childText => rfl
  | _ => exact hname

theorem Serves.typeLevel_le (hs : Serves faulty n ph ctx ph' ctx') :
    ph.typeLevel ctx ≤ ph'.typeLevel ctx' := by
  cases hs with
  | choice h => exact Phrase.typeLevel_of_choice h
  | _ => exact Nat.zero_le _

/-- What stands for a phrase is of no higher level. -/
theorem Parsed.typeLevel_le {p : Part} (h : Parsed faulty p) :
    p.node.kind.typeLevel ≤ p.phrase.typeLevel p.ctx := by
  induction h with
  | node hp => exact hp.typeLevel_le
  | leaf _ hl => exact hl.typeLevel_eq_zero ▸ Nat.zero_le _
  | missing _ ha => cases ha <;> exact Nat.zero_le _
  | serve _ hs ih => exact Nat.le_trans ih hs.typeLevel_le
  | simple | parenthesized => exact Nat.zero_le _
  | @deeper n ph ctx _ ih => cases ph <;> exact ih

end Cases

/-! ## Parts of a node -/

/-- A part is of no higher level than the edge to it allows. -/
structure Leveled (form : Form Node) (edge : String × Node) (p : Part) : Prop where
  node_eq : p.node = edge.2
  level : p.phrase.typeLevel p.ctx ≤ form.typeBound edge.1

theorem leveled_iff {form : Form Node} {name : String} {ctx : Context} {n : Node} {ph : Phrase} :
    Leveled form (name, n) ⟨ph, ctx, n⟩ ↔ ph.typeLevel ctx ≤ form.typeBound name :=
  ⟨fun h => h.level, fun h => ⟨rfl, h⟩⟩

theorem Production.levels {faulty : Prop} {ph : Phrase} {ctx : Context} {form : Form Node}
    {ps : List Part} (h : Production faulty ph ctx form ps) :
    List.Forall₂ (Leveled form) form.edges ps := by
  cases h <;>
    simp only [Form.edges, Form.fields, Field.children, Field.name, List.flatMap_cons,
      List.flatMap_nil, List.map_cons, List.map_nil, List.append_nil, List.append_assoc,
      List.cons_append, List.nil_append, opt, optAll, Option.toList_none, Option.toList_some,
      Option.getD_none, forall_all, forall_all_last, List.forall₂_cons,
      List.forall₂_nil_left_iff, leveled_iff]
  case block => exact forall_body fun _ _ => ⟨rfl, Nat.zero_le _⟩
  case caseClause => exact ⟨fun _ _ => Nat.zero_le _, forall_body fun _ _ => ⟨rfl, Nat.zero_le _⟩⟩
  case' combinedType sort _ _ _ => cases sort
  all_goals simp [Phrase.typeLevel, Phrase.joined, Form.typeBound]

/-! ## Trees -/

section Trees
variable {faulty : Prop} {ph : Phrase} {ctx : Context} {form : Form Node} {n : Node}

theorem Production.typesLeveled {h : Header} {ps : List Part}
    (hp : Production faulty ph ctx form ps) (hparts : ∀ p ∈ ps, Parsed faulty p) :
    (Node.mk h form).TypesLeveled := by
  refine ⟨fun sort types heq => ?_, fun e he => ?_⟩
  · obtain rfl : form = _ := heq
    cases hp with
    | combinedType hne => exact Nat.succ_le_succ (List.length_pos_iff.mpr hne)
  · obtain ⟨p, hmem, hleveled⟩ := exists_of_forall₂ hp.levels he
    rw [← hleveled.node_eq]
    exact Nat.le_trans (hparts p hmem).typeLevel_le hleveled.level

/-- A node that is itself no type, over children without marks of tuple elements. -/
theorem Node.TypesLeveled.of_plain (hform : ∀ sort types, n.form ≠ .combinedType sort types)
    (hbound : ∀ name, n.form.typeBound name = 5)
    (h : ∀ e ∈ n.form.edges, e.2.kind.typeLevel ≤ 5) : n.TypesLeveled :=
  ⟨fun sort types heq => absurd heq (hform sort types), fun e he => hbound e.1 ▸ h e he⟩

theorem Node.TypesLeveled.of_childless (hform : ∀ sort types, n.form ≠ .combinedType sort types)
    (hedges : n.form.edges = []) : n.TypesLeveled :=
  ⟨fun sort types heq => absurd heq (hform sort types), hedges ▸ nofun⟩

theorem Leaf.typesLeveled {h : Header} {r : Reading} (hl : Leaf faulty r ph ctx form) :
    (Node.mk h form).All Node.TypesLeveled := by
  have hname : (Node.mk h (Grammar.nameForm r)).All Node.TypesLeveled := by
    unfold Grammar.nameForm
    split <;> exact .childless rfl (.of_childless nofun rfl)
  cases hl <;> first | exact hname | exact .childless rfl (.of_childless nofun rfl)

/-- A tree whose types are leveled, with a root that can stand wherever a type may. -/
def Node.Graded (n : Node) : Prop := n.All TypesLeveled ∧ n.kind.typeLevel ≤ 5

theorem Node.All.graded (h : n.All TypesLeveled) (hbound : ∀ name, n.form.typeBound name = 5)
    {e : String × Node} (he : e ∈ n.form.edges) : e.2.Graded := by
  obtain ⟨hleveled, hinner⟩ := h
  exact ⟨hinner e he, hbound e.1 ▸ hleveled.bounded e he⟩

namespace Grammar

theorem graded_joined {left right : Node} (hleft : left.Graded) (hright : right.Graded) :
    (commaJoined left right).Graded := by
  refine ⟨.intro (.of_plain nofun (fun _ => rfl) ?_) ?_, Nat.zero_le _⟩ <;>
    simp [commaJoined, Node.form, Form.edges, Form.fields, Field.children, Field.name, hleft.1,
      hleft.2, hright.1, hright.2]

theorem graded_element {arguments e : Node} (h : arguments.All Node.TypesLeveled)
    (he : e ∈ argumentElements arguments) : (elementExpression e).Graded := by
  have helement : e.Graded := by
    unfold argumentElements at he
    split at he
    case h_1 elements _ hform =>
      refine h.graded (by rw [hform]; exact fun _ => rfl) (e := ("elements", e)) ?_
      simp [hform, Form.edges, Form.fields, Field.children, Field.name, he]
    case h_2 => cases he
  unfold elementExpression
  split
  case h_1 binding _ _ _ hform =>
    refine helement.1.graded (by rw [hform]; exact fun _ => rfl) (e := ("binding", binding)) ?_
    simp [hform, Form.edges, Form.fields, Field.children, Field.name]
  case h_2 => exact helement

end Grammar

theorem Parsed.typesLeveled {p : Part} (h : Parsed faulty p) : p.node.All Node.TypesLeveled := by
  induction h with
  | node hp hparts ih =>
    refine .intro (hp.typesLeveled hparts) fun e he => ?_
    obtain ⟨p, hmem, hleveled⟩ := exists_of_forall₂ hp.levels he
    exact hleveled.node_eq ▸ ih p hmem
  | leaf _ hl => exact hl.typesLeveled
  | missing _ ha hparts ih =>
    cases ha with
    | type ctx name | closing ctx name =>
      have hname := ih _ (List.mem_singleton_self _)
      have hlevel := (hparts _ (List.mem_singleton_self _)).typeLevel_le
      refine .intro (.of_plain nofun (fun _ => rfl) ?_) ?_
      · exact List.forall_mem_singleton.mpr (Nat.le_trans hlevel (Nat.zero_le 5))
      · exact List.forall_mem_singleton.mpr hname
    | _ => exact .childless rfl (.of_childless nofun rfl)
  | serve _ _ ih => exact ih
  | @simple ctx n hn ih =>
    refine .intro (.of_plain nofun (fun _ => rfl) ?_) ?_
    · exact List.forall_mem_singleton.mpr (Nat.le_trans hn.typeLevel_le (Nat.zero_le 5))
    · exact List.forall_mem_singleton.mpr ih
  | parenthesized _ _ hr ih =>
    obtain ⟨hinner, hlevel⟩ := hr.induct (P := Node.Graded) (fun _ _ => Grammar.graded_joined)
      (fun e he => Grammar.graded_element ih he)
      fun _ => ⟨.childless rfl (.of_childless nofun rfl), Nat.zero_le _⟩
    refine .intro (.of_plain nofun (fun _ => rfl) ?_) ?_
    · exact List.forall_mem_singleton.mpr hlevel
    · exact List.forall_mem_singleton.mpr hinner
  | deeper _ ih => exact ih

end Trees

/-! ## Sources -/

/-- In every tree, a type holds types of the levels below it: no union of unions, no array of a
function type without parentheses, no mark of a tuple element elsewhere. -/
theorem parse_types_leveled (source : String) (options : ParseOptions) {n : Node}
    (hn : n.Within (parse source options).root) : n.TypesLeveled := by
  obtain ⟨h, statements, hroot, hparsed⟩ := parse_parsed source options
  have hstatement : ∀ c ∈ statements, c.Graded := by
    intro c hc
    obtain ⟨before, after, rfl⟩ := List.append_of_mem hc
    have hp := hparsed _ mem_body
    exact ⟨hp.typesLeveled, Nat.le_trans hp.typeLevel_le (Nat.zero_le 5)⟩
  have hall : (Node.mk h (.sourceBody options.goal statements)).All Node.TypesLeveled := by
    refine .intro (.of_plain nofun (fun _ => rfl) ?_) ?_
    · simpa [Node.form, Form.edges, Form.fields, Field.children, Field.name] using
        fun c hc => (hstatement c hc).2
    · simpa [Node.form, Form.edges, Form.fields, Field.children, Field.name] using
        fun c hc => (hstatement c hc).1
  rw [hroot] at hn
  obtain ⟨hleveled, -⟩ := hall.within hn
  exact hleveled

/-- A union in brackets, and a conditional type as a tuple element with both marks. -/
theorem marked_tuple_leveled :
    ∃ n : Node, n.Within
      (parse "let x: [(keyof A | B)[], ...(A extends infer U ? U : B)?];" {}).root ∧
      n.kind = .tupleType ∧ n.TypesLeveled := by
  have hpath : (
      (parse "let x: [(keyof A | B)[], ...(A extends infer U ? U : B)?];" {}).root.at?
      [("statements", 0), ("declaration_list", 0), ("declarations", 0),
        ("type_annotation", 0)]).any (·.kind == .tupleType) = true := by
    decide +kernel
  obtain ⟨n, hwithin, hn⟩ := Node.within_of_any hpath
  exact ⟨n, hwithin, eq_of_beq hn, parse_types_leveled _ _ hwithin⟩

end EcmaSyntax
