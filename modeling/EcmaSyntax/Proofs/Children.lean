import EcmaSyntax.Proofs.Spans

/-! # Children of elements in trees

In a tree without diagnostics the children of an element lie between its tags without a gap, the
texts among them are kept apart, and both tags have one name. -/
namespace EcmaSyntax

/-- The opening tag of an element, its children and its closing tag. -/
def Form.element? {α : Type} : Form α → Option (α × α × α)
  | .jsxElement opening children closing => some (opening, children, closing)
  | _ => none

theorem Form.element?_eq_some {α : Type} {form : Form α} {opening children closing : α}
    (h : form.element? = some (opening, children, closing)) :
    form = .jsxElement opening children closing := by
  unfold element? at h
  split at h <;> cases h
  rfl

/-- If a node is an element, its children cover what stands between its tags. -/
def Node.Covered (n : Node) : Prop := ∀ e ∈ n.form.element?, Tiled e.1 e.2.1 e.2.2

section Cases
variable {faulty : Prop} {ph : Phrase} {ctx : Context} {form : Form Node} {header : Header}

theorem Node.Covered.of_none (h : form.element? = none) : (Node.mk header form).Covered := by
  intro e he
  cases h.symm.trans he

theorem Production.covered {ps : List Part} (h : Production faulty ph ctx form ps)
    (hclean : ¬ faulty) : (Node.mk header form).Covered := by
  intro e he
  obtain rfl := Form.element?_eq_some (Option.mem_def.mp he)
  cases h with
  | element htiled => exact htiled.resolve_left hclean

theorem Leaf.covered {r : Reading} (h : Leaf faulty r ph ctx form) :
    (Node.mk header form).Covered := by
  have hname : (Grammar.nameForm r).element? = none := by
    unfold Grammar.nameForm
    split <;> rfl
  exact .of_none (by cases h <;> first | exact hname | rfl)

theorem Parsed.covered {p : Part} (h : Parsed faulty p) (hclean : ¬ faulty) :
    ∀ n : Node, n.Within p.node → n.Covered :=
  h.forall_within (fun hp _ => hp.covered hclean) Leaf.covered
    (fun ha => .of_none (by cases ha <;> rfl)) (fun _ => .of_none rfl) (fun _ _ => .of_none rfl)
    (fun _ _ => .of_none rfl)

end Cases

/-- In a tree without diagnostics, the children of an element lie one behind the other from the end
of the opening tag to the start of the closing one, which has the same name. -/
theorem parse_children_tiled (source : String) (options : ParseOptions)
    (hclean : (parse source options).diagnostics = ∅) {n opening children closing : Node}
    (hn : n.Within (parse source options).root)
    (hform : n.form = .jsxElement opening children closing) :
    ∃ tag typeArguments attributes nodes tag',
      opening.form = .jsxOpening false tag typeArguments attributes ∧
      children.form = .jsxChildren nodes ∧ closing.form = .jsxClosing tag' ∧
      tag.tagPath = tag'.tagPath ∧ Tiles opening.range.stop nodes closing.range.pos ∧
      (nodes = [] ↔ opening.range.stop = closing.range.pos) ∧ Apart nodes := by
  have hcovered : n.Covered := by
    rcases parse_within hn with ⟨header, statements, rfl⟩ | ⟨p, hp, hin⟩
    · exact .of_none rfl
    · exact hp.covered (fun hne => hne hclean) n hin
  have htiled : Tiled opening children closing :=
    hcovered (opening, children, closing) (by rw [hform]; rfl)
  obtain ⟨tag, typeArguments, attributes, nodes, tag', hopening, hchildren, hclosing, hpath,
    htiles, hapart⟩ := htiled.exists_parts
  exact ⟨tag, typeArguments, attributes, nodes, tag', hopening, hchildren, hclosing, hpath,
    htiles, htiles.eq_nil_iff, hapart⟩

/-- A text, an expression, a tag of its own and another text between dotted tags. -/
theorem dotted_children_tiled : let r := parse "<a.b> c \x7bd\x7d<e/>f</a.b>;" { jsx := true }
    r.diagnostics = ∅ ∧ ∃ n opening children closing : Node,
      n.Within r.root ∧ n.form = .jsxElement opening children closing ∧
        ∃ nodes, children.form = .jsxChildren nodes ∧
          Tiles opening.range.stop nodes closing.range.pos ∧ Apart nodes := by
  intro r
  have hclean : r.diagnostics = ∅ := by decide +kernel
  have hpath : (r.root.at? [("statements", 0), ("expression", 0)]).any (·.form.element?.isSome) =
      true := by decide +kernel
  obtain ⟨n, hwithin, hsome⟩ := Node.within_of_any hpath
  obtain ⟨⟨opening, children, closing⟩, helement⟩ := Option.isSome_iff_exists.mp hsome
  have hform := Form.element?_eq_some helement
  obtain ⟨_, _, _, nodes, _, _, hchildren, _, _, htiles, _, hapart⟩ :=
    parse_children_tiled _ _ hclean hwithin hform
  exact ⟨hclean, n, opening, children, closing, hwithin, hform, nodes, hchildren, htiles, hapart⟩

end EcmaSyntax
