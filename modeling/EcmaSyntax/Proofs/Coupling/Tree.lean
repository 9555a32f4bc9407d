import EcmaSyntax.Proofs.Features

/-! # Matching trees

Two trees match if they have the same shape, with everything that is written in their forms, and
the headers at the same places are in a given relation. Two nodes that match are kept together as a
pair, so that a form over pairs is at once a form over the left nodes and one over the right
nodes. -/
namespace EcmaSyntax

namespace Form
variable {α β : Type} {f g : α → β}

theorem optionMap_congr {o : Option α} (h : ∀ a ∈ o.toList, f a = g a) : o.map f = o.map g := by
  cases o with
  | none => rfl
  | some a => exact congrArg some (h a List.mem_cons_self)

theorem optionListMap_congr {o : Option (List α)} (h : ∀ a ∈ o.getD [], f a = g a) :
    o.map (List.map f) = o.map (List.map g) := by
  cases o with
  | none => rfl
  | some as => exact congrArg some (List.map_congr_left h)

instance : LawfulFunctor Form where
  map_const := rfl
  id_map form := by
    cases form <;> simp only [Functor.map, Form.map, Option.map_id_fun, List.map_id_fun, id_eq]
  comp_map f g form := by
    cases form <;> simp only [Functor.map, Form.map, Option.map_map, List.map_map, List.map_comp_map,
      Function.comp_apply]

/-- Two functions that agree on the children of a form lead to the same form. -/
theorem map_congr {form : Form α} (h : ∀ a ∈ form.children, f a = g a) : f <$> form = g <$> form := by
  cases form <;>
    simp only [Functor.map, Form.map] <;>
    simp only [children, fields, Field.children, List.flatMap_cons, List.flatMap_nil,
      List.append_nil, List.nil_append, List.mem_append, List.mem_cons, List.not_mem_nil,
      or_false] at h <;>
    grind [optionMap_congr, optionListMap_congr, List.map_congr_left]

theorem getD_map (f : α → β) (o : Option (List α)) :
    (o.map (List.map f)).getD [] = (o.getD []).map f := by
  cases o <;> rfl

theorem toList_map (f : α → β) (o : Option α) : (o.map f).toList = o.toList.map f := by
  cases o <;> rfl

theorem children_map (f : α → β) (form : Form α) :
    (f <$> form).children = form.children.map f := by
  cases form <;> simp [Functor.map, Form.map, children, fields, Field.children, getD_map,
    toList_map]

theorem kind_map (f : α → β) (form : Form α) : (f <$> form).kind = form.kind := by
  cases form with
  | sourceBody sort | function sort | classLike sort | namespaceBinding sort
  | namedSpecifiers sort | specifier sort => cases sort <;> rfl
  | caseClause expression => cases expression <;> rfl
  | _ => rfl

end Form

/-! ## Matching nodes -/

/-- Two nodes of the same form whose headers are in a relation, and so at every depth. -/
inductive Node.Matches (H : Header → Header → Prop) : Node → Node → Prop
  | intro {n n' : Node} (form : Form (Node × Node)) : H n.header n'.header →
      n.form = Prod.fst <$> form → n'.form = Prod.snd <$> form →
      (∀ p ∈ form.children, Matches H p.1 p.2) → Matches H n n'

namespace Node.Matches
variable {H H' : Header → Header → Prop} {n n' : Node}

theorem header (h : n.Matches H n') : H n.header n'.header := by
  obtain ⟨_, hheader, _⟩ := h
  exact hheader

theorem mono (hH : ∀ h h', H h h' → H' h h') (h : n.Matches H n') : n.Matches H' n' := by
  induction h with
  | intro form hheader hform hform' _ ih => exact .intro form (hH _ _ hheader) hform hform' ih

/-- Trees that match in their whole headers are the same. -/
theorem eq (h : n.Matches Eq n') : n = n' := by
  induction h with
  | @intro n n' form hheader hform hform' _ ih =>
    obtain ⟨header, _⟩ := n
    obtain ⟨header', _⟩ := n'
    obtain rfl : header = header' := hheader
    refine congrArg (Node.mk header) ?_
    exact hform.trans ((Form.map_congr ih).trans hform'.symm)

theorem kind_eq (h : n.Matches H n') : n'.kind = n.kind := by
  obtain ⟨form, -, hform, hform', -⟩ := h
  rw [kind, kind, hform, hform', Form.kind_map, Form.kind_map]

/-- What is told by the form of a node without a look into the children is the same. -/
theorem shape_eq {β : Type} {q : Node → β} (h : n.Matches H n')
    (hheader : ∀ (h h' : Header) (form : Form Node), q (.mk h form) = q (.mk h' form))
    (hform : ∀ (h : Header) (form : Form (Node × Node)),
      q (.mk h (Prod.snd <$> form)) = q (.mk h (Prod.fst <$> form))) : q n' = q n := by
  obtain ⟨form, -, hleft, hright, -⟩ := h
  obtain ⟨header, _⟩ := n
  obtain ⟨header', _⟩ := n'
  cases hleft
  cases hright
  exact (hheader _ _ _).trans (hform header form)

section Shapes
variable (h : n.Matches H n')
include h

theorem isIdentifier_eq : n'.isIdentifier = n.isIdentifier :=
  h.shape_eq (fun _ _ _ => rfl) fun _ form => by cases form <;> rfl

theorem isArrayOrObjectLiteral_eq : n'.isArrayOrObjectLiteral = n.isArrayOrObjectLiteral :=
  h.shape_eq (fun _ _ _ => rfl) fun _ form => by cases form <;> rfl

theorem isIdentifierOrPattern_eq : n'.isIdentifierOrPattern = n.isIdentifierOrPattern := by
  rw [isIdentifierOrPattern, h.isIdentifier_eq, h.isArrayOrObjectLiteral_eq]
  rfl

theorem isParameter_eq : n'.isParameter = n.isParameter :=
  h.shape_eq (fun _ _ _ => rfl) fun _ form => by cases form <;> rfl

theorem isSpread_eq : n'.isSpread = n.isSpread :=
  h.shape_eq (fun _ _ _ => rfl) fun _ form => by cases form <;> rfl

theorem isArrowParameters_eq : n'.isArrowParameters = n.isArrowParameters :=
  h.shape_eq (fun _ _ _ => rfl) fun _ form => by cases form <;> rfl

theorem isArrowFunction_eq : n'.isArrowFunction = n.isArrowFunction :=
  h.shape_eq (fun _ _ _ => rfl) fun _ form => by cases form <;> rfl

theorem isLeftHandSide_eq : n'.isLeftHandSide = n.isLeftHandSide :=
  h.shape_eq (fun _ _ _ => rfl) fun _ form => by cases form <;> rfl

theorem identifierText_eq : n'.identifierText? = n.identifierText? :=
  h.shape_eq (fun _ _ _ => rfl) fun _ form => by cases form <;> rfl

theorem isRest_eq : Grammar.isRest n' = Grammar.isRest n :=
  h.shape_eq (fun _ _ _ => rfl) fun _ form => by cases form <;> rfl

theorem isConstructorName_eq : Grammar.isConstructorName n' = Grammar.isConstructorName n :=
  h.shape_eq (fun _ _ _ => rfl) fun _ form => by cases form <;> rfl

theorem endsInComma_eq : Grammar.endsInComma n' = Grammar.endsInComma n :=
  h.shape_eq (fun _ _ _ => rfl) fun _ form => by cases form <;> rfl

end Shapes
end Node.Matches

/-! ## Pairs -/

/-- Two nodes that match. -/
structure NodePair (H : Header → Header → Prop) where
  left : Node
  right : Node
  matched : left.Matches H right

namespace NodePair
variable {H : Header → Header → Prop}

/-- Both nodes of a pair. -/
def both (p : NodePair H) : Node × Node := (p.left, p.right)

/-- A form over pairs between two headers. -/
def ofForm {h h' : Header} (hh : H h h') (form : Form (NodePair H)) : NodePair H where
  left := .mk h (left <$> form)
  right := .mk h' (right <$> form)
  matched := by
    refine .intro (both <$> form) hh ?_ ?_ fun p hp => ?_
    · exact LawfulFunctor.comp_map both Prod.fst form
    · exact LawfulFunctor.comp_map both Prod.snd form
    · rw [Form.children_map] at hp
      obtain ⟨q, -, rfl⟩ := List.mem_map.mp hp
      exact q.matched

/-- Lists of nodes that match one by one are lists of pairs. -/
theorem exists_list {ls rs : List Node} (h : List.Forall₂ (Node.Matches H) ls rs) :
    ∃ qs : List (NodePair H), qs.map left = ls ∧ qs.map right = rs := by
  induction h with
  | nil => exact ⟨[], rfl, rfl⟩
  | cons hab _ ih =>
    obtain ⟨qs, rfl, rfl⟩ := ih
    exact ⟨⟨_, _, hab⟩ :: qs, rfl, rfl⟩

/-- The same form without children under two headers. -/
def ofLeaf {h h' : Header} (hh : H h h') (form : Form Node) (hform : form.children = []) :
    NodePair H where
  left := .mk h form
  right := .mk h' form
  matched := by
    refine .intro ((fun n => (n, n)) <$> form) hh ?_ ?_ fun p hp => ?_
    · exact ((LawfulFunctor.comp_map (fun n => (n, n)) Prod.fst form).symm.trans (id_map form)).symm
    · exact ((LawfulFunctor.comp_map (fun n => (n, n)) Prod.snd form).symm.trans (id_map form)).symm
    · rw [Form.children_map, hform] at hp
      cases hp

end NodePair
end EcmaSyntax
