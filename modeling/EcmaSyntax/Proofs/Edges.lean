import EcmaSyntax.Proofs.Grammar.Source
import Mathlib.Data.List.Forall2

/-! # Edges of trees

An edge leads from a node to a child, through the field that holds the child. A walk goes from the
root down along edges and keeps an account of them; how it does so is up to the question that it
answers. -/
namespace EcmaSyntax

namespace Form
variable {α : Type}

/-- The children of a form with the names of their fields. -/
def edges (form : Form α) : List (String × α) :=
  form.fields.flatMap fun field => field.children.map (Prod.mk field.name)

end Form

namespace Node

/-- A node holds a child in a field, behind other children in the same field. -/
def Edge (n : Node) (name : String) (before : List Node) (c : Node) : Prop :=
  ∃ field ∈ n.form.fields, field.name = name ∧ ∃ after, field.children = before ++ c :: after

theorem Edge.mem_edges {n c : Node} {name : String} {before : List Node}
    (h : n.Edge name before c) : (name, c) ∈ n.form.edges := by
  obtain ⟨field, hfield, rfl, after, hchildren⟩ := h
  refine List.mem_flatMap.mpr ⟨field, hfield, List.mem_map.mpr ⟨c, ?_, rfl⟩⟩
  simp [hchildren]

section Walks
variable {σ : Type} (step : σ → Node → String → List Node → σ)

/-- The nodes of a tree, each with the account of a walk to it. -/
inductive Walk (start : σ) (root : Node) : σ → Node → Prop
  | root : Walk start root start root
  | edge {s : σ} {n c : Node} {name : String} {before : List Node} : Walk start root s n →
      n.Edge name before c → Walk start root (step s n name before) c

/-- The field of a node with a name. -/
def field? (n : Node) (name : String) : Option (Field Node) :=
  n.form.fields.find? fun field => field.name == name

/-- Walks on along children that are given by their fields and places therein. -/
def follow (s : σ) (n : Node) : List (String × Nat) → Option (σ × Node)
  | [] => some (s, n)
  | (name, i) :: path =>
    match n.field? name with
    | none => none
    | some field =>
      match field.children.drop i with
      | [] => none
      | c :: _ => follow (step s n name (field.children.take i)) c path

variable {step}

theorem Walk.follow {start s t : σ} {root n m : Node} {path : List (String × Nat)}
    (h : root.Walk step start s n) (hpath : n.follow step s path = some (t, m)) :
    root.Walk step start t m := by
  induction path generalizing s n with
  | nil =>
    cases hpath
    exact h
  | cons link path ih =>
    obtain ⟨name, i⟩ := link
    unfold Node.follow at hpath
    split at hpath
    case h_1 => cases hpath
    case h_2 field hfield =>
      split at hpath
      case h_1 => cases hpath
      case h_2 c after hdrop =>
        unfold Node.field? at hfield
        refine ih (.edge h ⟨field, List.mem_of_find?_eq_some hfield, ?_, after, ?_⟩) hpath
        · simpa using List.find?_some hfield
        · rw [← hdrop, List.take_append_drop]

theorem Walk.exists_of_follow {start : σ} {root : Node} {path : List (String × Nat)}
    {p : σ × Node → Bool} (h : (root.follow step start path).any p = true) :
    ∃ s n, root.Walk step start s n ∧ p (s, n) = true := by
  obtain ⟨⟨s, n⟩, hfollow, hp⟩ := (Option.any_eq_true _ _).mp h
  exact ⟨s, n, Walk.root.follow hfollow, hp⟩

end Walks
end Node

/-! ## Nodes of a tree -/

/-- A node of a tree. -/
inductive Node.Within : Node → Node → Prop
  | root {root : Node} : Within root root
  | child {root n c : Node} : Within n root → c ∈ n.children → Within c root

theorem Node.Within.trans {root n m : Node} (h : n.Within m) (hm : m.Within root) :
    n.Within root := by
  induction h with
  | root => exact hm
  | child _ hc ih => exact .child (ih hm) hc

/-- A node of a tree is its root or a node beneath a child of the root. -/
theorem Node.within_iff {root n : Node} :
    n.Within root ↔ n = root ∨ ∃ c ∈ root.children, n.Within c := by
  constructor
  · intro h
    induction h with
    | root => exact .inl rfl
    | child _ hc ih =>
      rcases ih with rfl | ⟨d, hd, hn⟩
      · exact .inr ⟨_, hc, .root⟩
      · exact .inr ⟨d, hd, .child hn hc⟩
  · rintro (rfl | ⟨c, hc, hn⟩)
    · exact .root
    · exact hn.trans (.child .root hc)

theorem Form.children_eq_edges {α : Type} (form : Form α) :
    form.children = form.edges.map Prod.snd := by
  simp [Form.children, Form.edges, List.map_flatMap, Function.comp_def]

/-- A property of all nodes of a tree. -/
inductive Node.All (P : Node → Prop) : Node → Prop
  | intro {n : Node} : P n → (∀ e ∈ n.form.edges, All P e.2) → All P n

theorem Node.All.childless {P : Node → Prop} {n : Node} (hedges : n.form.edges = []) (h : P n) :
    n.All P := by
  refine .intro h fun e he => ?_
  rw [hedges] at he
  cases he

theorem Node.All.within {P : Node → Prop} {root n : Node} (h : root.All P) (hn : n.Within root) :
    n.All P := by
  induction hn with
  | root => exact h
  | child _ hc ih =>
    obtain ⟨-, hinner⟩ := ih h
    rw [Node.children, Form.children_eq_edges] at hc
    obtain ⟨e, he, rfl⟩ := List.mem_map.mp hc
    exact hinner e he

theorem Node.Walk.within {σ : Type} {step : σ → Node → String → List Node → σ} {start s : σ}
    {root n : Node} (h : root.Walk step start s n) : n.Within root := by
  induction h with
  | root => exact .root
  | edge _ he ih =>
    refine .child ih ?_
    rw [Node.children, Form.children_eq_edges]
    exact List.mem_map_of_mem he.mem_edges

/-- The node at the end of a path. -/
def Node.at? (root : Node) (path : List (String × Nat)) : Option Node :=
  (root.follow (fun _ _ _ _ => ()) () path).map (·.2)

theorem Node.within_of_at? {root n : Node} {path : List (String × Nat)}
    (h : root.at? path = some n) : n.Within root := by
  obtain ⟨⟨_, _⟩, hfollow, rfl⟩ := Option.map_eq_some_iff.mp h
  exact (Node.Walk.root.follow hfollow).within

theorem Node.within_of_any {root : Node} {path : List (String × Nat)} {p : Node → Bool}
    (h : (root.at? path).any p = true) : ∃ n : Node, n.Within root ∧ p n = true := by
  obtain ⟨n, hn, hp⟩ := (Option.any_eq_true _ _).mp h
  exact ⟨n, Node.within_of_at? hn, hp⟩

/-! ## Parts behind edges -/

theorem exists_of_forall₂ {α β : Type} {R : α → β → Prop} {as : List α} {bs : List β}
    (h : List.Forall₂ R as bs) {a : α} (ha : a ∈ as) : ∃ b ∈ bs, R a b := by
  induction h with
  | nil => cases ha
  | cons hab _ ih =>
    rcases List.mem_cons.mp ha with rfl | ha
    · exact ⟨_, List.mem_cons_self, hab⟩
    · obtain ⟨b, hb, hab⟩ := ih ha
      exact ⟨b, List.mem_cons_of_mem _ hb, hab⟩

namespace Part
variable {R : String × Node → Part → Prop} {name : String} {ph : Phrase} {ctx : Context}
variable {ns : List Node}

theorem forall_all {edges : List (String × Node)} {ps : List Part} :
    List.Forall₂ R (ns.map (Prod.mk name) ++ edges) (all ph ctx ns ++ ps) ↔
      (∀ n ∈ ns, R (name, n) ⟨ph, ctx, n⟩) ∧ List.Forall₂ R edges ps := by
  induction ns with
  | nil => simp [all]
  | cons n rest ih =>
    simp only [all, List.map_cons, List.cons_append, List.forall₂_cons, List.forall_mem_cons] at ih ⊢
    rw [ih, and_assoc]

theorem forall_all_last :
    List.Forall₂ R (ns.map (Prod.mk name)) (all ph ctx ns) ↔
      ∀ n ∈ ns, R (name, n) ⟨ph, ctx, n⟩ := by
  have h : List.Forall₂ R (ns.map (Prod.mk name) ++ []) (all ph ctx ns ++ []) ↔ _ := forall_all
  simpa using h

theorem forall_body {inModule : Bool} {b : Grammar.Body}
    (h : ∀ ctx n, R (name, n) ⟨.item inModule, ctx, n⟩) :
    List.Forall₂ R (ns.map (Prod.mk name)) (body inModule b ns) := by
  induction ns generalizing b with
  | nil => exact .nil
  | cons n rest ih => exact .cons (h _ _) ih

theorem mem_body {inModule : Bool} {b : Grammar.Body} {before after : List Node} {c : Node} :
    ⟨.item inModule, (before.foldl Grammar.Body.push b).ctx, c⟩ ∈
      body inModule b (before ++ c :: after) := by
  induction before generalizing b with
  | nil => exact List.mem_cons_self
  | cons s rest ih => exact List.mem_cons_of_mem _ ih

end Part
end EcmaSyntax
