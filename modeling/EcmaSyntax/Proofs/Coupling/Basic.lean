import EcmaSyntax.Proofs.Coupling.Tree

/-! # Runs side by side

Two runs of the grammar are compared step by step. A coupling says which states of the two runs
correspond, and how the nodes, marks and contexts of one run correspond to those of the other: moved
by a number of bytes, say, or in contexts that differ in some modes. What every coupling has to
provide is that corresponding states look alike and that steps lead to corresponding states, as long
as the first run comes through calm states only. Then a routine of the grammar that has an answer in
the first run has the corresponding answer in the second one. -/
namespace EcmaSyntax
open Parse

theorem Moves.offset_le {s t : ParseState} (h : Moves s t) (hs : s.Ready) :
    s.start.offset ≤ t.start.offset := (h.start_reaches hs).offset_le hs.start_sound

/-! ## Moved places -/

def Span.moved (n : Nat) (s : Span) : Span := ⟨s.start + n, s.length⟩

def Range.moved (n : Nat) (r : Range) : Range := ⟨r.pos + n, r.stop + n⟩

def Diagnostic.moved (n : Nat) (d : Diagnostic) : Diagnostic := { d with span := d.span.moved n }

theorem Span.moved_between (n first last : Nat) :
    (Span.between first last).moved n = .between (first + n) (last + n) := by
  simp [moved, between, Nat.add_sub_add_right]

theorem Range.toSpan_moved (n : Nat) (r : Range) : (r.moved n).toSpan = r.toSpan.moved n :=
  (Span.moved_between n r.pos r.stop).symm

/-- A header and the same one moved. The flags may differ in the mark of errors, unless the headers
are exactly the same. -/
structure Header.Moved (shift floor : Nat) (edge : Nat → Prop) (exact : Prop) (h h' : Header) :
    Prop where
  range_eq : h'.range = h.range.moved shift
  floor_le : floor ≤ h.range.pos
  edge_pos : edge h.range.pos
  edge_stop : edge h.range.stop
  modifiers_eq : h'.modifiers = h.modifiers
  flags_eq : h'.flags ∪ FlagSet.one NodeFlag.hasErrors = h.flags ∪ FlagSet.one NodeFlag.hasErrors
  exact_eq : exact → h'.flags = h.flags

/-- A header that only says where a node lies and whether something is wrong with it. -/
theorem Header.Moved.marked {shift floor : Nat} {edge : Nat → Prop} {exact : Prop} {h h' : Header}
    {c c' : Bool} (hh : h.Moved shift floor edge exact h') (hc : exact → c' = c) :
    Header.Moved shift floor edge exact ⟨h.range, .when c NodeFlag.hasErrors, ∅⟩
      ⟨h'.range, .when c' NodeFlag.hasErrors, ∅⟩ := by
  refine ⟨hh.range_eq, hh.floor_le, hh.edge_pos, hh.edge_stop, rfl, ?_, fun he => by rw [hc he]⟩
  have habsorb (c : Bool) : FlagSet.when c (FlagSet.one NodeFlag.hasErrors) ∪
      FlagSet.one NodeFlag.hasErrors = FlagSet.one NodeFlag.hasErrors := by
    cases c <;> rfl
  exact (habsorb c').trans (habsorb c).symm

/-! ## Couplings -/

/-- How the states of two runs correspond. The second run is ahead by `shift` bytes and has `extra`
more characters to read. What the runs share begins at `floor`. -/
structure Coupling where
  shift : Nat
  extra : Nat
  floor : Nat
  /-- The offsets of the first run at which reports begin and end. -/
  edge : Nat → Prop
  /-- Whether the two runs report alike. -/
  exact : Prop
  /-- The modes in which the contexts of the two runs may differ. -/
  free : Mode → Bool
  cursor : Cursor → Cursor → Prop
  /-- Which numbers of diagnostics correspond. -/
  count : Nat → Nat → Prop
  state : ParseState → ParseState → Prop
  /-- The states of the first run for which the second one is bound to follow. -/
  calm : ParseState → Prop

/-- The ends of the present token are edges, and so is the front of a parenthesis. -/
structure ParseState.Edged (edge : Nat → Prop) (s : ParseState) : Prop where
  full : edge s.full.offset
  start : edge s.start.offset
  stop : edge s.scanner.stop.offset
  paren : s.token = .openParenToken ∨ s.token = .closeParenToken → edge (s.scanner.stop.offset - 1)

/-- Where all offsets are edges, nothing is asked of a state. -/
theorem ParseState.edged_of_forall {edge : Nat → Prop} (h : ∀ n, edge n) (s : ParseState) :
    s.Edged edge := ⟨h _, h _, h _, fun _ => h _⟩

/-- A missing expression is reported over one byte, where a closing parenthesis is supposed. -/
def Diagnostic.IsSupposed (d : Diagnostic) : Prop :=
  d.isOf .expressionExpected = true ∧ d.span.length = 1

/-- Reports at the present token, if there is something to report. -/
def ParseState.note (s : ParseState) (message : Option Message) : ParseState :=
  match message with
  | none => s
  | some message => s.push (.report s.tokenSpan message)

/-- What is reported or not according to strictness and web compatibility. -/
def earlyErrors : List Message :=
  [.withInStrictCode, .functionInStrictBody, .functionWithoutWebCompat, .functionInSloppyBody]

/-- The modes in which two contexts may differ at all. -/
def Mode.mayDiffer : Mode → Bool
  | jsx | strict | withoutWebCompat => true
  | _ => false

namespace Coupling

/-- How two states look alike. -/
structure Aligned (K : Coupling) (s s' : ParseState) : Prop where
  ready : s.Ready
  ready' : s'.Ready
  token_eq : s'.token = s.token
  flags_eq : s'.reading.flags = s.reading.flags
  full : K.cursor s.full s'.full
  start : K.cursor s.start s'.start
  stop : K.cursor s.scanner.stop s'.scanner.stop
  left_eq : s'.left = s.left + K.extra
  depth_eq : s'.depth = s.depth
  counted : K.count s.sink.size s'.sink.size
  floor_le : K.floor ≤ s.start.offset

/-- A span that has been read, from one edge to another one. -/
structure Spans (K : Coupling) (span : Span) : Prop where
  floor_le : K.floor ≤ span.start
  edge_start : K.edge span.start
  edge_stop : K.edge span.stop

/-- What may be reported in a state. It begins at an edge, unless the limit of nesting has cut off
the list whose closing parenthesis is supposed there. -/
structure Reports (K : Coupling) (s : ParseState) (d : Diagnostic) : Prop where
  floor_le : K.floor ≤ d.span.start
  start_le : d.span.start ≤ s.start.offset
  edge_start : K.edge d.span.start ∨ (s.limitReported = true ∧ d.IsSupposed)
  edge_stop : K.edge d.span.stop

/-- What a coupling has to provide. -/
class Lawful (K : Coupling) : Prop where
  aligned {s s' : ParseState} : K.state s s' → K.Aligned s s'
  edged {s s' t : ParseState} : K.state s s' → Moves s t → t.Edged K.edge
  offset_eq {c c' : Cursor} : K.cursor c c' → c'.offset = c.offset + K.shift
  text_eq {c c' d d' : Cursor} : K.cursor c c' → K.cursor d d' → c'.textTo d' = c.textTo d
  count_lt {a a' b b' : Nat} : K.exact → K.count a a' → K.count b b' → (a' < b' ↔ a < b)
  free_le {m : Mode} : K.free m = true → m.mayDiffer = true
  flush {s s' : ParseState} : K.state s s' → K.state s.flush s'.flush
  consume {s s' : ParseState} (way : Scanner.Advance) : K.calm s → K.calm (s.consume way) →
    K.state s s' → K.state (s.consume way) (s'.consume way)
  reread {s s' : ParseState} (way : Scanner.Rereading) : K.calm s → K.calm (s.reread way) →
    K.state s s' → K.state (s.reread way) (s'.reread way)
  push {s s' : ParseState} (d : Diagnostic) : K.Reports s d → K.state s s' →
    K.state (s.push d) (s'.push (d.moved K.shift))
  reportLimit {s s' : ParseState} : K.state s s' → K.state s.reportLimit s'.reportLimit
  deeper {s s' : ParseState} : K.state s s' → K.state s.deeper s'.deeper
  shallower {s s' : ParseState} : K.state s s' → K.state s.shallower s'.shallower
  /-- A mode that may differ is not asked for at an angle bracket. -/
  jsx {s : ParseState} : K.free .jsx = true → K.calm s → s.token ≠ .lessThanToken
  /-- What the contexts may tell apart are early errors, of which the first run finds more. -/
  early {s s' : ParseState} (message message' : Option Message) :
    K.free .strict = true ∨ K.free .withoutWebCompat = true → (∀ m ∈ message, m ∈ earlyErrors) →
      (message = none → message' = none) → K.calm (s.note message) → K.state s s' →
        K.state (s.note message) (s'.note message')

variable {K : Coupling}

/-- The range of a node has been read. -/
theorem Spans.of_range {r : Range} (hfloor : K.floor ≤ r.pos) (hpos : K.edge r.pos)
    (hstop : K.edge r.stop) : K.Spans r.toSpan := by
  refine ⟨hfloor, hpos, ?_⟩
  change K.edge (r.pos + (r.stop - r.pos))
  rcases Nat.le_total r.pos r.stop with hle | hle
  · rwa [Nat.add_sub_cancel' hle]
  · rwa [Nat.sub_eq_zero_of_le hle]

/-! ## Contexts -/

/-- Two contexts that may differ in the free modes only, of which the first one has more. -/
class Contexts (K : Coupling) (ctx ctx' : Context) : Prop where
  has_eq (m : Mode) : K.free m = false → ctx'.has m = ctx.has m
  has_of_has (m : Mode) : ctx'.has m = true → ctx.has m = true

theorem contexts_rfl (K : Coupling) (ctx : Context) : K.Contexts ctx ctx :=
  ⟨fun _ _ => rfl, fun _ hm => hm⟩

theorem has_eq (K : Coupling) [hK : K.Lawful] (ctx ctx' : Context) [h : K.Contexts ctx ctx']
    (m : Mode) (hm : Mode.mayDiffer m = false) : ctx'.has m = ctx.has m :=
  h.has_eq m (Bool.eq_false_iff.mpr (mt hK.free_le (Bool.eq_false_iff.mp hm)))

section Contexts
variable {ctx ctx' : Context} [h : K.Contexts ctx ctx']

instance (modes : List Mode) : K.Contexts (ctx.including modes) (ctx'.including modes) :=
  ⟨fun m hm => by rw [Context.has_including, Context.has_including, h.has_eq m hm],
    fun m => by
      rw [Context.has_including, Context.has_including, Bool.or_eq_true, Bool.or_eq_true]
      exact Or.imp_left (h.has_of_has m)⟩

instance (modes : List Mode) : K.Contexts (ctx.excluding modes) (ctx'.excluding modes) :=
  ⟨fun m hm => by rw [Context.has_excluding, Context.has_excluding, h.has_eq m hm],
    fun m => by
      rw [Context.has_excluding, Context.has_excluding, Bool.and_eq_true, Bool.and_eq_true]
      exact And.imp_left (h.has_of_has m)⟩

instance (modes : FlagSet Mode) : K.Contexts (ctx ∪ modes) (ctx' ∪ modes) :=
  ⟨fun m hm => by rw [FlagSet.has_union, FlagSet.has_union, h.has_eq m hm],
    fun m => by
      rw [FlagSet.has_union, FlagSet.has_union, Bool.or_eq_true, Bool.or_eq_true]
      exact Or.imp_left (h.has_of_has m)⟩

instance : K.Contexts ctx.enclosed ctx'.enclosed :=
  inferInstanceAs (K.Contexts (ctx.excluding _) (ctx'.excluding _))

instance : K.Contexts ctx.argument ctx'.argument :=
  inferInstanceAs (K.Contexts (ctx.excluding _) (ctx'.excluding _))

instance (isAsync isGenerator : Bool) :
    K.Contexts (ctx.functionBody isAsync isGenerator) (ctx'.functionBody isAsync isGenerator) :=
  inferInstanceAs (K.Contexts (((ctx.excluding _).including _) ∪ _ ∪ _)
    (((ctx'.excluding _).including _) ∪ _ ∪ _))

instance : K.Contexts ctx.classInitializer ctx'.classInitializer :=
  inferInstanceAs (K.Contexts ((ctx.functionBody _ _).excluding _)
    ((ctx'.functionBody _ _).excluding _))

instance : K.Contexts (Grammar.withConditionalTypes ctx) (Grammar.withConditionalTypes ctx') :=
  inferInstanceAs (K.Contexts (ctx.including _) (ctx'.including _))

instance (isAsync : Bool) :
    K.Contexts (Grammar.arrowContext ctx isAsync) (Grammar.arrowContext ctx' isAsync) :=
  inferInstanceAs (K.Contexts (ctx.excluding _ ∪ _) (ctx'.excluding _ ∪ _))

end Contexts

/-! ## Corresponding answers -/

/-- Types whose values correspond: pairs of corresponding values, with both of them. -/
class Coupled (K : Coupling) (α : Type) where
  Pair : Type
  left : Pair → α
  right : Pair → α

/-- Values that correspond to nothing but themselves. -/
@[reducible] def Coupled.plain (K : Coupling) (α : Type) : Coupled K α := ⟨α, fun a => a, fun a => a⟩

instance : Coupled K Unit := .plain K _
instance : Coupled K Bool := .plain K _
instance : Coupled K Kind := .plain K _
instance : Coupled K String := .plain K _
instance : Coupled K ModifierFlags := .plain K _
instance : Coupled K Certainty := .plain K _

instance {α : Type} [Coupled K α] : Coupled K (Option α) where
  Pair := Option (Coupled.Pair K α)
  left := Option.map Coupled.left
  right := Option.map Coupled.right

instance : Coupled K (Option Bool) := .plain K _
instance : Coupled K (Option MethodSort) := .plain K _

instance {α : Type} [Coupled K α] : Coupled K (List α) where
  Pair := List (Coupled.Pair K α)
  left := List.map Coupled.left
  right := List.map Coupled.right

instance {α β : Type} [Coupled K α] [Coupled K β] : Coupled K (α × β) where
  Pair := Coupled.Pair K α × Coupled.Pair K β
  left := Prod.map Coupled.left Coupled.left
  right := Prod.map Coupled.right Coupled.right

instance {α : Type} [Coupled K α] : Coupled K (Turn α) where
  Pair := Turn (Coupled.Pair K α)
  left := Turn.map Coupled.left
  right := Turn.map Coupled.right

/-- How the headers of two runs correspond. -/
def header (K : Coupling) : Header → Header → Prop := Header.Moved K.shift K.floor K.edge K.exact

theorem Spans.of_header {h h' : Header} (hh : K.header h h') : K.Spans h.range.toSpan :=
  .of_range hh.floor_le hh.edge_pos hh.edge_stop

/-- Corresponding nodes. -/
abbrev NodePair (K : Coupling) : Type := EcmaSyntax.NodePair K.header

theorem hasErrors_eq (n : K.NodePair) (h : K.exact) : n.right.hasErrors = n.left.hasErrors :=
  congrArg (FlagSet.has · NodeFlag.hasErrors) (n.matched.header.exact_eq h)

instance : Coupled K Node := ⟨K.NodePair, EcmaSyntax.NodePair.left, EcmaSyntax.NodePair.right⟩

/-- Corresponding nodes in arrays. -/
structure ArrayPair (K : Coupling) where
  left : Array Node
  right : Array Node
  matched : List.Forall₂ (Node.Matches K.header) left.toList right.toList

instance : Coupled K (Array Node) := ⟨K.ArrayPair, ArrayPair.left, ArrayPair.right⟩

namespace ArrayPair

def empty (K : Coupling) : K.ArrayPair := ⟨#[], #[], .nil⟩

def push (ns : K.ArrayPair) (n : K.NodePair) : K.ArrayPair where
  left := ns.left.push n.left
  right := ns.right.push n.right
  matched := by
    rw [Array.toList_push, Array.toList_push]
    exact List.rel_append ns.matched (.cons n.matched .nil)

/-- The list of corresponding nodes of two arrays. -/
theorem exists_list (ns : K.ArrayPair) : ∃ qs : List K.NodePair,
    qs.map EcmaSyntax.NodePair.left = ns.left.toList ∧
      qs.map EcmaSyntax.NodePair.right = ns.right.toList :=
  NodePair.exists_list ns.matched

theorem exists_back (ns : K.ArrayPair) : ∃ last : Option K.NodePair,
    last.map EcmaSyntax.NodePair.left = ns.left.back? ∧
      last.map EcmaSyntax.NodePair.right = ns.right.back? := by
  obtain ⟨qs, hleft, hright⟩ := ns.exists_list
  refine ⟨qs.getLast?, ?_, ?_⟩
  · rw [← List.getLast?_map, hleft, Array.getLast?_toList]
  · rw [← List.getLast?_map, hright, Array.getLast?_toList]

end ArrayPair

/-- Corresponding marks. -/
structure MarkPair (K : Coupling) where
  left : Mark
  right : Mark
  start : K.cursor left.start right.start
  floor_le : K.floor ≤ left.start.offset
  edge_start : K.edge left.start.offset
  counted : K.count left.reported right.reported
  flags_eq : right.flags = left.flags
  modifiers_eq : right.modifiers = left.modifiers

instance : Coupled K Mark := ⟨K.MarkPair, MarkPair.left, MarkPair.right⟩

namespace MarkPair

def withFlags (m : K.MarkPair) (flags : NodeFlags) : K.MarkPair :=
  ⟨m.left.withFlags flags, m.right.withFlags flags, m.start, m.floor_le, m.edge_start, m.counted,
    congrArg (· ∪ flags) m.flags_eq, m.modifiers_eq⟩

def withModifiers (m : K.MarkPair) (modifiers : ModifierFlags) : K.MarkPair :=
  ⟨m.left.withModifiers modifiers, m.right.withModifiers modifiers, m.start, m.floor_le, m.edge_start, m.counted,
    m.flags_eq, congrArg (· ∪ modifiers) m.modifiers_eq⟩

end MarkPair

/-! ## Corresponding runs -/

section Follows
variable {α β : Type} [Coupled K α] [Coupled K β]

/-- From two states on, the second run has the answer that corresponds to the one of the first. -/
def FollowsAt (K : Coupling) [Coupled K α] (p q : Parse α) (s s' : ParseState) : Prop :=
  (∀ u, p.visits s u → K.calm u) → ∀ a t, p.run s = some (a, t) →
    ∃ (c : Coupled.Pair K α) (t' : ParseState),
      Coupled.left c = a ∧ q.run s' = some (Coupled.right c, t') ∧ K.state t t'

/-- From any two corresponding states on, the second run follows the first. -/
def Follows (K : Coupling) [Coupled K α] (p q : Parse α) : Prop :=
  ∀ s s', K.state s s' → K.FollowsAt p q s s'

namespace FollowsAt
variable {p q : Parse α} {f g : α → Parse β} {s s' : ParseState}

theorem bind (hp : K.FollowsAt p q s s')
    (hf : ∀ (c : Coupled.Pair K α) (t t' : ParseState), p.run s = some (Coupled.left c, t) →
      q.run s' = some (Coupled.right c, t') → K.state t t' →
        K.FollowsAt (f (Coupled.left c)) (g (Coupled.right c)) t t') :
    K.FollowsAt (p >>= f) (q >>= g) s s' := by
  intro hcalm b u hrun
  obtain ⟨a, t, hleft, hrest⟩ := run_bind.mp hrun
  obtain ⟨c, t', rfl, hright, ht⟩ := hp (fun u hu => hcalm u (.inl hu)) a t hleft
  obtain ⟨d, u', rfl, hrest', hu⟩ := hf c t t' hleft hright ht
    (fun u hu => hcalm u (.inr ⟨_, _, hleft, hu⟩)) b u hrest
  exact ⟨d, u', rfl, run_bind.mpr ⟨_, _, hright, hrest'⟩, hu⟩

theorem pure {a a' : α} (hs : K.state s s') (c : Coupled.Pair K α)
    (h : (Coupled.left c, Coupled.right c) = (a, a')) :
    K.FollowsAt (Pure.pure a) (Pure.pure a') s s' := by
  intro _ b t hrun
  cases h
  cases hrun
  exact ⟨c, s', rfl, rfl, hs⟩

theorem ite {c : Prop} [Decidable c] {p' q' : Parse α} (hp : K.FollowsAt p p' s s')
    (hq : K.FollowsAt q q' s s') :
    K.FollowsAt (if c then p else q) (if c then p' else q') s s' := by
  split
  · exact hp
  · exact hq

/-- A line that only looks, with what it sees. -/
theorem look {γ γ' : Type} {f : ParseState → γ} {f' : ParseState → γ'} {g : γ → Parse α}
    {g' : γ' → Parse α} (h : K.calm s → K.FollowsAt (g (f s)) (g' (f' s')) s s') :
    K.FollowsAt (Parse.observe f >>= g) (Parse.observe f' >>= g') s s' := by
  intro hcalm a t hrun
  obtain ⟨b, u, hlook, hrun⟩ := run_bind.mp hrun
  cases hlook
  obtain ⟨c, t', hleft, hright, ht⟩ :=
    h (hcalm s (.inl rfl)) (fun u hu => hcalm u (.inr ⟨_, _, rfl, hu⟩)) a t hrun
  exact ⟨c, t', hleft, run_bind.mpr ⟨_, _, rfl, hright⟩, ht⟩

/-- A step. -/
theorem act {f g : ParseState → ParseState} {hf : ∀ s, Step s (f s)} {hg : ∀ s, Step s (g s)}
    (h : K.calm s → K.calm (f s) → K.state (f s) (g s')) :
    K.FollowsAt (Parse.act f hf) (Parse.act g hg) s s' := by
  intro hcalm a t hrun
  cases hrun
  exact ⟨(), g s', rfl, rfl, h (hcalm _ (.inl rfl)) (hcalm _ (.inr rfl))⟩

end FollowsAt

namespace Follows
variable {p q : Parse α} {f g : α → Parse β} {s s' : ParseState}

/-- One line of a routine. -/
theorem bind (hp : K.Follows p q)
    (hf : ∀ c : Coupled.Pair K α, K.Follows (f (Coupled.left c)) (g (Coupled.right c))) :
    K.Follows (p >>= f) (q >>= g) :=
  fun s s' hs => .bind (hp s s' hs) fun c t t' _ _ ht => hf c t t' ht

/-- One line of a routine whose answers are the same. -/
theorem same {α : Type} {p q : Parse α} {f g : α → Parse β}
    (hp : @Follows α K (.plain K α) p q) (hf : ∀ a, K.Follows (f a) (g a)) :
    K.Follows (p >>= f) (q >>= g) :=
  @bind K α β (.plain K α) _ _ _ _ _ hp hf

theorem pure {a a' : α} (c : Coupled.Pair K α)
    (h : (Coupled.left c, Coupled.right c) = (a, a')) : K.Follows (Pure.pure a) (Pure.pure a') :=
  fun _ _ hs => .pure hs c h

theorem ite {c : Prop} [Decidable c] {p' q' : Parse α} (hp : K.Follows p p')
    (hq : K.Follows q q') : K.Follows (if c then p else q) (if c then p' else q') :=
  fun s s' hs => .ite (hp s s' hs) (hq s s' hs)

theorem unanswered : K.Follows (Parse.unanswered : Parse α) q := by
  intro s s' _ _ a t hrun
  cases hrun

/-- The answers of a routine under a function. -/
theorem map {h h' : α → β} {k : Coupled.Pair K α → Coupled.Pair K β} (hp : K.Follows p q)
    (hleft : ∀ c, h (Coupled.left c) = Coupled.left (k c))
    (hright : ∀ c, h' (Coupled.right c) = Coupled.right (k c)) :
    K.Follows (h <$> p) (h' <$> q) := by
  refine bind (f := fun a => Pure.pure (h a)) (g := fun a => Pure.pure (h' a)) hp fun c => ?_
  exact pure (k c) (by rw [hleft c, hright c])

theorem some (hp : K.Follows p q) : K.Follows (Option.some <$> p) (Option.some <$> q) :=
  map (k := Option.some) hp (fun _ => rfl) fun _ => rfl

end Follows
end Follows
end Coupling
end EcmaSyntax
