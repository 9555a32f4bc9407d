import EcmaSyntax.Diagnostic.Message
import EcmaSyntax.Source.Span

/-! # Diagnostics and their sink

A diagnostic is a worded message at a span of the source. Diagnostics are gathered in the order in
which they are found; the sink only grows, except that it can be cut back to an earlier length. -/
namespace EcmaSyntax

/-- Replaces each occurrence of a pattern, from left to right; the first argument counts characters
still to be dropped because they belong to an occurrence. -/
def replaceAll (pattern new : List Char) : Nat → List Char → List Char
  | _, [] => []
  | dropped + 1, _ :: rest => replaceAll pattern new dropped rest
  | 0, c :: rest =>
    if pattern.isPrefixOf (c :: rest) then
      new ++ replaceAll pattern new (pattern.length - 1) rest
    else c :: replaceAll pattern new 0 rest

/-- The place for the argument with a number. -/
def placeholder (i : Nat) : List Char := '{' :: (toString i).toList ++ ['}']

/-- Puts the arguments, numbered from `i` on, into their places one after the other; an argument
already put in is searched for the places of the later ones. -/
def substitute : Nat → List String → List Char → List Char
  | _, [], text => text
  | i, argument :: later, text =>
    substitute (i + 1) later (replaceAll (placeholder i) argument.toList 0 text)

/-- The wording of a template with its arguments. -/
def formatMessage (template : String) (arguments : List String) : String :=
  String.ofList (substitute 0 arguments template.toList)

/-- A message at a place of the source. -/
structure Diagnostic where
  span : Span
  code : Nat
  category : Category
  argument : Option String
  text : String
deriving DecidableEq

namespace Diagnostic

/-- A message at a span, with the argument for its wording if it takes one. -/
def report (span : Span) (message : Message) (argument : Option String := none) : Diagnostic where
  span := span
  code := message.code
  category := message.category
  argument := argument
  text := formatMessage message.template argument.toList

/-- Whether this is a diagnostic of the given cause. -/
def isOf (d : Diagnostic) (message : Message) : Bool := d.code == message.code

theorem isOf_report {span : Span} {message m : Message} {argument : Option String} :
    (report span message argument).isOf m = true ↔ message = m := by
  rw [isOf, beq_iff_eq]
  exact ⟨fun h => Message.code_injective h, fun h => h ▸ rfl⟩

/-- Whether the cause passes a test. -/
def isAny (test : Message → Bool) (d : Diagnostic) : Bool :=
  Message.all.any fun m => test m && d.isOf m

section Causes
variable {d e : Diagnostic} {m : Message} {test : Message → Bool}

theorem isAny_eq (h : d.isOf m = true) : d.isAny test = test m := by
  rw [isOf, beq_iff_eq] at h
  have hsame (m' : Message) : d.isOf m' = true ↔ m = m' := by
    rw [isOf, beq_iff_eq, h]
    exact ⟨fun heq => Message.code_injective heq, fun heq => heq ▸ rfl⟩
  rw [Bool.eq_iff_iff, isAny, List.any_eq_true]
  simp only [Bool.and_eq_true, hsame]
  exact ⟨fun ⟨_, _, ht, heq⟩ => heq ▸ ht, fun ht => ⟨m, m.mem_all, ht, rfl⟩⟩

theorem isAny_report {span : Span} {argument : Option String} :
    (report span m argument).isAny test = test m := isAny_eq (isOf_report.mpr rfl)

/-- The cause is told by the code. -/
theorem isAny_congr (h : d.code = e.code) : d.isAny test = e.isAny test := by
  simp only [isAny, isOf, h]

theorem isAny_exists (h : d.isAny test = true) : ∃ m, test m = true ∧ d.isOf m = true := by
  obtain ⟨m, -, hm⟩ := List.any_eq_true.mp h
  exact ⟨m, Bool.and_eq_true_iff.mp hm⟩

end Causes

def isError (d : Diagnostic) : Bool := d.category == .error

/-- The written code. -/
def codeText (d : Diagnostic) : String := s!"AH{d.code}"

/-- One line with place, category, code and wording. -/
def display (d : Diagnostic) : String :=
  s!"({d.span.start}): {d.category.name} {d.codeText}: {d.text}"

end Diagnostic

/-- Diagnostics in the order of their discovery. -/
structure Sink where
  entries : Array Diagnostic := #[]
deriving DecidableEq

namespace Sink

instance : EmptyCollection Sink := ⟨⟨#[]⟩⟩
instance : Inhabited Sink := ⟨∅⟩

def size (s : Sink) : Nat := s.entries.size

def isEmpty (s : Sink) : Bool := s.entries.isEmpty

def add (s : Sink) (d : Diagnostic) : Sink := ⟨s.entries.push d⟩

/-- Adds the diagnostics of another sink behind those of this one. -/
def extend (s t : Sink) : Sink := ⟨s.entries ++ t.entries⟩

/-- Keeps the first `n` diagnostics. -/
def truncate (s : Sink) (n : Nat) : Sink := ⟨s.entries.take n⟩

def last? (s : Sink) : Option Diagnostic := s.entries.back?

/-- Whether a diagnostic of the category `error` is present. -/
def hasErrors (s : Sink) : Bool := s.entries.any (·.isError)

def toList (s : Sink) : List Diagnostic := s.entries.toList

@[simp] theorem toList_add (s : Sink) (d : Diagnostic) : (s.add d).toList = s.toList ++ [d] := by
  simp [add, toList]

@[simp] theorem toList_extend (s t : Sink) : (s.extend t).toList = s.toList ++ t.toList := by
  simp [extend, toList]

@[simp] theorem toList_truncate (s : Sink) (n : Nat) :
    (s.truncate n).toList = s.toList.take n := by
  simp [truncate, toList]

@[simp] theorem length_toList (s : Sink) : s.toList.length = s.size := by
  simp [toList, size]

end Sink
end EcmaSyntax
