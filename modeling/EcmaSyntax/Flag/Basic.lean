/-! # Sets of flags

A family of flags is an enumeration in which each flag owns one bit. A set of flags is kept as the
number whose bits are the members, so that union, intersection and difference are bit operations
and membership is a test of one bit. A family also lists its written names, in order; some of them
stand for no flag or for several. -/
namespace EcmaSyntax

/-- A family of flags. -/
class FlagFamily (α : Type) where
  bit : α → Nat
  familyName : String
  named : List (String × List α)

/-- A set of flags of one family. -/
structure FlagSet (α : Type) where
  bits : Nat
deriving DecidableEq

namespace FlagSet
variable {α : Type}

instance : EmptyCollection (FlagSet α) := ⟨⟨0⟩⟩
instance : Inhabited (FlagSet α) := ⟨∅⟩
instance : Union (FlagSet α) := ⟨fun s t => ⟨s.bits ||| t.bits⟩⟩
instance : Inter (FlagSet α) := ⟨fun s t => ⟨s.bits &&& t.bits⟩⟩
instance : SDiff (FlagSet α) := ⟨fun s t => ⟨s.bits ^^^ (s.bits &&& t.bits)⟩⟩

/-- The set with one member. -/
def one [FlagFamily α] (a : α) : FlagSet α := ⟨1 <<< FlagFamily.bit a⟩

instance [FlagFamily α] : Singleton α (FlagSet α) := ⟨one⟩
instance [FlagFamily α] : Insert α (FlagSet α) := ⟨fun a s => one a ∪ s⟩
instance [FlagFamily α] : Coe α (FlagSet α) := ⟨one⟩

/-- The set of the flags of a list. -/
def ofList [FlagFamily α] (as : List α) : FlagSet α := as.foldl (fun s a => s ∪ one a) ∅

/-- Whether a flag is a member. -/
def has [FlagFamily α] (s : FlagSet α) (a : α) : Bool := s.bits.testBit (FlagFamily.bit a)

def isEmpty (s : FlagSet α) : Bool := s.bits == 0

/-- Whether every member of `t` is a member of `s`. -/
def includes (s t : FlagSet α) : Bool := s.bits &&& t.bits == t.bits

/-- Whether the two sets share a member. -/
def meets (s t : FlagSet α) : Bool := !(s ∩ t).isEmpty

/-- `s` if the condition holds, and no flag otherwise. -/
def when (c : Bool) (s : FlagSet α) : FlagSet α := if c then s else ∅

/-- The union over a list. -/
def unionOf (ss : List (FlagSet α)) : FlagSet α := ss.foldl (· ∪ ·) ∅

/-- The set that a written name stands for. -/
def ofName? [FlagFamily α] (name : String) : Option (FlagSet α) :=
  (FlagFamily.named.find? (·.1 == name)).map fun entry => ofList entry.2

/-- Names of the members: a name is taken if all its flags are members and one of them was not
covered by an earlier name. -/
def memberNames [FlagFamily α] (s : FlagSet α) : List String :=
  (FlagFamily.named (α := α)).foldl
    (fun (names, rest) (name, flags) =>
      let set := ofList flags
      if s.includes set && rest.meets set then (names ++ [name], rest \ set) else (names, rest))
    (([] : List String), s) |>.1

/-- The family name with the members in parentheses, or `0x0` for no member. -/
def display [FlagFamily α] (s : FlagSet α) : String :=
  let members := if s.isEmpty then "0x0" else " | ".intercalate s.memberNames
  FlagFamily.familyName α ++ "(" ++ members ++ ")"

@[simp] theorem bits_empty : (∅ : FlagSet α).bits = 0 := rfl
@[simp] theorem bits_union (s t : FlagSet α) : (s ∪ t).bits = s.bits ||| t.bits := rfl
@[simp] theorem bits_inter (s t : FlagSet α) : (s ∩ t).bits = s.bits &&& t.bits := rfl

variable [FlagFamily α]

@[simp] theorem has_empty (a : α) : (∅ : FlagSet α).has a = false := by simp [has]

@[simp] theorem has_union (s t : FlagSet α) (a : α) : (s ∪ t).has a = (s.has a || t.has a) := by
  simp [has]

theorem has_when (c : Bool) (s : FlagSet α) (a : α) : (when c s).has a = (c && s.has a) := by
  cases c <;> simp [when]

@[simp] theorem has_inter (s t : FlagSet α) (a : α) : (s ∩ t).has a = (s.has a && t.has a) := by
  simp [has]

@[simp] theorem has_sdiff (s t : FlagSet α) (a : α) : (s \ t).has a = (s.has a && !t.has a) := by
  change (s.bits ^^^ (s.bits &&& t.bits)).testBit _ = (s.has a && !t.has a)
  rw [Nat.testBit_xor, Nat.testBit_and]
  cases h : s.bits.testBit (FlagFamily.bit a) <;> simp [has, h]

end FlagSet
end EcmaSyntax
