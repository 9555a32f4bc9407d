import EcmaSyntax.Proofs.Parse.Reads

/-! # What an answer is like

A condition on the answers of a routine that does not ask for an answer. Where it is known that a
routine ends, lines whose answers do not matter need not be looked at again. -/
namespace EcmaSyntax.Parse
variable {α β : Type} {s : ParseState}

/-- Whatever a routine answers meets a condition. -/
def Gives (p : Parse α) (s : ParseState) (Q : α → ParseState → Prop) : Prop :=
  ∀ ⦃a t⦄, p.run s = some (a, t) → Q a t

/-- What a turn of a loop gives: the invariant of the loop, or the answer of the loop. -/
def TurnGives (I Q : α → ParseState → Prop) : Turn α → ParseState → Prop
  | .again a, t => I a t
  | .done a, t => Q a t

namespace Gives
variable {p q : Parse α} {f : α → Parse β} {Q Q' : α → ParseState → Prop}
  {R : β → ParseState → Prop}

theorem bind (hp : p.Gives s Q) (hf : ∀ a t, Moves s t → Q a t → (f a).Gives t R) :
    (p >>= f).Gives s R := by
  intro b u hrun
  obtain ⟨a, t, hp', hfa⟩ := run_bind.mp hrun
  exact hf a t (p.moves hp') (hp hp') hfa

/-- Behind a line whose answer does not matter. -/
theorem behind (hf : ∀ a t, Moves s t → (f a).Gives t R) : (p >>= f).Gives s R := by
  intro b u hrun
  obtain ⟨a, t, hp', hfa⟩ := run_bind.mp hrun
  exact hf a t (p.moves hp') hfa

theorem mono (hp : p.Gives s Q) (h : ∀ a t, Moves s t → Q a t → Q' a t) : p.Gives s Q' :=
  fun a t hrun => h a t (p.moves hrun) (hp hrun)

theorem of_run_eq {a : α} {t : ParseState} (h : p.run s = some (a, t)) (hQ : Q a t) :
    p.Gives s Q := by
  intro b u hrun
  rw [h] at hrun
  cases hrun
  exact hQ

theorem of_eq (h : p.run s = q.run s) (hq : q.Gives s Q) : p.Gives s Q :=
  fun _ _ hrun => hq (h ▸ hrun)

theorem of_reads (h : p.Reads s Q) : p.Gives s Q := fun _ _ hrun => h.of_run hrun

theorem observe {g : ParseState → α} (h : Q (g s) s) : (Parse.observe g).Gives s Q := by
  intro b t hrun
  cases hrun
  exact h

theorem pure {a : α} (h : Q a s) : (Pure.pure a : Parse α).Gives s Q := observe h

/-- A line that only looks. -/
theorem look {g : ParseState → α} (h : (f (g s)).Gives s R) : (Parse.observe g >>= f).Gives s R := h

theorem ite {c : Prop} [Decidable c] (hp : c → p.Gives s Q) (hq : ¬c → q.Gives s Q) :
    (if c then p else q).Gives s Q := by
  split
  case isTrue h => exact hp h
  case isFalse h => exact hq h

theorem unanswered : (Parse.unanswered : Parse α).Gives s Q := by
  intro a t hrun
  cases hrun

/-- A loop gives what its last turn gives, if every turn keeps an invariant. -/
theorem loop {step : α → Parse (Turn α)} {I : α → ParseState → Prop} {a : α} (h0 : I a s)
    (hstep : ∀ a t, Moves s t → I a t → (step a).Gives t (TurnGives I Q)) :
    (Parse.loop step a).Gives s Q := by
  have hturns (n : Nat) (a : α) (t : ParseState) (hm : Moves s t) (h : I a t) :
      (turns step n a).Gives t Q := by
    induction n generalizing a t with
    | zero => exact unanswered
    | succ n ih =>
      refine look ((hstep a t hm h).bind fun turn u hmu hturn => ?_)
      cases turn with
      | done b => exact pure hturn
      | again b => exact look (ite (fun _ => ih b u (hm.trans hmu) hturn) fun _ => unanswered)
  exact look (hturns _ a s (.refl s) h0)

/-- A failed attempt ends where it began. -/
theorem attempt {p : Parse (Option α)} :
    (Parse.attempt p).Gives s fun answer t => answer = none → t = s.flush := by
  rintro answer t hrun rfl
  obtain ⟨⟨answer, u⟩, hp, heq⟩ := Option.map_eq_some_iff.mp hrun
  cases heq
  exact (p.moves hp).rewind_flush

theorem lookAhead {p : Parse α} : (Parse.lookAhead p).Gives s fun _ t => t = s.flush := by
  intro a t hrun
  obtain ⟨⟨a, u⟩, hp, heq⟩ := Option.map_eq_some_iff.mp hrun
  cases heq
  exact (p.moves hp).rewind_flush

theorem attempt_isSome {p : Parse (Option α)} :
    (Parse.attempt p).Gives s fun answer t =>
      answer.isSome = true → p.run s.flush = some (answer, t) := by
  intro answer t hrun hsome
  obtain ⟨⟨answer, u⟩, hp, heq⟩ := Option.map_eq_some_iff.mp hrun
  cases heq
  rwa [if_pos hsome]

/-- The present token is consumed only if the one behind it passes a test. -/
theorem advanceIf {g : ParseState → Bool} :
    (Parse.advanceIf (Parse.observe g)).Gives s fun b t =>
      (b = false ∧ t = s.flush) ∨ (b = true ∧ t = s.flush.consume .plain ∧ g t = true) := by
  intro b t hrun
  obtain ⟨answer, u, hattempt, hpure⟩ := run_bind.mp hrun
  cases hpure
  cases answer with
  | none => exact .inl ⟨rfl, Gives.attempt hattempt rfl⟩
  | some _ =>
    obtain ⟨_, u, hadvance, hto⟩ := run_bind.mp (Gives.attempt_isSome hattempt rfl)
    cases hadvance
    have htest : some (if g (s.flush.consume .plain) then some () else none,
      s.flush.consume .plain) = some (some (), t) := hto
    split at htest
    case isTrue hg =>
      cases htest
      exact .inr ⟨rfl, rfl, hg⟩
    case isFalse => cases htest

theorem deeper (h : p.Gives s.deeper fun a t => Q a t.shallower) : (Parse.deeper p).Gives s Q := by
  intro a t hrun
  obtain ⟨-, u, hp, rfl⟩ := deeper_run_eq_some.mp hrun
  exact h hp

end Gives
end EcmaSyntax.Parse
