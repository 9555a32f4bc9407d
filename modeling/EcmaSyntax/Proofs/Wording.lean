import EcmaSyntax.Diagnostic.Sink
import Mathlib.Data.List.Basic
import Mathlib.Data.List.Infix

/-! # The wording of a message

A template is worded by putting its arguments in one after the other, each into all that stands there
by then. The wording all at once is a relation between texts, read from left to right: a place takes
its argument, whose text is not looked at again. The two agree as long as no step leaves more places
for a later argument than the template had, which one argument alone never does. -/
namespace EcmaSyntax

variable {i k n : Nat} {c : Char} {a : String} {arguments : List String}
  {rest out text pattern new plain : List Char}

/-! ## Places in a text -/

theorem toList_number : (toString i).toList = Nat.toDigits 10 i := by
  rw [Nat.toString_eq_repr, Nat.toList_repr]

theorem isDigit_of_mem_number (h : c ∈ (toString i).toList) : c.isDigit = true := by
  rw [toList_number] at h
  exact Nat.isDigit_of_mem_toDigits (by decide) (by decide) h

theorem placeholder_eq_cons : placeholder i = '{' :: (placeholder i).tail := rfl

/-- A place is opened once. -/
theorem ne_of_mem_tail_placeholder (h : c ∈ (placeholder i).tail) : c ≠ '{' := by
  have hmem : c ∈ (toString i).toList ++ ['}'] := h
  rintro rfl
  rcases List.mem_append.mp hmem with hd | he
  · exact absurd (isDigit_of_mem_number hd) (by decide)
  · exact absurd he (by decide)

/-- What a place is for is told by the text from it on. -/
theorem placeholder_inj_of_begins (h : placeholder i <+: placeholder k ++ rest) : i = k := by
  obtain ⟨behind, heq⟩ := h
  have hcut : (toString i).toList ++ '}' :: behind = (toString k).toList ++ '}' :: rest := by
    simpa [placeholder] using heq
  have hrun (j : Nat) (behind : List Char) :
      ((toString j).toList ++ '}' :: behind).takeWhile Char.isDigit = (toString j).toList := by
    rw [List.takeWhile_append_of_pos fun _ => isDigit_of_mem_number, List.takeWhile_cons_of_neg,
      List.append_nil]
    decide
  have hsame : Nat.toDigits 10 i = Nat.toDigits 10 k := by
    rw [← toList_number, ← hrun i behind, hcut, hrun k rest, toList_number]
  rw [← Nat.ofDigitChars_ten_toDigits (n := i), hsame, Nat.ofDigitChars_ten_toDigits]

theorem not_begins_of_ne (hc : c ≠ '{') : ¬ placeholder i <+: c :: rest := by
  rintro ⟨behind, heq⟩
  rw [placeholder_eq_cons, List.cons_append] at heq
  exact hc (List.cons.inj heq).1.symm

/-- How often the place for an argument stands in a text. -/
def places (k : Nat) (text : List Char) : Nat :=
  text.tails.countP ((placeholder k).isPrefixOf ·)

theorem places_cons_of_begins (h : placeholder k <+: c :: rest) :
    places k (c :: rest) = places k rest + 1 := by
  rw [places, List.tails_cons, List.countP_cons_of_pos (List.isPrefixOf_iff_prefix.mpr h)]
  rfl

theorem places_cons_of_not_begins (h : ¬ placeholder k <+: c :: rest) :
    places k (c :: rest) = places k rest := by
  rw [places, List.tails_cons,
    List.countP_cons_of_neg (fun hp => h (List.isPrefixOf_iff_prefix.mp hp))]
  rfl

theorem places_le_cons : places k rest ≤ places k (c :: rest) := by
  by_cases h : placeholder k <+: c :: rest
  · rw [places_cons_of_begins h]
    omega
  · rw [places_cons_of_not_begins h]

theorem places_le_append : places k rest ≤ places k (plain ++ rest) := by
  induction plain with
  | nil => exact Nat.le_refl _
  | cons c plain ih => exact ih.trans places_le_cons

/-- A text in which no place is opened has none. -/
theorem places_append_of_plain (h : ∀ c ∈ plain, c ≠ '{') :
    places k (plain ++ rest) = places k rest := by
  induction plain with
  | nil => rfl
  | cons c plain ih =>
    obtain ⟨hc, hplain⟩ := List.forall_mem_cons.mp h
    rw [List.cons_append, places_cons_of_not_begins (not_begins_of_ne hc), ih hplain]

theorem places_placeholder_append (h : i ≠ k) :
    places k (placeholder i ++ rest) = places k rest := by
  have hfront : ¬ placeholder k <+: placeholder i ++ rest :=
    fun hp => h (placeholder_inj_of_begins hp).symm
  rw [placeholder_eq_cons (i := i), List.cons_append] at hfront ⊢
  rw [places_cons_of_not_begins hfront,
    places_append_of_plain fun _ => ne_of_mem_tail_placeholder]

/-! ## One argument put in -/

theorem replaceAll_length_append :
    replaceAll pattern new plain.length (plain ++ rest) = replaceAll pattern new 0 rest := by
  induction plain with
  | nil => rfl
  | cons c plain ih => exact ih

theorem replaceAll_placeholder_append :
    replaceAll (placeholder k) new 0 (placeholder k ++ rest) =
      new ++ replaceAll (placeholder k) new 0 rest := by
  have hfront : (placeholder k).isPrefixOf ('{' :: ((placeholder k).tail ++ rest)) = true :=
    List.isPrefixOf_iff_prefix.mpr (List.prefix_append _ _)
  have hlength : (placeholder k).length - 1 = (placeholder k).tail.length := rfl
  conv_lhs => rw [placeholder_eq_cons, List.cons_append]
  rw [← placeholder_eq_cons, replaceAll, if_pos hfront, hlength, replaceAll_length_append]

theorem replaceAll_cons_of_not_begins (h : ¬ placeholder k <+: c :: rest) :
    replaceAll (placeholder k) new 0 (c :: rest) = c :: replaceAll (placeholder k) new 0 rest := by
  rw [replaceAll, if_neg fun hp => h (List.isPrefixOf_iff_prefix.mp hp)]

/-- A text in front that begins no place of the argument stays as it is. -/
theorem replaceAll_append (h : places k (plain ++ rest) = places k rest) :
    replaceAll (placeholder k) new 0 (plain ++ rest) =
      plain ++ replaceAll (placeholder k) new 0 rest := by
  induction plain with
  | nil => rfl
  | cons c plain ih =>
    have hle : places k rest ≤ places k (plain ++ rest) := places_le_append
    have hnot : ¬ placeholder k <+: c :: (plain ++ rest) := by
      intro hp
      have hmore := places_cons_of_begins hp
      rw [List.cons_append] at h
      omega
    rw [List.cons_append, places_cons_of_not_begins hnot] at h
    rw [List.cons_append, replaceAll_cons_of_not_begins hnot, ih h, List.cons_append]

/-- The last argument is put in last. -/
theorem substitute_append :
    substitute i (arguments ++ [a]) text =
      replaceAll (placeholder (i + arguments.length)) a.toList 0 (substitute i arguments text) := by
  induction arguments generalizing i text with
  | nil => rfl
  | cons b arguments ih =>
    rw [List.cons_append, substitute, ih, substitute, List.length_cons]
    congr 2
    omega

/-! ## All arguments put in at once -/

/-- The template with its arguments in their places: from left to right, a place of one of the
arguments becomes the text of the argument, and any other character stays. -/
inductive Worded (arguments : List String) : List Char → List Char → Prop
  | nil : Worded arguments [] []
  | place {i : Nat} {a : String} {rest out : List Char} (given : arguments[i]? = some a)
      (behind : Worded arguments rest out) :
      Worded arguments (placeholder i ++ rest) (a.toList ++ out)
  | other {c : Char} {rest out : List Char}
      (free : ∀ i < arguments.length, ¬ placeholder i <+: c :: rest)
      (behind : Worded arguments rest out) : Worded arguments (c :: rest) (c :: out)

namespace Worded

theorem of_other (h : Worded arguments (c :: rest) out)
    (free : ∀ i < arguments.length, ¬ placeholder i <+: c :: rest) :
    ∃ out', out = c :: out' ∧ Worded arguments rest out' := by
  generalize htext : c :: rest = text at h
  cases h with
  | nil => cases htext
  | place given behind =>
    obtain ⟨hi, -⟩ := List.getElem?_eq_some_iff.mp given
    exact absurd (htext ▸ List.prefix_append _ _) (free _ hi)
  | other _ behind =>
    cases htext
    exact ⟨_, rfl, behind⟩

theorem of_place (h : Worded arguments (placeholder i ++ rest) out)
    (given : arguments[i]? = some a) :
    ∃ out', out = a.toList ++ out' ∧ Worded arguments rest out' := by
  generalize htext : placeholder i ++ rest = text at h
  cases h with
  | nil => cases htext
  | @place j b rest' out' given' behind =>
    obtain rfl : i = j := placeholder_inj_of_begins (htext ▸ List.prefix_append _ _)
    obtain rfl : rest = rest' := List.append_cancel_left htext
    obtain rfl : a = b := Option.some.inj (given.symm.trans given')
    exact ⟨out', rfl, behind⟩
  | other free _ =>
    obtain ⟨hi, -⟩ := List.getElem?_eq_some_iff.mp given
    exact absurd (htext ▸ List.prefix_append _ _) (free _ hi)

/-- There is one way to fill a template. -/
theorem unique {out' : List Char} (h : Worded arguments text out)
    (h' : Worded arguments text out') : out = out' := by
  induction h generalizing out' with
  | nil => cases h' with
    | nil => rfl
  | place given _ ih =>
    obtain ⟨_, rfl, behind⟩ := h'.of_place given
    rw [ih behind]
  | other free _ ih =>
    obtain ⟨_, rfl, behind⟩ := h'.of_other free
    rw [ih behind]

/-- A text in which no place is opened stays in front. -/
theorem plain_append_iff (hplain : ∀ c ∈ plain, c ≠ '{') :
    Worded arguments (plain ++ rest) out ↔
      ∃ out', out = plain ++ out' ∧ Worded arguments rest out' := by
  induction plain generalizing out with
  | nil => simp
  | cons c plain ih =>
    obtain ⟨hc, hplain⟩ := List.forall_mem_cons.mp hplain
    have free : ∀ i < arguments.length, ¬ placeholder i <+: c :: (plain ++ rest) :=
      fun _ _ => not_begins_of_ne hc
    constructor
    · intro h
      obtain ⟨_, rfl, behind⟩ := h.of_other free
      obtain ⟨out', rfl, hrest⟩ := (ih hplain).mp behind
      exact ⟨out', rfl, hrest⟩
    · rintro ⟨out', rfl, behind⟩
      exact .other free ((ih hplain).mpr ⟨out', rfl, behind⟩)

/-- Behind the opening of a place that takes no argument, the rest of the place stays. -/
theorem rest_of_place (behind : Worded arguments rest out) (hp : placeholder k <+: c :: rest) :
    ∃ rest' out', c = '{' ∧ rest = (placeholder k).tail ++ rest' ∧
      out = (placeholder k).tail ++ out' := by
  obtain ⟨rest', heq⟩ := hp
  rw [placeholder_eq_cons, List.cons_append] at heq
  obtain ⟨rfl, rfl⟩ := List.cons.inj heq
  obtain ⟨out', rfl, -⟩ := (plain_append_iff fun _ => ne_of_mem_tail_placeholder).mp behind
  exact ⟨rest', out', rfl, rfl, rfl⟩

theorem begins_of_begins (behind : Worded arguments rest out)
    (hp : placeholder k <+: c :: rest) : placeholder k <+: c :: out := by
  obtain ⟨rest', out', rfl, -, rfl⟩ := behind.rest_of_place hp
  exact List.prefix_append (placeholder k) out'

/-- Filling a template takes away no place of an argument that is not there. -/
theorem places_le (h : Worded arguments text out) (hk : arguments.length ≤ k) :
    places k text ≤ places k out := by
  induction h with
  | nil => exact Nat.le_refl _
  | @place i b rest out given _ ih =>
    obtain ⟨hi, -⟩ := List.getElem?_eq_some_iff.mp given
    rw [places_placeholder_append (by omega)]
    exact ih.trans places_le_append
  | @other c rest out _ behind ih =>
    by_cases hp : placeholder k <+: c :: rest
    · rw [places_cons_of_begins hp, places_cons_of_begins (behind.begins_of_begins hp)]
      omega
    · rw [places_cons_of_not_begins hp]
      exact ih.trans places_le_cons

/-- A template without arguments is its own wording. -/
theorem of_no_argument : Worded [] text text := by
  induction text with
  | nil => exact .nil
  | cons c text ih => exact .other (fun i hi => absurd hi (Nat.not_lt_zero i)) ih

/-- One more argument, put into a template filled with the ones before it, goes to its own places if
the text has no more of them than the template. -/
theorem replaceAll_last (h : Worded arguments text out)
    (hsame : places arguments.length out = places arguments.length text) :
    Worded (arguments ++ [a]) text
      (replaceAll (placeholder arguments.length) a.toList 0 out) := by
  induction h with
  | nil => exact .nil
  | @place i b rest out given behind ih =>
    obtain ⟨hi, -⟩ := List.getElem?_eq_some_iff.mp given
    have hle := behind.places_le (Nat.le_refl _)
    have hge : places arguments.length out ≤ places arguments.length (b.toList ++ out) :=
      places_le_append
    rw [places_placeholder_append (by omega)] at hsame
    rw [replaceAll_append (by omega)]
    exact .place (by rw [List.getElem?_append_left hi, given]) (ih (by omega))
  | @other c rest out free behind ih =>
    have hle := behind.places_le (Nat.le_refl _)
    by_cases hp : placeholder arguments.length <+: c :: rest
    · rw [places_cons_of_begins hp, places_cons_of_begins (behind.begins_of_begins hp)] at hsame
      have hworded := ih (by omega)
      -- what stands behind the opening of the place is plain on both sides
      obtain ⟨rest', out', rfl, rfl, rfl⟩ := behind.rest_of_place hp
      have hplain : ∀ c ∈ (placeholder arguments.length).tail, c ≠ '{' :=
        fun _ => ne_of_mem_tail_placeholder
      rw [replaceAll_append (places_append_of_plain hplain)] at hworded
      obtain ⟨worded, heq, hrest⟩ := (plain_append_iff hplain).mp hworded
      rw [← List.append_cancel_left heq] at hrest
      change Worded _ (placeholder _ ++ rest') (replaceAll _ _ 0 (placeholder _ ++ out'))
      rw [replaceAll_placeholder_append]
      exact .place List.getElem?_concat_length hrest
    · rw [places_cons_of_not_begins hp] at hsame
      have hle' : places arguments.length out ≤ places arguments.length (c :: out) :=
        places_le_cons
      have hout : ¬ placeholder arguments.length <+: c :: out := by
        intro hq
        rw [places_cons_of_begins hq] at hsame
        omega
      rw [replaceAll_cons_of_not_begins hout]
      refine .other (fun i hi => ?_) (ih (by omega))
      rw [List.length_append, List.length_singleton] at hi
      rcases Nat.lt_succ_iff_lt_or_eq.mp hi with hlt | rfl
      · exact free i hlt
      · exact hp

end Worded

/-- Whether no argument put in leaves more places for a later argument than the template has. -/
def Undisturbed (template : List Char) (arguments : List String) : Prop :=
  ∀ k < arguments.length,
    places k (substitute 0 (arguments.take k) template) = places k template

instance (template : List Char) (arguments : List String) :
    Decidable (Undisturbed template arguments) :=
  inferInstanceAs (Decidable (∀ k < arguments.length, _))

namespace Undisturbed
variable {template : List Char}

theorem init (h : Undisturbed template (arguments ++ [a])) : Undisturbed template arguments := by
  intro k hk
  have hsame := h k (by rw [List.length_append]; omega)
  rwa [List.take_append_of_le_length hk.le] at hsame

theorem last (h : Undisturbed template (arguments ++ [a])) :
    places arguments.length (substitute 0 arguments template) =
      places arguments.length template := by
  have hsame := h arguments.length (by rw [List.length_append, List.length_singleton]; omega)
  rwa [List.take_left] at hsame

/-- One argument has no later one to disturb. -/
theorem of_length_le_one (h : arguments.length ≤ 1) : Undisturbed template arguments := by
  intro k hk
  obtain rfl : k = 0 := by omega
  rfl

/-- Put in one after the other, the arguments are put in all at once. -/
theorem worded (h : Undisturbed template arguments) :
    Worded arguments template (substitute 0 arguments template) := by
  induction arguments using List.reverseRecOn with
  | nil => exact .of_no_argument
  | append_singleton arguments a ih =>
    rw [substitute_append, Nat.zero_add]
    exact (ih h.init).replaceAll_last h.last

end Undisturbed

/-! ## The wording of a template -/

theorem formatMessage_worded {template : String} (h : Undisturbed template.toList arguments) :
    Worded arguments template.toList (formatMessage template arguments).toList := by
  rw [formatMessage, String.toList_ofList]
  exact h.worded

/-- Where no argument brings forth the place of a later one, the wording of a template is the one
text in which every place of an argument has become the argument and nothing else has changed. -/
theorem worded_iff_eq_formatMessage (template : String) (arguments : List String)
    (h : Undisturbed template.toList arguments) (out : List Char) :
    Worded arguments template.toList out ↔ out = (formatMessage template arguments).toList := by
  have hworded := formatMessage_worded h
  exact ⟨fun hout => hout.unique hworded, fun heq => heq ▸ hworded⟩

/-- The second argument may look like the place of the first. -/
theorem worded_iff_eq_formatMessage_pair :
    Undisturbed "\x7b1\x7d: \x7b0\x7d, \x7b2\x7d".toList ["b", "\x7b0\x7d"] ∧
      Worded ["b", "\x7b0\x7d"] "\x7b1\x7d: \x7b0\x7d, \x7b2\x7d".toList
        "\x7b0\x7d: b, \x7b2\x7d".toList := by
  have h : Undisturbed "\x7b1\x7d: \x7b0\x7d, \x7b2\x7d".toList ["b", "\x7b0\x7d"] := by
    decide +kernel
  exact ⟨h, (worded_iff_eq_formatMessage _ _ h _).mpr (by decide +kernel)⟩

/-- An argument that looks like the place of a later one is taken for it. -/
theorem not_worded_formatMessage_place :
    formatMessage "\x7b0\x7d\x7b1\x7d" ["\x7b1\x7d", "x"] = "xx" ∧
      ¬ Worded ["\x7b1\x7d", "x"] "\x7b0\x7d\x7b1\x7d".toList
        (formatMessage "\x7b0\x7d\x7b1\x7d" ["\x7b1\x7d", "x"]).toList := by
  refine ⟨by decide +kernel, fun h => ?_⟩
  have hboth : Worded ["\x7b1\x7d", "x"] (placeholder 0 ++ (placeholder 1 ++ []))
      ("\x7b1\x7d".toList ++ ("x".toList ++ [])) := .place rfl (.place rfl .nil)
  exact absurd (h.unique hboth) (by decide +kernel)

/-- A reported message takes at most one argument, which goes to its places and nowhere else. -/
theorem Diagnostic.report_worded (span : Span) (message : Message) (argument : Option String) :
    Worded argument.toList message.template.toList (report span message argument).text.toList := by
  refine formatMessage_worded (.of_length_le_one ?_)
  cases argument <;> simp

end EcmaSyntax
