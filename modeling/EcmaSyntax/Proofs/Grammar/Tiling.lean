import EcmaSyntax.Proofs.Parse.Ready
import EcmaSyntax.Proofs.Token.Spaced
import EcmaSyntax.Tree.Shape
import Mathlib.Data.List.Chain
import Mathlib.Data.List.TakeWhile

/-! # Children of elements

Between the tags of an element every character belongs to a child. Text goes on up to the next brace
or angle bracket, so that a text is never empty and never follows another one. A token that is read
among children begins right behind the token before it, which is what keeps the children together. -/
namespace EcmaSyntax
open Scanner

/-! ## Nodes -/

/-- Nodes that follow each other without a gap between two offsets. -/
inductive Tiles : Nat → List Node → Nat → Prop
  | nil {offset : Nat} : Tiles offset [] offset
  | cons {n : Node} {rest : List Node} {stop : Nat} : n.range.pos < n.range.stop →
      Tiles n.range.stop rest stop → Tiles n.range.pos (n :: rest) stop

theorem Tiles.push {first last : Nat} {ns : List Node} {n : Node} (h : Tiles first ns last)
    (hpos : n.range.pos = last) (hlt : last < n.range.stop) :
    Tiles first (ns ++ [n]) n.range.stop := by
  induction h with
  | nil =>
    subst hpos
    exact .cons hlt .nil
  | cons hlt' _ ih => exact .cons hlt' (ih hpos hlt)

/-- Nothing stands between two offsets only if they are the same. -/
theorem Tiles.eq_nil_iff {first last : Nat} {ns : List Node} (h : Tiles first ns last) :
    ns = [] ↔ first = last := by
  have hle {first last : Nat} {ns : List Node} (h : Tiles first ns last) : first ≤ last := by
    induction h with
    | nil => exact Nat.le_refl _
    | cons hlt _ ih => exact Nat.le_trans (Nat.le_of_lt hlt) ih
  cases h with
  | nil => simp
  | cons hlt hrest =>
    have := hle hrest
    simp
    omega

namespace Node

/-- The text of a child that is text. -/
def childText? (n : Node) : Option String :=
  match n.form with
  | .jsxText text _ => some text
  | _ => none

/-- The name of a tag as a path. -/
def tagPath : Node → TagPath
  | .mk _ (.jsxNamespacedName space name) =>
    .namespaced (space.identifierText?.getD "") (name.identifierText?.getD "")
  | .mk _ (.jsxMemberName object name) =>
    .member object.tagPath (name.identifierText?.getD "")
  | n => .plain (n.identifierText?.getD "")

end Node

/-- A text among children. -/
def IsChildText (text : String) : Prop :=
  text ≠ "" ∧ ∀ c ∈ text.toList, c ≠ '\x7b' ∧ c ≠ '<'

/-- Texts among children stand apart from each other. -/
structure Apart (ns : List Node) : Prop where
  texts : ∀ n ∈ ns, ∀ text ∈ n.childText?, IsChildText text
  chain : ns.IsChain fun a b => a.childText? = none ∨ b.childText? = none

/-- The children of an element cover what stands between its tags, whose names are the same. -/
structure Tiled (opening children closing : Node) : Prop where
  exists_parts : ∃ tag arguments attributes cs tag',
    opening.form = .jsxOpening false tag arguments attributes ∧ children.form = .jsxChildren cs ∧
      closing.form = .jsxClosing tag' ∧ tag.tagPath = tag'.tagPath ∧
      Tiles opening.range.stop cs closing.range.pos ∧ Apart cs

theorem Apart.nil : Apart [] := ⟨nofun, .nil⟩

theorem Apart.push {ns : List Node} {n : Node} (h : Apart ns)
    (htext : ∀ text ∈ n.childText?, IsChildText text)
    (hlast : n.childText? = none ∨ ∀ m ∈ ns.getLast?, m.childText? = none) : Apart (ns ++ [n]) := by
  refine ⟨fun m hm => ?_, List.isChain_append.mpr ⟨h.chain, .singleton n, fun m hm m' hm' => ?_⟩⟩
  · rcases List.mem_append.mp hm with hm | hm
    · exact h.texts m hm
    · exact List.mem_singleton.mp hm ▸ htext
  · obtain rfl : n = m' := Option.some.inj hm'
    exact hlast.symm.imp_left fun hnone => hnone m hm

/-! ## Lexemes among children -/

namespace Lexeme

/-- The characters of texts among children. -/
def isChildChar (c : Char) : Bool := c != '\x7b' && c != '<'

theorem childLexeme_text {text : List Char} (h : (childLexeme text).kind = .jsxText) :
    (childLexeme text).size = (text.takeWhile isChildChar).length ∧
      ∃ c ∈ text.head?, isChildChar c = true := by
  unfold childLexeme at h ⊢
  split at h
  case h_5 hnil hclosing hless hbrace =>
    refine ⟨rfl, ?_⟩
    cases text with
    | nil => exact (hnil rfl).elim
    | cons c rest =>
      refine ⟨c, rfl, ?_⟩
      rw [isChildChar, Bool.and_eq_true, bne_iff_ne, bne_iff_ne]
      exact ⟨fun hc => hbrace rest (by rw [hc]), fun hc => hless rest (by rw [hc])⟩
  all_goals cases h

/-- Behind a text there is none. -/
theorem childLexeme_drop {text : List Char} (h : (childLexeme text).kind = .jsxText) :
    (childLexeme (text.drop (childLexeme text).size)).kind ≠ .jsxText := by
  intro hnext
  obtain ⟨c, hc, hchar⟩ := (childLexeme_text hnext).2
  have hdrop : text.drop (text.takeWhile isChildChar).length = text.dropWhile isChildChar := by
    calc text.drop (text.takeWhile isChildChar).length
        = (text.takeWhile isChildChar ++ text.dropWhile isChildChar).drop
            (text.takeWhile isChildChar).length := by rw [List.takeWhile_append_dropWhile]
      _ = text.dropWhile isChildChar := List.drop_left
  rw [(childLexeme_text h).1, hdrop, Option.mem_def] at hc
  have hhead := List.head?_dropWhile_not isChildChar text
  rw [hc] at hhead
  exact Bool.noConfusion (hchar.symm.trans hhead)

end Lexeme

/-! ## States -/

namespace ParseState

/-- The present token has been read among children. -/
structure AtChild (s : ParseState) : Prop where
  start_eq : s.start = s.full
  token_eq : s.token = (childLexeme s.start.rest).kind
  stop_eq : s.scanner.stop = s.start.skip (childLexeme s.start.rest).size

variable {s : ParseState}

theorem consume_atChild (s : ParseState) : (s.consume .child).AtChild := by
  let t : Scanner := { s.flush.scanner with
    full := s.scanner.stop, start := s.scanner.stop, flags := ∅ }
  have hreading : (s.consume .child).reading = _ := take_reading t (childLexeme s.scanner.stop.rest)
  have hstart : (s.consume .child).start = s.scanner.stop := congrArg Reading.start hreading
  refine ⟨hstart.trans (congrArg Reading.full hreading).symm, ?_, ?_⟩
  · rw [hstart]
    exact congrArg Reading.token hreading
  · rw [hstart]
    exact congrArg Reading.stop hreading

namespace AtChild

/-- A text goes on up to the next brace or angle bracket. -/
theorem isChildText [hs : s.Ready] (h : s.AtChild) (ht : s.token = .jsxText) :
    IsChildText s.reading.text := by
  obtain ⟨hsize, c, hc, hchar⟩ := Lexeme.childLexeme_text (h.token_eq.symm.trans ht)
  have hspelling : s.reading.spelling = s.start.rest.takeWhile Lexeme.isChildChar := by
    calc s.reading.spelling
        = s.start.textTo (s.start.skip (childLexeme s.start.rest).size) :=
          congrArg s.start.textTo h.stop_eq
      _ = s.start.rest.take (s.start.rest.takeWhile Lexeme.isChildChar).length := by
          rw [Cursor.textTo_skip _ hs.start_sound, hsize]
      _ = s.start.rest.takeWhile Lexeme.isChildChar :=
          (List.prefix_iff_eq_take.mp (List.takeWhile_prefix _)).symm
  obtain ⟨rest, hrest⟩ := List.head?_eq_some_iff.mp hc
  constructor
  · intro hempty
    rw [Reading.text, hspelling, hrest, List.takeWhile_cons_of_pos hchar,
      String.ofList_eq_empty_iff] at hempty
    cases hempty
  · intro d hd
    rw [Reading.text, String.toList_ofList, hspelling] at hd
    simpa [Lexeme.isChildChar] using List.mem_takeWhile_imp hd

theorem token_consume_ne (h : s.AtChild) (ht : s.token = .jsxText) :
    (s.consume .child).token ≠ .jsxText := by
  have hreading : (s.consume .child).token = (childLexeme s.scanner.stop.rest).kind :=
    congrArg Reading.token (take_reading { s.flush.scanner with
      full := s.scanner.stop, start := s.scanner.stop, flags := ∅ } _)
  rw [hreading, h.stop_eq, Cursor.skip_rest]
  exact Lexeme.childLexeme_drop (h.token_eq.symm.trans ht)

theorem isChildToken (h : s.AtChild) : s.token.isChildToken = true := by
  rw [h.token_eq]
  unfold childLexeme
  split <;> rfl

theorem shallower (h : s.AtChild) : s.shallower.AtChild := ⟨h.start_eq, h.token_eq, h.stop_eq⟩

end AtChild

/-- Children that have been read one behind the other between two states. -/
structure TiledTo (s : ParseState) (found : List Node) (t : ParseState) : Prop where
  atChild : t.AtChild
  tiles : Tiles s.start.offset found t.start.offset
  apart : Apart found
  last : t.token = .jsxText → ∀ n ∈ found.getLast?, n.childText? = none

theorem AtChild.tiledTo (h : s.AtChild) : s.TiledTo [] s := ⟨h, .nil, .nil, nofun⟩

/-- One more child. If it is a text, there is none in front of it and none behind it. -/
theorem TiledTo.push {t u : ParseState} {found : List Node} {n : Node} [ht : t.Ready]
    (h : s.TiledTo found t) (hm : Moves t u) (hlt : u.left < t.left) (hu : u.AtChild)
    (hpos : n.range.pos = t.start.offset) (hstop : n.range.stop = u.full.offset)
    (htext : ∀ text ∈ n.childText?,
      t.token = .jsxText ∧ IsChildText text ∧ u.token ≠ .jsxText) :
    s.TiledTo (found ++ [n]) u := by
  have hstop : n.range.stop = u.start.offset := hstop.trans (congrArg Cursor.offset hu.start_eq).symm
  have hmoved : t.start.offset < n.range.stop := hstop ▸ (hm.offset_lt_iff ht).mpr hlt
  have hnone (hno : ¬ (t.token = .jsxText ∧ u.token ≠ .jsxText)) : n.childText? = none :=
    Option.eq_none_iff_forall_not_mem.mpr fun text hmem =>
      hno ⟨(htext text hmem).1, (htext text hmem).2.2⟩
  refine ⟨hu, hstop ▸ h.tiles.push hpos hmoved, ?_, fun htoken m hm => ?_⟩
  · refine h.apart.push (fun text hmem => (htext text hmem).2.1) ?_
    by_cases htoken : t.token = .jsxText
    · exact .inr (h.last htoken)
    · exact .inl (hnone fun hno => htoken hno.1)
  · rw [List.getLast?_concat, Option.mem_some_iff] at hm
    exact hm ▸ hnone fun hno => hno.2 htoken

end ParseState
end EcmaSyntax
