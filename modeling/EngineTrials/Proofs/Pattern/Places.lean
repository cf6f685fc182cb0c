import EngineTrials.Pattern.Basic
import Mathlib.Data.List.Basic

/-! What patterns stand for. A search takes all the places of a text where a pattern may start to
those where it may end at once; what it computes with such sets of places is said by what stands
before and after a place. -/

namespace EngineTrials

namespace Pattern

/-- The places of a text where `P` holds of what stands before and after them. -/
structure Marks (text : List Char) (P : List Char → List Char → Prop) (places : Places) :
    Prop where
  length : places.length = text.length + 1
  iff : ∀ before after, text = before ++ after →
    (places[before.length]? = some true ↔ P before after)

/-- What a pattern stands for: it goes from a place to those that texts of a kind lead to. -/
def StandsFor (p : Pattern) (L : List Char → Prop) : Prop :=
  ∀ text P places, Marks text P places →
    Marks text
      (fun before after => ∃ front part, before = front ++ part ∧ L part ∧ P front (part ++ after))
      (ends text p places)

section

variable {text before after : List Char} {P Q : List Char → List Char → Prop}
  {places others : Places} {p q : Pattern} {L M : List Char → Prop} {set : CharClass}

namespace Marks

theorem congr (h : Marks text P places) (hiff : ∀ before after, P before after ↔ Q before after) :
    Marks text Q places :=
  ⟨h.length, fun before after htext => (h.iff before after htext).trans (hiff before after)⟩

theorem exists_place (h : Marks text P places) (htext : text = before ++ after) :
    ∃ b, places[before.length]? = some b ∧ (b = true ↔ P before after) := by
  have hlt : before.length < places.length := by
    rw [h.length, htext, List.length_append]
    omega
  have hplace := h.iff before after htext
  rw [List.getElem?_eq_getElem hlt, Option.some.injEq] at hplace
  exact ⟨_, List.getElem?_eq_getElem hlt, hplace⟩

theorem everywhere (text : List Char) :
    Marks text (fun _ _ => True) (true :: text.map fun _ => true) := by
  have hall : (true :: text.map fun _ => true) = List.replicate (text.length + 1) true := by
    simp [List.replicate_succ]
  rw [hall]
  refine ⟨by simp, fun before after htext => iff_of_true ?_ trivial⟩
  rw [List.getElem?_replicate, if_pos (by rw [htext, List.length_append]; omega)]

theorem textStart (text : List Char) :
    Marks text (fun before _ => before = []) (Anchor.textStart.places text) := by
  refine ⟨by simp [Anchor.places], fun before after htext => ?_⟩
  cases before with
  | nil => simp [Anchor.places]
  | cons c before => simp [Anchor.places, List.getElem?_replicate]

theorem textEnd (text : List Char) :
    Marks text (fun _ after => after = []) (Anchor.textEnd.places text) := by
  refine ⟨by simp [Anchor.places], fun before after htext => ?_⟩
  subst htext
  cases after with
  | nil => simp [Anchor.places]
  | cons c after =>
    rw [Anchor.places, List.getElem?_append_left (by simp)]
    simp

theorem union (h : Marks text P places) (h' : Marks text Q others) :
    Marks text (fun before after => P before after ∨ Q before after) (places.union others) := by
  refine ⟨by simp [Places.union, h.length, h'.length], fun before after htext => ?_⟩
  obtain ⟨b, hb, hP⟩ := h.exists_place htext
  obtain ⟨b', hb', hQ⟩ := h'.exists_place htext
  rw [Places.union, List.getElem?_zipWith, hb, hb', ← hP, ← hQ]
  simp

theorem inter (h : Marks text P places) (h' : Marks text Q others) :
    Marks text (fun before after => P before after ∧ Q before after) (places.inter others) := by
  refine ⟨by simp [Places.inter, h.length, h'.length], fun before after htext => ?_⟩
  obtain ⟨b, hb, hP⟩ := h.exists_place htext
  obtain ⟨b', hb', hQ⟩ := h'.exists_place htext
  rw [Places.inter, List.getElem?_zipWith, hb, hb', ← hP, ← hQ]
  simp

end Marks

/-! What the patterns of tokens are made of. -/

theorem standsFor_empty : StandsFor .empty (· = []) := by
  intro text P places h
  refine h.congr fun before after => ?_
  constructor
  · exact fun hP => ⟨before, [], by simp, rfl, hP⟩
  · rintro ⟨front, -, rfl, rfl, hP⟩
    simpa using hP

theorem standsFor_one (set : CharClass) :
    StandsFor (.one set) fun part => ∃ c, part = [c] ∧ set.has c = true := by
  intro text P places h
  refine ⟨by simp [ends, h.length], fun before after htext => ?_⟩
  rcases List.eq_nil_or_concat before with rfl | ⟨front, c, rfl⟩
  · simp [ends]
  · rw [List.concat_eq_append] at htext ⊢
    have hsplit : text = front ++ c :: after := by simpa using htext
    have hchar : text[front.length]? = some c := by simp [hsplit]
    obtain ⟨b, hb, hP⟩ := h.exists_place hsplit
    have hplace : (ends text (.one set) places)[(front ++ [c]).length]? =
        some (b && set.has c) := by
      simp [ends, List.getElem?_zipWith, hchar, hb]
    rw [hplace, Option.some.injEq, Bool.and_eq_true, hP]
    constructor
    · exact fun ⟨hfront, hc⟩ => ⟨front, [c], rfl, ⟨c, rfl, hc⟩, hfront⟩
    · rintro ⟨front', -, hbefore, ⟨c', rfl, hc'⟩, hP'⟩
      obtain ⟨rfl, rfl⟩ : front = front' ∧ c = c' := by simpa using hbefore
      exact ⟨hP', hc'⟩

theorem StandsFor.congr (h : StandsFor p L) (hiff : ∀ part, L part ↔ M part) : StandsFor p M := by
  intro text P places hplaces
  refine (h text P places hplaces).congr fun before after => ?_
  simp only [hiff]

/-- Two texts one after the other, as one text. -/
theorem exists_parts_iff :
    (∃ front rest, before = front ++ rest ∧ M rest ∧
      ∃ start first, front = start ++ first ∧ L first ∧ P start (first ++ (rest ++ after))) ↔
    ∃ start part, before = start ++ part ∧
      (∃ first rest, part = first ++ rest ∧ L first ∧ M rest) ∧ P start (part ++ after) := by
  constructor
  · rintro ⟨-, rest, rfl, hrest, start, first, rfl, hfirst, hP⟩
    exact ⟨start, first ++ rest, by simp, ⟨first, rest, rfl, hfirst, hrest⟩, by simpa using hP⟩
  · rintro ⟨start, -, rfl, ⟨first, rest, rfl, hfirst, hrest⟩, hP⟩
    exact ⟨start ++ first, rest, by simp, hrest, start, first, rfl, hfirst, by simpa using hP⟩

theorem StandsFor.seq (hp : StandsFor p L) (hq : StandsFor q M) :
    StandsFor (.seq p q) fun part => ∃ first rest, part = first ++ rest ∧ L first ∧ M rest := by
  intro text P places h
  exact (hq text _ _ (hp text P places h)).congr fun _ _ => exists_parts_iff

theorem StandsFor.optional (hp : StandsFor p L) :
    StandsFor (.repeated p 0 (some 1)) fun part => part = [] ∨ L part := by
  intro text P places h
  have hends : ends text (.repeated p 0 (some 1)) places = places.union (ends text p places) := by
    simp [ends, Places.reach, Nat.repeat]
  rw [hends]
  refine (h.union (hp text P places h)).congr fun before after => ?_
  constructor
  · rintro (hP | ⟨front, part, rfl, hpart, hP⟩)
    · exact ⟨before, [], by simp, .inl rfl, hP⟩
    · exact ⟨front, part, rfl, .inr hpart, hP⟩
  · rintro ⟨front, part, rfl, rfl | hpart, hP⟩
    · exact .inl (by simpa using hP)
    · exact .inr ⟨front, part, rfl, hpart, hP⟩

/-- As many rounds go over as many characters at most. -/
theorem Marks.reach (h : Marks text P places) (rounds : Nat) :
    Marks text (fun before after => ∃ front part, before = front ++ part ∧
      (part.length ≤ rounds ∧ part.all set.has = true) ∧ P front (part ++ after))
      (Places.reach (ends text (.one set)) rounds places) := by
  induction rounds generalizing P places with
  | zero =>
    refine h.congr fun before after => ?_
    constructor
    · exact fun hP => ⟨before, [], by simp, by simp, hP⟩
    · rintro ⟨front, part, rfl, ⟨hlength, -⟩, hP⟩
      obtain rfl := List.length_eq_zero_iff.1 (Nat.le_zero.1 hlength)
      simpa using hP
  | succ rounds ih =>
    refine (ih (h.union (standsFor_one set text P places h))).congr fun before after => ?_
    constructor
    · rintro ⟨front, part, rfl, ⟨hlength, hall⟩, hP | ⟨front, -, rfl, ⟨c, rfl, hc⟩, hP⟩⟩
      · exact ⟨front, part, rfl, ⟨by omega, hall⟩, hP⟩
      · exact ⟨front, c :: part, by simp, ⟨by simpa using hlength, by simp [hc, hall]⟩, hP⟩
    · rintro ⟨front, part, rfl, ⟨hlength, hall⟩, hP⟩
      cases part with
      | nil => exact ⟨front, [], rfl, by simp, .inl hP⟩
      | cons c part =>
        rw [List.all_cons, Bool.and_eq_true] at hall
        exact ⟨front ++ [c], part, by simp, ⟨by simpa using hlength, hall.2⟩,
          .inr ⟨front, [c], rfl, ⟨c, rfl, hall.1⟩, hP⟩⟩

theorem standsFor_many (set : CharClass) :
    StandsFor (.repeated (.one set) 0 none) fun part => part.all set.has = true := by
  intro text P places h
  have hends : ends text (.repeated (.one set) 0 none) places =
      Places.reach (ends text (.one set)) (text.length + 1) places := by
    simp [ends, Nat.repeat]
  have hreach := @Marks.reach text P places set h (text.length + 1)
  rw [← hends] at hreach
  refine ⟨hreach.length, fun before after htext => (hreach.iff before after htext).trans ?_⟩
  constructor
  · rintro ⟨front, part, rfl, ⟨-, hall⟩, hP⟩
    exact ⟨front, part, rfl, hall, hP⟩
  · rintro ⟨front, part, rfl, hall, hP⟩
    refine ⟨front, part, rfl, ⟨?_, hall⟩, hP⟩
    rw [htext, List.length_append, List.length_append]
    omega

/-- What a search finds, given the places that it comes to. -/
theorem occursIn_iff (h : Marks text P (ends text p (true :: text.map fun _ => true))) :
    p.occursIn text = true ↔ ∃ before after, text = before ++ after ∧ P before after := by
  rw [occursIn, List.any_eq_true]
  constructor
  · rintro ⟨b, hmem, hb⟩
    obtain rfl : b = true := hb
    obtain ⟨i, hi⟩ := List.mem_iff_getElem?.1 hmem
    obtain ⟨hlt, -⟩ := List.getElem?_eq_some_iff.1 hi
    rw [h.length] at hlt
    have hlength : (text.take i).length = i := List.length_take_of_le (by omega)
    have hsplit : text = text.take i ++ text.drop i := (List.take_append_drop i text).symm
    exact ⟨_, _, hsplit, (h.iff _ _ hsplit).1 (by rwa [hlength])⟩
  · rintro ⟨before, after, htext, hP⟩
    exact ⟨true, List.mem_of_getElem? ((h.iff before after htext).2 hP), rfl⟩

end

end Pattern

end EngineTrials
