import Mathlib.Data.List.Infix
import Stencil.Text.Html

/-! # Escaped texts

An escaped text holds no markup, and an ampersand only where an entity begins (`IsEscaped`). Escaping writes such
texts (`isEscaped_escape`) and every one of them (`IsEscaped.exists_escape`), an entity standing for one character.
Since its texts are also read back, texts and escaped texts correspond one to one (`escape_lossless`). -/

namespace Stencil.Html
open Text

variable {c : Char} {e s t : Text}

/-- The characters of markup. -/
def markup : Text := ['<', '>', '"', '\'']

theorem mem_markup : c ∈ markup ↔ c = '<' ∨ c = '>' ∨ c = '"' ∨ c = '\'' := by
  simp only [markup, List.mem_cons, List.not_mem_nil, or_false]

/-- What an ampersand begins in an escaped text. -/
def entities : List Text := ["&amp;", "&lt;", "&gt;", "&quot;", "&#039;"].map String.toList

structure IsEscaped (t : Text) : Prop where
  /-- There is no markup. -/
  unmarked : ∀ c ∈ markup, c ∉ t
  /-- Every ampersand is the first character of an entity. -/
  begins : ∀ after, '&' :: after <:+ t → ∃ e ∈ entities, e <+: '&' :: after

theorem isEscaped_nil : IsEscaped [] where
  unmarked _ _ := List.not_mem_nil
  begins _ h := nomatch List.suffix_nil.1 h

theorem isEscaped_cons :
    IsEscaped (c :: t) ↔ c ∉ markup ∧ (c = '&' → ∃ e ∈ entities, e <+: c :: t) ∧ IsEscaped t := by
  constructor
  · intro h
    refine ⟨fun hc => h.unmarked c hc List.mem_cons_self, ?_, ?_, ?_⟩
    · rintro rfl
      exact h.begins t (List.suffix_refl _)
    · exact fun d hd hmem => h.unmarked d hd (List.mem_cons_of_mem _ hmem)
    · exact fun after hafter => h.begins after (hafter.trans (List.suffix_cons ..))
  · rintro ⟨hc, hfirst, h⟩
    constructor
    · intro d hd hmem
      rcases List.mem_cons.1 hmem with rfl | hmem
      · exact hc hd
      · exact h.unmarked d hd hmem
    · intro after hafter
      rcases List.suffix_cons_iff.1 hafter with heq | hafter
      · obtain ⟨rfl, rfl⟩ := List.cons.inj heq
        exact hfirst rfl
      · exact h.begins after hafter

namespace IsEscaped

instance decidable : (t : Text) → Decidable (IsEscaped t)
  | [] => isTrue isEscaped_nil
  | _ :: t =>
    have := decidable t
    decidable_of_iff' _ isEscaped_cons

theorem append (hs : IsEscaped s) (ht : IsEscaped t) : IsEscaped (s ++ t) := by
  induction s with
  | nil => exact ht
  | cons c s ih =>
    obtain ⟨hc, hfirst, hs⟩ := isEscaped_cons.1 hs
    refine isEscaped_cons.2 ⟨hc, fun hamp => ?_, ih hs⟩
    obtain ⟨e, he, hprefix⟩ := hfirst hamp
    exact ⟨e, he, hprefix.trans (List.prefix_append (c :: s) t)⟩

theorem of_append (h : IsEscaped (s ++ t)) : IsEscaped t := by
  induction s with
  | nil => exact h
  | cons c s ih => exact ih (isEscaped_cons.1 h).2.2

end IsEscaped

theorem mem_entities (h : entity? c = some e) : e ∈ entities := by
  rw [entity?] at h
  split_ifs at h <;> cases h <;> decide

theorem exists_escapeChar (h : e ∈ entities) : e ≠ [] ∧ ∃ c, escapeChar c = e := by
  simp only [entities, List.map_cons, List.map_nil, List.mem_cons, List.not_mem_nil, or_false] at h
  rcases h with rfl | rfl | rfl | rfl | rfl
  exacts [⟨by decide, '&', rfl⟩, ⟨by decide, '<', rfl⟩, ⟨by decide, '>', rfl⟩, ⟨by decide, '"', rfl⟩,
    ⟨by decide, '\'', rfl⟩]

theorem entity?_eq_none_iff : entity? c = none ↔ c ≠ '&' ∧ c ∉ markup := by
  rw [mem_markup, entity?]
  split_ifs <;> simp_all

theorem isEscaped_escapeChar (c : Char) : IsEscaped (escapeChar c) := by
  have hentities : ∀ e ∈ entities, IsEscaped e := by decide
  rw [escapeChar]
  cases h : entity? c with
  | some e => exact hentities e (mem_entities h)
  | none =>
    obtain ⟨hamp, hc⟩ := entity?_eq_none_iff.1 h
    exact isEscaped_cons.2 ⟨hc, fun heq => absurd heq hamp, isEscaped_nil⟩

theorem isEscaped_escape (s : Text) : IsEscaped (escape s) := by
  induction s with
  | nil => exact isEscaped_nil
  | cons c s ih => exact (isEscaped_escapeChar c).append ih

theorem count_escape (hc : c ∈ markup) (s : Text) : (escape s).count c = 0 :=
  List.count_eq_zero.2 ((isEscaped_escape s).unmarked c hc)

theorem IsEscaped.exists_escape (h : IsEscaped t) : ∃ s, escape s = t := by
  -- by length, since an entity takes several characters off at once
  induction hn : t.length using Nat.strong_induction_on generalizing t with
  | _ n ih =>
    subst hn
    cases t with
    | nil => exact ⟨[], rfl⟩
    | cons c t =>
      obtain ⟨hc, hfirst, ht⟩ := isEscaped_cons.1 h
      by_cases hamp : c = '&'
      · obtain ⟨e, he, rest, hrest⟩ := hfirst hamp
        obtain ⟨hne, d, rfl⟩ := exists_escapeChar he
        rw [← hrest] at h ih ⊢
        have hshorter : rest.length < (escapeChar d ++ rest).length := by
          rw [List.length_append]
          exact Nat.lt_add_of_pos_left (List.length_pos_iff.2 hne)
        obtain ⟨s, rfl⟩ := ih rest.length hshorter h.of_append rfl
        exact ⟨d :: s, escape_cons d s⟩
      · obtain ⟨s, rfl⟩ := ih t.length (Nat.lt_succ_self _) ht rfl
        refine ⟨c :: s, ?_⟩
        rw [escape_cons, escapeChar, entity?_eq_none_iff.2 ⟨hamp, hc⟩]
        rfl

/-- Escaping writes texts without markup, in which every ampersand begins an entity, and every such text. What it
wrote is read back to what it was given, so distinct texts stay distinct, and it goes piece by piece. -/
theorem escape_lossless (s t : Text) :
    IsEscaped (escape s) ∧ unescape (escape s) = s ∧ (escape s = escape t ↔ s = t) ∧
      escape (s ++ t) = escape s ++ escape t ∧ (IsEscaped t ↔ escape (unescape t) = t) := by
  refine ⟨isEscaped_escape s, unescape_escape s, ⟨fun h => ?_, congrArg escape⟩, escape_append s t, fun h => ?_,
    fun h => h ▸ isEscaped_escape (unescape t)⟩
  · rw [← unescape_escape s, h, unescape_escape]
  · obtain ⟨u, rfl⟩ := h.exists_escape
    rw [unescape_escape]

/-- An entity in the data is not one in the text. -/
example : escape "&lt;'&".toList = "&amp;lt;&#039;&amp;".toList ∧
    unescape "&amp;lt;&#039;&amp;".toList = "&lt;'&".toList ∧ ¬ IsEscaped "&amp;lt;&#39;".toList := by decide

end Stencil.Html
