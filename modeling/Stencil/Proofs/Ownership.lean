import Stencil.Proofs.Binding

/-! # Keys and the placeholders they find

A binding takes the placeholders that the search for its key finds, and never compares the key with the
one that it reads there. The two agree for words: such a binding answers to its own placeholders alone
(`substituteKey_own_iff`). A key that is no word finds placeholders of other keys only, and the empty
key finds all. -/

namespace Stencil
open Text Placeholder
variable {φ : Type}

theorem Slot.isKeyChar_of_mem_key {p : Text} {slot : Slot} (h : ofPlaceholder? p = some slot) :
    ∀ c ∈ slot.key, isKeyChar c = true := by
  obtain ⟨tail, hreads⟩ := ofPlaceholder?_eq_some_iff.1 h
  exact fun c hc => hreads.isKeyChar_of_mem_key hc

/-- A slot without a key begins with the dot in front of its attribute. -/
theorem Slot.key_eq_nil_iff {p : Text} {slot : Slot} (h : ofPlaceholder? p = some slot) :
    slot.key = [] ↔ (bare p).head? = some '.' := by
  obtain ⟨tail, hreads⟩ := ofPlaceholder?_eq_some_iff.1 h
  rw [hreads.body_eq, written]
  cases hkey : slot.key with
  | nil =>
    cases hattr : slot.attr with
    | none => exact absurd (by rw [written, hkey, hattr]; rfl) hreads.path_ne_nil
    | some a => simp
  | cons c key =>
    refine iff_of_false (List.cons_ne_nil _ _) fun hc => hreads.no_dot ?_
    obtain rfl : c = '.' := Option.some.inj hc
    rw [hkey]
    exact List.mem_cons_self

/-- Neither a blank nor a character of a name is a brace. -/
theorem Placeholder.Headed.head_ne_opening {name body : Text} (hname : IsKey name) (h : Headed name body) :
    body.head? ≠ some '{' := by
  obtain ⟨tail, htail, -⟩ := h
  obtain ⟨c, rest, rfl⟩ := List.exists_cons_of_ne_nil hname.ne_nil
  rcases eq_of_skipOne_eq htail with hb | hb
  · rw [hb]
    intro hc
    obtain rfl : c = '{' := Option.some.inj hc
    exact hname.not_mem (by decide) List.mem_cons_self
  · rw [hb]
    exact fun hc => absurd (Option.some.inj hc) (by decide)

theorem Placeholder.key_eq_of_mem_find {doc key p : Text} {slot : Slot} (hkey : IsKey key) (hp : p ∈ find doc key)
    (h : Slot.ofPlaceholder? p = some slot) : slot.key = key := by
  obtain ⟨body, rfl, hb, hhead⟩ := exists_headed_of_mem_find hkey.ne_nil (hkey.not_mem (by decide)) hp
  have hlast : body.getLast? ≠ some '}' := fun hl => hb (List.mem_of_getLast? hl)
  obtain ⟨tail, hreads⟩ := (Slot.ofPlaceholder?_braced_eq_some_iff (hhead.head_ne_opening hkey) hlast).1 h
  exact hreads.key_eq_of_headed hkey hhead

/-- Whether a placeholder reads as a slot of a key. -/
def Placeholder.names (key p : Text) : Bool := (Slot.ofPlaceholder? p).any fun slot => slot.key == key

namespace Document
variable (host : Host φ) (user : Entries φ) (keep : Bool)

theorem substituteOne_of_unread {v : Value Outcome} {doc p : Text} (h : Slot.ofPlaceholder? p = none) :
    substituteOne host user keep v doc p = .ok doc := by
  have hans : answer? host user v p = none := by rw [answer?, h]; rfl
  rw [substituteOne, hans]

theorem foldlM_filter {f : Text → Text → Outcome} {q : Text → Bool} {ps : List Text}
    (h : ∀ p ∈ ps, q p = false → ∀ doc, f doc p = .ok doc) (doc : Text) :
    (ps.filter q).foldlM f doc = ps.foldlM f doc := by
  induction ps generalizing doc with
  | nil => rfl
  | cons p ps ih =>
    have hps := ih fun p hp => h p (List.mem_cons_of_mem _ hp)
    cases hq : q p with
    | true =>
      rw [List.filter_cons_of_pos hq, List.foldlM_cons, List.foldlM_cons]
      exact congrArg _ (funext hps)
    | false =>
      rw [List.filter_cons_of_neg (by simp [hq]), hps, List.foldlM_cons, h p List.mem_cons_self hq]
      rfl

theorem foldlM_own {key : Text} (hkey : IsKey key) (v : Value Outcome) (doc : Text) :
    ((Placeholder.find doc key).filter (names key)).foldlM (substituteOne host user keep v) doc =
      (Placeholder.find doc key).foldlM (substituteOne host user keep v) doc := by
  refine foldlM_filter (fun p hp hnames doc => ?_) doc
  cases hslot : Slot.ofPlaceholder? p with
  | none => exact substituteOne_of_unread host user keep hslot
  | some slot =>
    have hown := key_eq_of_mem_find hkey hp hslot
    rw [names, hslot] at hnames
    simp [hown] at hnames

/-- What a key finds reads as a slot of that key exactly if the key is a word, or if it is empty and so
is the one in front of the dot; and a word's binding runs over slots of its own and no others. -/
theorem substituteKey_own_iff (key : Text) {v : Value Outcome} (hv : v.isTemplate = false) (doc : Text) :
    (∀ p ∈ Placeholder.find doc key, ∀ slot, Slot.ofPlaceholder? p = some slot →
      (slot.key = key ↔ IsKey key ∨ key = [] ∧ (Slot.bare p).head? = some '.')) ∧
    (IsKey key → substituteKey host user keep doc (key, v) =
      if v.isEmptyCollection then .ok doc
      else ((Placeholder.find doc key).filter (names key)).foldlM (substituteOne host user keep v) doc) := by
  refine ⟨fun p hp slot hslot => ⟨?_, ?_⟩, fun hkey => ?_⟩
  · rintro rfl
    by_cases hne : slot.key = []
    · exact .inr ⟨hne, (Slot.key_eq_nil_iff hslot).1 hne⟩
    · exact .inl ⟨hne, Slot.isKeyChar_of_mem_key hslot⟩
  · rintro (hkey | ⟨rfl, hdot⟩)
    · exact key_eq_of_mem_find hkey hp hslot
    · exact (Slot.key_eq_nil_iff hslot).2 hdot
  · rw [substituteKey_eq host user hv, foldlM_own host user keep hkey]

/-- A word takes its own placeholder; a dotted key and the empty one take those of others. -/
theorem own_and_foreign :
    (∀ slot, Slot.ofPlaceholder? (braced "a|raw".toList) = some slot → slot.key = "a".toList) ∧
    substituteKey Host.bare [] false (braced "a|raw".toList ++ braced "b".toList) ("a".toList, .str "v".toList) =
      .ok ('v' :: braced "b".toList) ∧
    (∀ slot, Slot.ofPlaceholder? (braced "a.b".toList) = some slot → slot.key ≠ "a.b".toList) ∧
    (∀ slot, Slot.ofPlaceholder? (braced "a".toList) = some slot → slot.key ≠ []) ∧
    substituteKey Host.bare [] false (braced "a".toList) ([], .str "v".toList) = .ok "v".toList := by
  have hv : (Value.str "v".toList : Value Outcome).isTemplate = false := rfl
  have hword := substituteKey_own_iff Host.bare [] false "a".toList hv (braced "a|raw".toList ++ braced "b".toList)
  have hdotted := substituteKey_own_iff Host.bare [] false "a.b".toList hv (braced "a.b".toList)
  have hempty := substituteKey_own_iff Host.bare [] false [] hv (braced "a".toList)
  refine ⟨fun slot h => ?_, ?_, fun slot h hown => ?_, fun slot h hown => ?_, rfl⟩
  · exact (hword.1 _ (by decide) slot h).2 (.inl (by decide))
  · exact (hword.2 (by decide)).trans rfl
  · rcases (hdotted.1 _ (by decide) slot h).1 hown with hkey | ⟨hnil, -⟩
    · exact absurd hkey (by decide)
    · exact absurd hnil (by decide)
  · rcases (hempty.1 _ (by decide) slot h).1 hown with hkey | ⟨-, hdot⟩
    · exact absurd hkey (by decide)
    · exact absurd hdot (by decide)

end Document
end Stencil
