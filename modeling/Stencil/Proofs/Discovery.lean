import Stencil.Proofs.Ownership
import Stencil.Proofs.Reloading

/-! # What a name finds among all placeholders

A matcher that takes placeholders only, and takes them whatever follows, finds none across the border of
one that the search for all of them finds (`Whole.cut_eq_flatMap`). So a placeholder that the matcher takes
when it stands alone is found wherever it stands. In a loaded text every placeholder begins with a word, and
the name that it reads as finds it (`mem_find_key_of_loaded`). -/

namespace Stencil
open Text Piece

/-- What a matcher finds in a piece. -/
def Piece.within {α : Type} (m : Matcher α) : Piece Unit → List (Piece α)
  | .plain c => [.plain c]
  | .hit _ p => cut m p

namespace Placeholder
variable {α : Type} {m : Matcher α} {name p s : Text}

/-- A matcher that takes placeholders only, whatever follows them. -/
structure Whole (m : Matcher α) : Prop where
  takes : ∀ {s a n}, m s = some (a, n) → ∃ p rest, IsPlaceholder p ∧ s = p ++ rest ∧ n = p.length
  ignores : ∀ {p}, IsPlaceholder p → ∀ s, m (p ++ s) = m p

theorem Whole.cut_append (hm : Whole m) (hp : IsPlaceholder p) (s : Text) : cut m (p ++ s) = cut m p ++ cut m s := by
  refine Text.cut_append fun v w hvw hw => ?_
  -- what begins within `p` and is taken is the rest of `p`
  have hrest : ∀ {s a n}, m (w ++ s) = some (a, n) → IsPlaceholder w ∧ n = w.length := by
    intro s a n h
    obtain ⟨q, r, hq, hqr, hn⟩ := hm.takes h
    obtain rfl : w = q := IsPlaceholder.eq_of_suffix (hvw ▸ hp) hw hq hqr
    exact ⟨hq, hn⟩
  refine ⟨?_, fun a n h => ?_⟩
  · by_cases hplaceholder : IsPlaceholder w
    · exact hm.ignores hplaceholder s
    · have hnone : ∀ s, m (w ++ s) = none := fun s =>
        Option.eq_none_iff_forall_ne_some.2 fun _ h => hplaceholder (hrest h).1
      rw [hnone s, ← hnone [], List.append_nil]
  · rw [← List.append_nil w] at h
    exact (hrest h).2.le

theorem Whole.cut_eq_flatMap (hm : Whole m) (s : Text) : cut m s = (cut anywhere s).flatMap (within m) := by
  refine cut_rec (P := fun s ps => cut m s = ps.flatMap (within m)) ?_ ?_ ?_ s
  · rfl
  · intro c s hno ih
    rw [cut_of_no_match, ih]
    · rfl
    · intro a n h
      obtain ⟨p, rest, hp, hs, hn⟩ := hm.takes h
      have hmatch := hp.anywhere_append rest
      rw [← hs, ← hn] at hmatch
      exact hno () n hmatch
  · intro c s a n h ih
    have hp : IsPlaceholder (c :: s.take n) :=
      .of_hit (s := c :: s) (a := a) (by rw [cut_of_match h]; exact List.mem_cons_self)
    have hs : c :: s = c :: s.take n ++ s.drop n := by rw [List.cons_append, List.take_append_drop]
    rw [List.flatMap_cons, ← ih, hs, hm.cut_append hp]
    rfl

theorem texts_flatMap_within (m : Matcher α) (ps : List (Piece Unit)) : texts (ps.flatMap (within m)) = texts ps := by
  induction ps with
  | nil => rfl
  | cons q ps ih =>
    rw [List.flatMap_cons, texts_append, ih]
    cases q with
    | plain c => rfl
    | hit a t => exact congrArg (· ++ texts ps) (texts_cut m t)

theorem Whole.cut_eq_append (hm : Whole m) {a : α} {b : Unit} {n : Nat} {qs rs : List (Piece Unit)}
    (hs : cut anywhere s = qs ++ .hit b p :: rs) (h : m p = some (a, n)) :
    cut m s = qs.flatMap (within m) ++ .hit a p :: rs.flatMap (within m) := by
  have hp : IsPlaceholder p := .of_hit (s := s) (a := b) (by rw [hs]; simp)
  have hwhole : cut m p = [.hit a p] := by
    refine cut_whole (fun r => ?_) hp.ne_nil
    obtain ⟨q, rest, hq, hqr, rfl⟩ := hm.takes h
    rw [← List.append_nil p] at hqr
    obtain ⟨rfl, -⟩ := hp.append_inj hq hqr
    rw [hm.ignores hp, h]
  rw [hm.cut_eq_flatMap, hs, List.flatMap_append, List.flatMap_cons, within, hwhole]
  rfl

theorem whole_of_iff {m : Matcher Unit} {P : Text → Prop} (hne : ∀ body, P body → body ≠ [])
    (h : ∀ s n, m s = some ((), n) ↔
      ∃ body rest, s = braced body ++ rest ∧ '}' ∉ body ∧ P body ∧ n = body.length + 4) : Whole m where
  takes := by
    rintro s ⟨⟩ n hs
    obtain ⟨body, rest, hbody, hb, hP, rfl⟩ := (h s n).1 hs
    exact ⟨braced body, rest, ⟨body, rfl, hb, hne body hP⟩, hbody, (length_braced body).symm⟩
  ignores := by
    rintro p ⟨body, rfl, hb, -⟩ s
    by_cases hP : P body
    · have htaken : ∀ s, m (braced body ++ s) = some ((), body.length + 4) := fun s =>
        (h _ _).2 ⟨body, s, rfl, hb, hP, rfl⟩
      rw [htaken s, ← htaken [], List.append_nil]
    · have hnone : ∀ s, m (braced body ++ s) = none := by
        intro s
        rw [Option.eq_none_iff_forall_ne_some]
        rintro ⟨⟨⟩, n⟩ hs
        obtain ⟨c, rest, hbody, hc, hP', -⟩ := (h _ n).1 hs
        exact hP ((braced_append_inj hb hc hbody).1 ▸ hP')
      rw [hnone s, ← hnone [], List.append_nil]

theorem whole_named (hname : IsKey name) : Whole (named name) := by
  refine whole_of_iff (P := Headed name) ?_ fun s n => named_eq_some_iff (hname.not_mem (by decide))
  rintro body ⟨tail, htail, -⟩ rfl
  exact hname.ne_nil (List.append_eq_nil_iff.1 htail.symm).1

/-- A placeholder that loads has no further brace in front, so that the reader sees its body. -/
theorem Loadable.exists_reads {slot : Slot} (h : Loadable p) (hslot : Slot.ofPlaceholder? p = some slot) :
    ∃ body tail, p = braced body ∧ '}' ∉ body ∧ Slot.Reads body tail slot ∧ IsKey slot.key := by
  obtain ⟨body, rfl, -⟩ := id h.isPlaceholder
  obtain ⟨hclosing, -, c, hc, hkey⟩ := loadable_braced_iff.1 h
  -- what stands in front of the first word is horizontal space
  have hgap : body.head? = some '{' ∨ body.head? = some '.' → body.dropWhile isGap = body := by
    intro hhead
    cases body with
    | nil => rfl
    | cons d body =>
      refine List.dropWhile_cons_of_neg ?_
      rcases hhead with hd | hd <;> obtain rfl := Option.some.inj hd <;> decide
  have hfirst : body.head? ≠ some '{' := by
    intro hbrace
    rw [hgap (.inl hbrace), hbrace] at hc
    exact ne_of_holds hkey (by decide) (Option.some.inj hc).symm
  have hlast : body.getLast? ≠ some '}' := fun hl => hclosing (List.mem_of_getLast? hl)
  obtain ⟨tail, hreads⟩ := (Slot.ofPlaceholder?_braced_eq_some_iff hfirst hlast).1 hslot
  refine ⟨body, tail, rfl, hclosing, hreads, fun hnil => ?_, fun d hd => hreads.isKeyChar_of_mem_key hd⟩
  have hdot := (Slot.key_eq_nil_iff hslot).1 hnil
  rw [Slot.bare_braced hfirst hlast] at hdot
  rw [hgap (.inr hdot), hdot] at hc
  exact ne_of_holds hkey (by decide) (Option.some.inj hc).symm

/-- Every placeholder of a loaded text that reads as a slot is found by the key of that slot, and by no other
word. -/
theorem mem_find_key_of_loaded {raw t : Text} (h : normalize raw = .ok t) {slot : Slot} (hp : p ∈ find t [])
    (hslot : Slot.ofPlaceholder? p = some slot) :
    IsKey slot.key ∧ p ∈ find t slot.key ∧ ∀ name, IsKey name → p ∈ find t name → name = slot.key := by
  obtain ⟨body, tail, rfl, hb, hreads, hkey⟩ := (loadable_of_mem_find_loaded h hp).exists_reads hslot
  refine ⟨hkey, ?_, fun name hname hfound => (key_eq_of_mem_find hname hfound hslot).symm⟩
  have hmatch := named_of_headed hb hreads.headed []
  rw [List.append_nil] at hmatch
  obtain ⟨a, ha⟩ := mem_hits.1 (mem_find_nil.1 hp)
  obtain ⟨qs, rs, hsplit⟩ := List.append_of_mem ha
  refine (mem_find_iff hkey.ne_nil).2 ⟨(), ?_⟩
  rw [(whole_named hkey).cut_eq_append hsplit hmatch]
  exact List.mem_append_right _ List.mem_cons_self

/-- Openings that come to nothing, a lone brace, and two placeholders of a key. -/
def obstructed : Text :=
  opening ++ " x".toList ++ ['}', ' '] ++ opening ++ closing ++ braced " k.a | f ".toList ++ braced "k".toList

theorem find_obstructed :
    normalize obstructed = .ok
      (opening ++ " x".toList ++ ['}', ' '] ++ opening ++ closing ++ braced "k.a|f".toList ++ braced "k".toList) ∧
    Slot.ofPlaceholder? (braced "k.a|f".toList) = some ⟨"k".toList, some "a".toList, ["f".toList], none⟩ ∧
    braced "k.a|f".toList ∈ find
      (opening ++ " x".toList ++ ['}', ' '] ++ opening ++ closing ++ braced "k.a|f".toList ++ braced "k".toList)
      "k".toList := by
  have hloaded : normalize obstructed = .ok
      (opening ++ " x".toList ++ ['}', ' '] ++ opening ++ closing ++ braced "k.a|f".toList ++ braced "k".toList) := by
    decide +kernel
  have hslot : Slot.ofPlaceholder? (braced "k.a|f".toList) = some ⟨"k".toList, some "a".toList, ["f".toList], none⟩ := by
    decide +kernel
  exact ⟨hloaded, hslot, (mem_find_key_of_loaded hloaded (by decide +kernel) hslot).2.1⟩

end Placeholder
end Stencil
