import Mathlib.Data.List.TakeWhile
import Stencil.Placeholder.Slot
import Stencil.Text.Word

/-! # Runs of characters

What the scanners do to a text whose beginning is known: `takeWhile` and the two trims on a run that
ends where the predicate does, the first closing braces (`untilClosing?_eq_some_iff`), lists without
repetition, and the ASCII word characters of keys and filter names. -/

namespace Stencil.Text

/-- The characters of a text are tried one by one, not all the characters that there are. -/
instance (priority := high) decidableForallMem (s : Text) (p : Char → Prop) [DecidablePred p] :
    Decidable (∀ c ∈ s, p c) :=
  List.decidableBAll p s

theorem ne_of_holds {p : Char → Bool} {c d : Char} (hc : p c = true) (hd : p d = false) : c ≠ d := by
  rintro rfl
  rw [hc] at hd; cases hd

theorem ranges_of_isAlphanum {c : Char} (h : c.isAlphanum = true) :
    ((65 ≤ c.toNat ∧ c.toNat ≤ 90) ∨ (97 ≤ c.toNat ∧ c.toNat ≤ 122)) ∨ (48 ≤ c.toNat ∧ c.toNat ≤ 57) := by
  delta Char.isAlphanum Char.isAlpha Char.isUpper Char.isLower Char.isDigit at h
  simp only [Bool.or_eq_true, Bool.and_eq_true, decide_eq_true_eq, UInt32.le_iff_toNat_le, ge_iff_le] at h
  exact h

/-- A digit in upper case or not. -/
def digitOf (upper : Bool) (d : Nat) : Char := if upper then (Nat.digitChar d).toUpper else Nat.digitChar d

theorem digitOf_spec (upper : Bool) {d : Nat} (h : d < 16) :
    hexDigit? (digitOf upper d) = some d ∧ (digitOf upper d).isAlphanum = true := by
  revert upper d
  decide

theorem takeWhile_run {p : Char → Bool} {u s : Text} (hu : ∀ c ∈ u, p c = true)
    (hs : ∀ c, s.head? = some c → p c = false) : (u ++ s).takeWhile p = u := by
  rw [List.takeWhile_append_of_pos hu]
  cases s with
  | nil => simp
  | cons c s => rw [List.takeWhile_cons_of_neg (by simp [hs c rfl]), List.append_nil]

theorem dropWhile_run {p : Char → Bool} {u s : Text} (hu : ∀ c ∈ u, p c = true)
    (hs : ∀ c, s.head? = some c → p c = false) : (u ++ s).dropWhile p = s := by
  rw [List.dropWhile_append_of_pos hu]
  cases s with
  | nil => rfl
  | cons c s => exact List.dropWhile_cons_of_neg (by simp [hs c rfl])

theorem trimStart_run {p : Char → Bool} {u s : Text} (hu : ∀ c ∈ u, p c = true)
    (hs : ∀ c, s.head? = some c → p c = false) : trimStart p (u ++ s) = s :=
  dropWhile_run hu hs

theorem trimEnd_run {p : Char → Bool} {u s : Text} (hu : ∀ c ∈ u, p c = true)
    (hs : ∀ c, s.getLast? = some c → p c = false) : trimEnd p (s ++ u) = s := by
  have hd : (u.reverse ++ s.reverse).dropWhile p = s.reverse :=
    dropWhile_run (by simpa using hu) (by simpa using hs)
  rw [trimEnd, List.reverse_append, hd, List.reverse_reverse]

theorem drop_length_takeWhile (p : Char → Bool) (s : Text) :
    s.drop (s.takeWhile p).length = s.dropWhile p := by
  induction s with
  | nil => rfl
  | cons c s ih => by_cases h : p c = true <;> simp [h, ih]

theorem length_takeWhile_lt {p : Char → Bool} {u : Text} {c : Char} (hc : c ∈ u) (hp : p c = false) (s : Text) :
    ((u ++ s).takeWhile p).length < u.length := by
  induction u with
  | nil => cases hc
  | cons d u ih =>
    rw [List.cons_append, List.length_cons]
    by_cases hd : p d = true
    · have hne : c ≠ d := (ne_of_holds hd hp).symm
      rw [List.takeWhile_cons_of_pos hd, List.length_cons]
      exact Nat.succ_lt_succ (ih ((List.mem_cons.1 hc).resolve_left hne))
    · rw [List.takeWhile_cons_of_neg hd]
      exact Nat.succ_pos _

theorem length_le_of_utf8Size_take {s : Text} {n : Nat} (h : utf8Size (s.take n) = utf8Size s) :
    s.length ≤ n := by
  have hsum := congrArg utf8Size (List.take_append_drop n s)
  rw [utf8Size_append, h] at hsum
  refine List.drop_eq_nil_iff.1 ?_
  cases hrest : s.drop n with
  | nil => rfl
  | cons c rest =>
    have := c.utf8Size_pos
    rw [hrest, utf8Size_cons] at hsum
    omega

theorem startsWith_iff {p s : Text} : startsWith p s = true ↔ ∃ r, s = p ++ r := by
  simp only [startsWith, Option.isSome_iff_exists, strip?_eq_some_iff]

theorem append_cons_inj {c : Char} {u v x y : Text} (hu : c ∉ u) (hv : c ∉ v)
    (h : u ++ c :: x = v ++ c :: y) : u = v ∧ x = y := by
  induction u generalizing v with
  | nil =>
    cases v with
    | nil => exact ⟨rfl, (List.cons.inj h).2⟩
    | cons d v => exact absurd ((List.cons.inj h).1 ▸ List.mem_cons_self) hv
  | cons d u ih =>
    cases v with
    | nil => exact absurd ((List.cons.inj h).1 ▸ List.mem_cons_self) hu
    | cons e v =>
      obtain ⟨rfl, h'⟩ := List.cons.inj h
      obtain ⟨rfl, hxy⟩ := ih (fun hm => hu (List.mem_cons_of_mem _ hm))
        (fun hm => hv (List.mem_cons_of_mem _ hm)) h'
      exact ⟨rfl, hxy⟩

theorem append_cons_inj_of_count {c : Char} {u v x y : Text} (hcount : u.count c = v.count c)
    (h : u ++ c :: x = v ++ c :: y) : u = v ∧ x = y := by
  have hend : ∀ {u v x y : Text}, u.count c = v.count c → (∃ a, v = u ++ a ∧ c :: x = a ++ c :: y) → u = v ∧ x = y := by
    rintro u v x y hcount ⟨a, rfl, hx⟩
    cases a with
    | nil => exact ⟨(List.append_nil u).symm, (List.cons.inj hx).2⟩
    | cons d a =>
      obtain rfl := (List.cons.inj hx).1
      rw [List.count_append, List.count_cons_self] at hcount
      omega
  rcases List.append_eq_append_iff.1 h with ⟨a, hv, hx⟩ | ⟨a, hu, hy⟩
  · exact hend hcount ⟨a, hv, hx⟩
  · obtain ⟨rfl, rfl⟩ := hend hcount.symm ⟨a, hu, hy⟩
    exact ⟨rfl, rfl⟩

theorem strip?_eq_none_iff {p s : Text} : strip? p s = none ↔ ∀ r, s ≠ p ++ r := by
  rw [Option.eq_none_iff_forall_ne_some]
  exact forall_congr' fun r => not_congr strip?_eq_some_iff

theorem skipOne_of_ne {c d : Char} {s : Text} (h : d ≠ c) : skipOne c (d :: s) = d :: s := by
  simp [skipOne, h]

theorem skipOne_self {c : Char} {s : Text} : skipOne c (c :: s) = s := by
  simp [skipOne]

theorem eq_of_skipOne_eq {c : Char} {s r : Text} (h : skipOne c s = r) : s = r ∨ s = c :: r := by
  cases s with
  | nil => exact .inl h
  | cons d s =>
    by_cases hd : d = c
    · subst hd; exact .inr (by rw [← h, skipOne_self])
    · exact .inl (by rw [← h, skipOne_of_ne hd])

theorem skipOne_append {c : Char} {gap s : Text} (hgap : gap = [] ∨ gap = [c]) (hs : s.head? ≠ some c) :
    skipOne c (gap ++ s) = s := by
  rcases hgap with rfl | rfl
  · cases s with
    | nil => rfl
    | cons d s => exact skipOne_of_ne fun hd => hs (congrArg some hd)
  · exact skipOne_self

theorem exists_gap (c : Char) (s : Text) : ∃ gap, (gap = [] ∨ gap = [c]) ∧ s = gap ++ skipOne c s := by
  rcases eq_of_skipOne_eq (c := c) (s := s) rfl with h | h
  · exact ⟨[], .inl rfl, h⟩
  · exact ⟨[c], .inr rfl, h⟩

theorem splitOnce?_eq_some_iff {sep : Char} {s a b : Text} :
    splitOnce? sep s = some (a, b) ↔ s = a ++ sep :: b ∧ sep ∉ a := by
  have hsplit := List.takeWhile_append_dropWhile (p := (· != sep)) (l := s)
  have hfirst : sep ∉ s.takeWhile (· != sep) := fun hm => by simpa using List.mem_takeWhile_imp hm
  rw [splitOnce?]
  cases hd : s.dropWhile (· != sep) with
  | nil =>
    rw [hd, List.append_nil] at hsplit
    refine iff_of_false (by simp) fun ⟨hs, _⟩ => hfirst ?_
    rw [hsplit, hs]; simp
  | cons c rest =>
    have hc : c = sep := by
      have := List.head_dropWhile_not (p := (· != sep)) (l := s) (by rw [hd]; simp)
      simpa [hd] using this
    subst hc
    rw [hd] at hsplit
    simp only [Option.some.injEq, Prod.mk.injEq]
    constructor
    · rintro ⟨rfl, rfl⟩
      exact ⟨hsplit.symm, hfirst⟩
    · rintro ⟨hs, ha⟩
      exact append_cons_inj hfirst ha (hsplit.trans hs)

theorem mem_distinct {t : Text} {ts : List Text} : t ∈ distinct ts ↔ t ∈ ts := by
  induction ts with
  | nil => simp [distinct]
  | cons u ts ih =>
    by_cases h : t = u
    · simp [distinct, h]
    · simp [distinct, h, ih]

theorem nodup_distinct (ts : List Text) : (distinct ts).Nodup := by
  induction ts with
  | nil => exact List.nodup_nil
  | cons t ts ih => exact List.nodup_cons.2 ⟨by simp, ih.filter _⟩

/-- The characters of keys and filter names in ASCII. -/
def isKeyChar (c : Char) : Bool := c.isAlphanum || c == '_'

/-- A text of key characters, one at least. -/
structure IsKey (s : Text) : Prop where
  ne_nil : s ≠ []
  chars : ∀ c ∈ s, isKeyChar c = true

instance (s : Text) : Decidable (IsKey s) :=
  decidable_of_iff (s ≠ [] ∧ ∀ c ∈ s, isKeyChar c = true) ⟨fun h => ⟨h.1, h.2⟩, fun h => ⟨h.1, h.2⟩⟩

theorem isWord_of_isKeyChar {c : Char} (h : isKeyChar c = true) : isWord c = true := by
  rcases Bool.or_eq_true_iff.1 h with h | h
  · exact isWord_of_isAlphanum h
  · simp [isWord, h]

theorem isPathChar_eq (c : Char) : Slot.isPathChar c = (isKeyChar c || c == '.') := rfl

theorem isPathChar_of_isKeyChar {c : Char} (h : isKeyChar c = true) : Slot.isPathChar c = true := by
  rw [isPathChar_eq, h]; rfl

theorem isKeyChar_of_isPathChar {c : Char} (h : Slot.isPathChar c = true) (hc : c ≠ '.') : isKeyChar c = true := by
  rw [isPathChar_eq] at h
  simpa [hc] using h

theorem IsKey.not_mem {s : Text} {c : Char} (h : IsKey s) (hc : isKeyChar c = false) : c ∉ s :=
  fun hm => ne_of_holds (h.chars c hm) hc rfl

end Stencil.Text

namespace Stencil.Placeholder
open Text

theorem untilClosing?_eq_some_iff {s : Text} {n : Nat} :
    untilClosing? s = some n ↔ ∃ body rest, s = body ++ closing ++ rest ∧ '}' ∉ body ∧ body.length = n := by
  constructor
  · intro h
    simp only [untilClosing?] at h
    split at h
    · next hc =>
      obtain ⟨rest, hr⟩ := startsWith_iff.1 hc
      rw [drop_length_takeWhile] at hr
      refine ⟨s.takeWhile (· != '}'), rest, ?_, fun hm => ?_, by simpa using h⟩
      · rw [List.append_assoc, ← hr, List.takeWhile_append_dropWhile]
      · simpa using List.mem_takeWhile_imp hm
    · cases h
  · rintro ⟨body, rest, rfl, hb, rfl⟩
    have ht : (body ++ closing ++ rest).takeWhile (· != '}') = body := by
      rw [List.append_assoc]
      exact takeWhile_run (fun c hc => by simpa using fun h : c = '}' => hb (h ▸ hc))
        (fun c hc => by simp_all [closing, eq_comm])
    have hc : startsWith closing ((body ++ closing ++ rest).drop body.length) = true :=
      startsWith_iff.2 ⟨rest, by rw [List.append_assoc, List.drop_left]⟩
    simp only [untilClosing?, ht, hc, if_true]

theorem untilClosing?_run {body : Text} (h : '}' ∉ body) (rest : Text) :
    untilClosing? (body ++ closing ++ rest) = some body.length :=
  untilClosing?_eq_some_iff.2 ⟨body, rest, rfl, h, rfl⟩

end Stencil.Placeholder
