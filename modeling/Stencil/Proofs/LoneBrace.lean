import Mathlib.Data.List.Basic
import Stencil.Placeholder.Spacing
import Stencil.Proofs.Loading
import Stencil.Proofs.Opening

/-! # Behind a lone closing brace

An opening that runs into a lone closing brace begins no placeholder for any matcher but the one for
defaults (`Spoiled.cut_eq`), and a text whose closing braces stand at its end holds one placeholder at
most (`Sealed.cut_cases`). Loading and replacing keep a spoiled front as it is. -/

namespace Stencil
open Text

namespace Placeholder

/-- A matcher that takes whole placeholders only. -/
def TakesBraced {α : Type} (m : Matcher α) : Prop :=
  ∀ s a n, m s = some (a, n) → ∃ body rest, s = braced body ++ rest ∧ '}' ∉ body ∧ n = (braced body).length

theorem takesBraced_anywhere : TakesBraced anywhere := by
  rintro s ⟨⟩ n h
  obtain ⟨body, rest, hs, hb, -, rfl⟩ := anywhere_eq_some_iff.1 h
  exact ⟨body, rest, hs, hb, (length_braced body).symm⟩

theorem takesBraced_named {name : Text} (hname : '}' ∉ name) : TakesBraced (named name) := by
  rintro s ⟨⟩ n h
  obtain ⟨body, rest, hs, hb, -, rfl⟩ := (named_eq_some_iff hname).1 h
  exact ⟨body, rest, hs, hb, (length_braced body).symm⟩

theorem takesBraced_literally {body : Text} (hb : '}' ∉ body) : TakesBraced (literally (braced body)) := by
  rintro s ⟨⟩ n h
  obtain ⟨⟨rest, hs⟩, hn⟩ := literally_eq_some_iff.1 h
  exact ⟨body, rest, hs, hb, hn⟩

theorem TakesBraced.cut_of_no_opening {α : Type} {m : Matcher α} (hm : TakesBraced m) {s : Text}
    (h : ¬ opening <:+: s) : cut m s = s.map .plain := by
  refine cut_of_never fun v w hvw _ => ?_
  rw [Option.eq_none_iff_forall_ne_some]
  rintro ⟨a, n⟩ hw
  obtain ⟨body, rest, rfl, -, -⟩ := hm _ _ _ hw
  exact h ⟨v, body ++ closing ++ rest, by rw [hvw, braced]; simp⟩

theorem find_of_no_opening {s name : Text} (hname : '}' ∉ name) (h : ¬ opening <:+: s) : find s name = [] := by
  rw [find]
  split
  · rw [scan_eq_cut, takesBraced_anywhere.cut_of_no_opening h, Piece.hits_map_plain]; rfl
  · rw [(takesBraced_named hname).cut_of_no_opening h, Piece.hits_map_plain]; rfl

/-- A front that opens and then runs into a lone closing brace. -/
structure Spoiled (front rest : Text) : Prop where
  front_eq : ∃ x, front = opening ++ x ++ ['}'] ∧ '}' ∉ x
  lone : rest.head? ≠ some '}'

/-- No two closing braces but at the very end. -/
def Sealed (s : Text) : Prop := ∀ u r, s = u ++ closing ++ r → r = []

variable {α : Type} {m : Matcher α}

theorem Spoiled.cut_eq {front rest : Text} (hm : TakesBraced m) (h : Spoiled front rest) :
    cut m (front ++ rest) = front.map .plain ++ cut m rest := by
  obtain ⟨x, rfl, hx⟩ := h.front_eq
  refine cut_plain fun v w hvw hw => ?_
  rw [Option.eq_none_iff_forall_ne_some]
  rintro ⟨a, n⟩ hs
  obtain ⟨body, s, hs, hb, -⟩ := hm _ _ _ hs
  -- `w` ends with the lone brace, which is then the first one behind the opening
  have hlast : w = w.dropLast ++ ['}'] := by
    have hend : w.getLast hw = '}' := by
      have := congrArg List.getLast? hvw
      rw [List.getLast?_append_of_ne_nil _ hw, List.getLast?_concat, List.getLast?_eq_some_getLast hw] at this
      exact (Option.some.inj this).symm
    exact hend ▸ (List.dropLast_concat_getLast hw).symm
  have hfront : '}' ∉ w.dropLast := by
    have hu : opening ++ x = v ++ w.dropLast := by
      rw [hlast, ← List.append_assoc] at hvw
      exact List.append_cancel_right hvw
    intro hmem
    have : '}' ∈ opening ++ x := hu ▸ List.mem_append_right _ hmem
    simp [opening, hx] at this
  rw [hlast, List.append_assoc, braced_append] at hs
  have hopen : '}' ∉ opening ++ body := by simp [opening, hb]
  obtain ⟨-, hrest⟩ := append_cons_inj (v := opening ++ body) hfront hopen hs
  exact h.lone (by rw [show rest = '}' :: s from hrest]; rfl)

theorem Spoiled.replace_eq {front rest body new : Text} (hb : '}' ∉ body) (h : Spoiled front rest) :
    replace (braced body) new (front ++ rest) = front ++ replace (braced body) new rest := by
  rw [replace, h.cut_eq (takesBraced_literally hb), Piece.fill_append, Piece.fill_map_plain, ← replace]

theorem Spoiled.find_eq {front rest name : Text} (hname : '}' ∉ name) (h : Spoiled front rest) :
    find (front ++ rest) name = find rest name := by
  rw [find, find]
  congr 1
  split
  · rw [scan_eq_cut, scan_eq_cut, h.cut_eq takesBraced_anywhere, Piece.hits_append, Piece.hits_map_plain,
      List.nil_append]
  · rw [h.cut_eq (takesBraced_named hname), Piece.hits_append, Piece.hits_map_plain, List.nil_append]

namespace Sealed
variable {s : Text}

theorem tail {c : Char} (h : Sealed (c :: s)) : Sealed s :=
  fun u r hs => h (c :: u) r (by rw [hs]; rfl)

theorem cons {c : Char} (hc : c = '}' → s.head? ≠ some '}') (h : Sealed s) : Sealed (c :: s) := by
  intro u r hs
  cases u with
  | nil =>
    obtain ⟨rfl, rfl⟩ := List.cons.inj hs
    exact absurd rfl (hc rfl)
  | cons d u => exact h u r (List.cons.inj hs).2

theorem head_ne {c : Char} (h : Sealed (c :: s)) (hs : 1 < s.length) : c = '}' → s.head? ≠ some '}' := by
  rintro rfl hhead
  obtain ⟨r, rfl⟩ := List.head?_eq_some_iff.1 hhead
  have := h [] r rfl
  simp [this] at hs

theorem append {t : Text} (ht : ¬ closing <:+: t) (h : Sealed s) (hs : s.head? ≠ some '}') : Sealed (t ++ s) := by
  induction t with
  | nil => exact h
  | cons c t ih =>
    refine cons ?_ (ih fun hin => ht (List.infix_cons hin))
    rintro rfl
    cases t with
    | nil => exact hs
    | cons d t =>
      intro hd
      obtain rfl := Option.some.inj hd
      exact ht ⟨[], t, rfl⟩

theorem append_closing (hs : '}' ∉ s) : Sealed (s ++ closing) := by
  intro u r heq
  have hcount := congrArg (List.count '}') heq
  simp only [closing, List.count_append, List.count_eq_zero_of_not_mem hs] at hcount
  have hu : '}' ∉ u := by
    rw [← List.count_eq_zero]
    have h2 : List.count '}' ['}', '}'] = 2 := rfl
    omega
  obtain ⟨-, hr⟩ := append_cons_inj (x := ['}']) (y := '}' :: r) hs hu (by simpa [closing] using heq)
  simpa using hr.symm

theorem of_braced {body : Text} (hb : '}' ∉ body) : Sealed (braced body) :=
  append_closing (s := opening ++ body) (by simp [opening, hb])

theorem change_end {u p q : Text} (h : Sealed (u ++ p)) (hp : 1 < p.length) (hq : q.head? ≠ some '}')
    (hqs : Sealed q) : Sealed (u ++ q) := by
  induction u with
  | nil => exact hqs
  | cons c u ih =>
    have hlen : 1 < (u ++ p).length := by rw [List.length_append]; omega
    have hhead := h.head_ne hlen
    refine cons (fun hc => ?_) (ih h.tail)
    cases u with
    | nil => exact hq
    | cons d u => exact hhead hc

theorem cut_cases (hm : TakesBraced m) (h : Sealed s) :
    cut m s = s.map .plain ∨ ∃ u a body, s = u ++ braced body ∧ '}' ∉ body ∧
      cut m s = u.map .plain ++ [.hit a (braced body)] := by
  revert h
  refine cut_rec (P := fun s ps => Sealed s → ps = s.map .plain ∨ ∃ u a body, s = u ++ braced body ∧ '}' ∉ body ∧
      ps = u.map .plain ++ [.hit a (braced body)]) ?_ ?_ ?_ s
  · exact fun _ => .inl rfl
  · intro c s _ ih h
    rcases ih h.tail with hps | ⟨u, a, body, hs, hb, hps⟩
    · exact .inl (by rw [hps]; rfl)
    · exact .inr ⟨c :: u, a, body, by rw [hs]; rfl, hb, by rw [hps]; rfl⟩
  · intro c s a n hmatch _ h
    obtain ⟨body, rest, hs, hb, hn⟩ := hm _ _ _ hmatch
    obtain rfl : rest = [] := by
      refine h (opening ++ body) rest ?_
      rw [hs, braced]
    rw [List.append_nil] at hs
    have hlen : s.length ≤ n := by
      have := congrArg List.length hs
      rw [List.length_cons] at this
      omega
    refine .inr ⟨[], a, body, hs, hb, ?_⟩
    rw [List.drop_of_length_le hlen, List.take_of_length_le hlen, hs]; rfl

theorem replace_cases {u body new : Text} (hb : '}' ∉ body) (h : Sealed (u ++ braced body)) :
    replace (braced body) new (u ++ braced body) = u ++ braced body ∨
      replace (braced body) new (u ++ braced body) = u ++ new := by
  rw [replace]
  rcases h.cut_cases (takesBraced_literally hb) with hcut | ⟨v, a, body', hs, -, hcut⟩
  · rw [hcut, Piece.fill_map_plain]; exact .inl rfl
  · have hsame : braced body' = braced body :=
      eq_of_hit_mem_cut_literally (a := a) (s := u ++ braced body) (by rw [hcut]; simp)
    rw [hsame] at hs hcut
    rw [hcut, Piece.fill_append, Piece.fill_map_plain, List.append_cancel_right hs]
    exact .inr (by simp)

end Sealed

theorem exists_braced_of_isWellFormed {t : Text} (h : isWellFormed t = true) : ∃ body, t = braced body := by
  rw [isWellFormed] at h
  cases hbody : (strip? opening t).bind (stripEnd? closing) with
  | none => rw [hbody] at h; cases h
  | some body =>
    obtain ⟨rest, hrest, hend⟩ := Option.bind_eq_some_iff.1 hbody
    exact ⟨body, by rw [strip?_eq_some_iff.1 hrest, stripEnd?_eq_some_iff.1 hend, braced, List.append_assoc]⟩

theorem not_mem_of_compress_braced {body body' : Text} (hb : '}' ∉ body) (h : compress (braced body) = braced body') :
    '}' ∉ body' := by
  have hcount := count_compress (c := '}') (by decide) (braced body)
  rw [h] at hcount
  simp only [braced, List.count_append, List.count_eq_zero_of_not_mem hb] at hcount
  rw [← List.count_eq_zero]
  omega

namespace Spoiled
variable {front rest : Text}

theorem head_eq (h : Spoiled front rest) : ∃ s, front = '{' :: s := by
  obtain ⟨x, rfl, -⟩ := h.front_eq
  exact ⟨_, rfl⟩

theorem find_cases {name : Text} (hname : '}' ∉ name) (h : Spoiled front rest) (hs : Sealed rest) :
    find (front ++ rest) name = [] ∨
      ∃ u body, rest = u ++ braced body ∧ '}' ∉ body ∧ find (front ++ rest) name = [braced body] := by
  have hcases : ∀ m : Matcher Unit, TakesBraced m → distinct (Piece.hits (cut m rest)) = [] ∨
      ∃ u body, rest = u ++ braced body ∧ '}' ∉ body ∧ distinct (Piece.hits (cut m rest)) = [braced body] := by
    intro m hm
    rcases hs.cut_cases hm with hcut | ⟨u, a, body, hu, hb, hcut⟩
    · exact .inl (by rw [hcut, Piece.hits_map_plain]; rfl)
    · exact .inr ⟨u, body, hu, hb, by rw [hcut, Piece.hits_append, Piece.hits_map_plain]; rfl⟩
  rw [h.find_eq hname, find]
  split
  · rw [scan_eq_cut]; exact hcases _ takesBraced_anywhere
  · exact hcases _ (takesBraced_named hname)

/-- Loading keeps the front, and what is behind it stays sealed. -/
theorem normalize_eq_ok {doc : Text} (h : Spoiled front rest) (hs : Sealed rest)
    (hdoc : normalize (front ++ rest) = .ok doc) :
    ∃ rest', doc = front ++ rest' ∧ Spoiled front rest' ∧ Sealed rest' := by
  rw [normalize] at hdoc
  have hname : '}' ∉ ([] : Text) := List.not_mem_nil
  rcases h.find_cases hname hs with hfind | ⟨u, body, rfl, hb, hfind⟩
  · rw [hfind] at hdoc; cases hdoc
    exact ⟨rest, rfl, h, hs⟩
  · rw [hfind, normalizeEach] at hdoc
    split at hdoc
    · next hwell =>
      obtain ⟨body', hbody'⟩ := exists_braced_of_isWellFormed hwell
      have hb' : '}' ∉ body' := not_mem_of_compress_braced hb hbody'
      rw [normalizeEach] at hdoc
      split at hdoc
      · cases hdoc; exact ⟨_, rfl, h, hs⟩
      · cases hdoc
        rw [h.replace_eq hb]
        refine ⟨_, rfl, ?_⟩
        have hreplaced := @Sealed.replace_cases u body (compress (braced body)) hb hs
        rcases hreplaced with hr | hr
        · rw [hr]; exact ⟨h, hs⟩
        · rw [hr, hbody']
          refine ⟨⟨h.front_eq, ?_⟩, hs.change_end (by simp) (by simp [braced, opening]) (.of_braced hb')⟩
          have hlone := h.lone
          cases u with
          | nil => exact fun hc => by cases hc
          | cons c u => exact hlone
    · cases hdoc

end Spoiled

end Placeholder
end Stencil
