import Stencil.Proofs.Opening

/-! # Reading a placeholder

What it takes for a placeholder to read as a slot (`ofPlaceholder?_eq_some_iff`), and the agreement of
the reader with the search by name: a slot's key is the name by which its placeholder is found
(`Reads.headed`, `Reads.key_eq_of_headed`). -/

namespace Stencil
open Text Placeholder

theorem Placeholder.texts_eq_of_splitDefault {ps : List (Piece Unit)} {calls : Text} {default : Option Text}
    (h : splitDefault ps = (calls, default)) :
    Piece.texts ps = calls ++ default.elim [] fun d => '?' :: '?' :: d := by
  induction ps using splitDefault.induct generalizing calls default with
  | case1 =>
    obtain ⟨rfl, rfl⟩ := Prod.mk.inj h; rfl
  | case2 p ps =>
    obtain ⟨rfl, rfl⟩ := Prod.mk.inj h; rfl
  | case3 p ps hnot before after heq ih =>
    rw [splitDefault.eq_3 _ _ hnot, heq] at h
    obtain ⟨rfl, rfl⟩ := Prod.mk.inj h
    rw [List.append_assoc, ← ih heq]
    cases p <;> rfl

/-- What may stand between a path and the closing braces: filters and a default, or nothing. -/
def Placeholder.IsTail (tail : Text) : Prop :=
  tail = [] ∨ 2 ≤ tail.length ∧ ∃ c ∈ ['|', '?'], tail.head? = some c

namespace Slot

/-- The path of a slot as it is written. -/
def written (slot : Slot) : Text := slot.key ++ slot.attr.elim [] ('.' :: ·)

/-- A body that reads as a slot, `tail` being what follows the path. -/
structure Reads (body tail : Text) (slot : Slot) : Prop where
  body_eq : body = slot.written ++ tail
  path_ne_nil : slot.written ≠ []
  path_chars : ∀ c ∈ slot.written, isPathChar c = true
  no_dot : '.' ∉ slot.key
  tail_head : ∀ c, tail.head? = some c → isPathChar c = false
  one_line : '\n' ∉ body
  tail_eq : ∃ calls default, splitDefault (quotePieces tail) = (calls, default) ∧
    filters? calls = some slot.filters ∧ slot.default = default.map stripQuotes

/-- A placeholder without the braces around it. -/
def bare (p : Text) : Text := trimEnd (· == '}') (trimStart (· == '{') p)

theorem bare_braced {body : Text} (hfirst : body.head? ≠ some '{') (hlast : body.getLast? ≠ some '}') :
    bare (braced body) = body := by
  have hstart : trimStart (· == '{') (braced body) = body ++ closing := by
    rw [braced, List.append_assoc]
    refine trimStart_run (by simp [opening]) fun c hc => ?_
    rw [beq_eq_false_iff_ne]
    rintro rfl
    cases body with
    | nil => cases hc
    | cons d body => exact hfirst hc
  rw [bare, hstart]
  refine trimEnd_run (by simp [closing]) fun c hc => ?_
  rw [beq_eq_false_iff_ne]
  rintro rfl
  exact hlast hc

/-- The key and the attribute in a path. -/
def ofPath (path : Text) : Text × Option Text :=
  match splitOnce? '.' path with
  | some (key, attr) => (key, some attr)
  | none => (path, none)

theorem ofPath_eq_iff {path key : Text} {attr : Option Text} :
    ofPath path = (key, attr) ↔ path = key ++ attr.elim [] ('.' :: ·) ∧ '.' ∉ key := by
  rw [ofPath]
  cases h : splitOnce? '.' path with
  | none =>
    have hno : '.' ∉ path := fun hm => by
      obtain ⟨a, b, hab, ha⟩ := List.eq_append_cons_of_mem hm
      rw [splitOnce?_eq_some_iff.2 ⟨hab, ha⟩] at h; cases h
    constructor
    · intro h; obtain ⟨rfl, rfl⟩ := Prod.mk.inj h
      exact ⟨by simp, hno⟩
    · rintro ⟨rfl, -⟩
      cases attr with
      | none => simp
      | some a => exact absurd (by simp) hno
  | some r =>
    obtain ⟨a, b⟩ := r
    obtain ⟨rfl, ha⟩ := splitOnce?_eq_some_iff.1 h
    constructor
    · intro h; obtain ⟨rfl, rfl⟩ := Prod.mk.inj h
      exact ⟨rfl, ha⟩
    · rintro ⟨hpath, hkey⟩
      cases attr with
      | none =>
        rw [Option.elim_none, List.append_nil] at hpath
        exact absurd (hpath ▸ by simp) hkey
      | some c =>
        obtain ⟨rfl, rfl⟩ := append_cons_inj ha hkey hpath
        rfl

theorem ofPlaceholder?_eq_some_iff {p : Text} {slot : Slot} :
    ofPlaceholder? p = some slot ↔ ∃ tail, Reads (bare p) tail slot := by
  generalize hbody : bare p = body
  have hread : ofPlaceholder? p =
      if '\n' ∈ body || (body.takeWhile isPathChar).isEmpty then none else
      (filters? (splitDefault (quotePieces (body.dropWhile isPathChar))).1).map fun filters =>
        ⟨(ofPath (body.takeWhile isPathChar)).1, (ofPath (body.takeWhile isPathChar)).2, filters,
          (splitDefault (quotePieces (body.dropWhile isPathChar))).2.map stripQuotes⟩ := by
    rw [← drop_length_takeWhile, ← hbody]
    rfl
  rw [hread]
  constructor
  · intro h
    split at h
    · cases h
    · next hne =>
      obtain ⟨hline, hpath⟩ : '\n' ∉ body ∧ body.takeWhile isPathChar ≠ [] := by simpa using hne
      obtain ⟨filters, hfilters, rfl⟩ := Option.map_eq_some_iff.1 h
      obtain ⟨hwritten, hdot⟩ := ofPath_eq_iff.1 (Prod.eta (ofPath (body.takeWhile isPathChar))).symm
      refine ⟨body.dropWhile isPathChar, ?_, ?_, ?_, hdot, fun c hc => ?_, hline, _, _, rfl, hfilters, rfl⟩
      · rw [written, ← hwritten, List.takeWhile_append_dropWhile]
      · rw [written, ← hwritten]; exact hpath
      · rw [written, ← hwritten]; exact fun c hc => List.mem_takeWhile_imp hc
      · have hne : body.dropWhile isPathChar ≠ [] := by rintro h0; rw [h0] at hc; cases hc
        have hnot := List.head_dropWhile_not (p := isPathChar) (l := body) hne
        rwa [(List.head_eq_iff_head?_eq_some hne).2 hc] at hnot
  · rintro ⟨tail, h⟩
    have hpath : body.takeWhile isPathChar = slot.written := by
      rw [h.body_eq]; exact takeWhile_run h.path_chars h.tail_head
    have htail : body.dropWhile isPathChar = tail := by
      rw [h.body_eq]; exact dropWhile_run h.path_chars h.tail_head
    obtain ⟨calls, default, hsplit, hfilters, hdefault⟩ := h.tail_eq
    have hne : ¬ (decide ('\n' ∈ body) || slot.written.isEmpty) = true := by
      simpa using ⟨h.one_line, h.path_ne_nil⟩
    have hparts : ofPath slot.written = (slot.key, slot.attr) := ofPath_eq_iff.2 ⟨rfl, h.no_dot⟩
    simp only [hpath, htail, if_neg hne, hsplit, hfilters, hparts, Option.map_some, ← hdefault]

theorem ofPlaceholder?_braced_eq_some_iff {body : Text} {slot : Slot} (hfirst : body.head? ≠ some '{')
    (hlast : body.getLast? ≠ some '}') :
    ofPlaceholder? (braced body) = some slot ↔ ∃ tail, Reads body tail slot := by
  rw [ofPlaceholder?_eq_some_iff, bare_braced hfirst hlast]

theorem filters?_cases {calls : Text} {filters : List Text} (h : filters? calls = some filters) :
    calls = [] ∨ ∃ c s, calls = '|' :: c :: s := by
  match calls, h with
  | [], _ => exact .inl rfl
  | [c], h => simp [filters?] at h
  | a :: c :: s, h =>
    by_cases ha : a = '|'
    · exact .inr ⟨c, s, by rw [ha]⟩
    · rw [filters?.eq_3] at h
      · cases h
      · simp
      · rintro _ _ hs; exact ha (List.cons.inj hs).1

namespace Reads
variable {body tail name : Text} {slot : Slot}

theorem isTail (h : Reads body tail slot) : IsTail tail := by
  obtain ⟨calls, default, hsplit, hfilters, -⟩ := h.tail_eq
  have htail := texts_eq_of_splitDefault hsplit
  rw [texts_quotePieces] at htail
  rw [htail]
  rcases filters?_cases hfilters with rfl | ⟨d, s, rfl⟩
  · cases default with
    | none => exact .inl rfl
    | some d => exact .inr ⟨by simp, '?', by simp, rfl⟩
  · exact .inr ⟨by simp, '|', by simp, rfl⟩

theorem tail_cases (h : Reads body tail slot) : ∀ c, tail.head? = some c → c ∈ ['|', '?'] := by
  intro c hc
  rcases h.isTail with rfl | ⟨-, d, hd, hhead⟩
  · cases hc
  · rw [hc] at hhead
    exact Option.some.inj hhead ▸ hd

theorem isKeyChar_of_mem_key (h : Reads body tail slot) {c : Char} (hc : c ∈ slot.key) : isKeyChar c = true :=
  isKeyChar_of_isPathChar (h.path_chars c (List.mem_append_left _ hc)) fun hd => h.no_dot (hd ▸ hc)

theorem takeWhile_isKeyChar (h : Reads body tail slot) : body.takeWhile isKeyChar = slot.key := by
  rw [h.body_eq, written, List.append_assoc]
  refine takeWhile_run (fun c hc => h.isKeyChar_of_mem_key hc) fun c hc => ?_
  cases hattr : slot.attr with
  | none =>
    rw [hattr] at hc
    have := h.tail_cases c hc
    simp only [List.mem_cons, List.not_mem_nil, or_false] at this
    rcases this with rfl | rfl <;> decide
  | some a =>
    rw [hattr] at hc
    obtain rfl : '.' = c := Option.some.inj hc
    decide

theorem skipOne_body (h : Reads body tail slot) : skipOne ' ' body = body := by
  obtain ⟨c, s, hs⟩ := List.exists_cons_of_ne_nil h.path_ne_nil
  have hc : isPathChar c = true := h.path_chars c (hs ▸ List.mem_cons_self)
  rw [h.body_eq, hs]
  exact skipOne_of_ne (ne_of_holds hc (by decide))

theorem headed (h : Reads body tail slot) : Headed slot.key body := by
  refine ⟨slot.attr.elim [] ('.' :: ·) ++ tail, ?_, fun c hc => ?_⟩
  · rw [h.skipOne_body, h.body_eq, written, List.append_assoc]
  · cases hattr : slot.attr with
    | none =>
      rw [hattr] at hc
      have := h.tail_cases c hc
      simp only [List.mem_cons, List.not_mem_nil, or_false] at this ⊢
      rcases this with rfl | rfl <;> simp
    | some a =>
      rw [hattr] at hc
      obtain rfl : '.' = c := Option.some.inj hc
      simp

theorem key_eq_of_headed (h : Reads body tail slot) (hname : IsKey name) (hhead : Headed name body) :
    slot.key = name := by
  obtain ⟨t, ht, hc⟩ := hhead
  -- both the key and the name are the run of key characters at the front
  rw [← h.takeWhile_isKeyChar, ← h.skipOne_body, ht]
  refine takeWhile_run hname.chars fun c hct => ?_
  have := hc c hct
  simp only [List.mem_cons, List.not_mem_nil, or_false] at this
  rcases this with rfl | rfl | rfl | rfl <;> decide

end Reads
end Slot
end Stencil
