import Stencil.Proofs.Occurrence

/-! # Placeholders where two braces open

`braced body` is the placeholder around a body. Every matcher for placeholders answers at two opening
braces only, and what it takes is `braced body` for a body without closing braces:
`anywhere_eq_some_iff`, `named_eq_some_iff`. The scan that skips ahead is the plain search
(`scan_eq_cut`). -/

namespace Stencil.Placeholder
open Text

/-- The placeholder with a body. -/
def braced (body : Text) : Text := opening ++ body ++ closing

theorem braced_append (body s : Text) : braced body ++ s = '{' :: '{' :: (body ++ '}' :: '}' :: s) := by
  simp [braced, opening, closing]

theorem braced_ne_nil (body : Text) : braced body ≠ [] := List.cons_ne_nil _ _

@[simp] theorem length_braced (body : Text) : (braced body).length = body.length + 4 := by
  simp [braced, opening, closing]

theorem braced_append_inj {u v s t : Text} (hu : '}' ∉ u) (hv : '}' ∉ v)
    (h : braced u ++ s = braced v ++ t) : u = v ∧ s = t := by
  rw [braced_append, braced_append] at h
  obtain ⟨huv, hst⟩ := append_cons_inj hu hv (List.cons.inj (List.cons.inj h).2).2
  exact ⟨huv, (List.cons.inj hst).2⟩

theorem braced_inj {u v : Text} (h : braced u = braced v) : u = v := by
  have h' : u ++ closing = v ++ closing := (List.cons.inj (List.cons.inj h).2).2
  exact List.append_cancel_right h'

theorem strip?_opening_braced (body s : Text) :
    strip? opening (braced body ++ s) = some (body ++ closing ++ s) := by
  rw [braced, List.append_assoc, List.append_assoc, strip?_append, List.append_assoc]

theorem strip?_opening_cons {c : Char} {s : Text} (h : c = '{' → s.head? ≠ some '{') :
    strip? opening (c :: s) = none := by
  rw [strip?_eq_none_iff]
  rintro r hr
  obtain ⟨rfl, rfl⟩ := List.cons.inj hr
  exact h rfl rfl

theorem strip?_opening_of_not_mem {s : Text} (h : '{' ∉ s) : strip? opening s = none := by
  rw [strip?_eq_none_iff]
  rintro r rfl
  exact h List.mem_cons_self

theorem anywhere_eq_some_iff {s : Text} {n : Nat} :
    anywhere s = some ((), n) ↔
      ∃ body rest, s = braced body ++ rest ∧ '}' ∉ body ∧ body ≠ [] ∧ n = body.length + 4 := by
  constructor
  · intro h
    simp only [anywhere, Option.bind_eq_bind, Option.bind_eq_some_iff, strip?_eq_some_iff,
      untilClosing?_eq_some_iff] at h
    obtain ⟨_, rfl, k, ⟨body, rest, rfl, hb, rfl⟩, h⟩ := h
    split at h
    · cases h
    · next hk =>
      refine ⟨body, rest, by simp [braced], hb, fun h0 => hk (by rw [h0]; rfl), ?_⟩
      simpa using (Option.some.inj h).symm
  · rintro ⟨body, rest, rfl, hb, hne, rfl⟩
    have hk : body.length ≠ 0 := fun h0 => hne (List.length_eq_zero_iff.1 h0)
    simp only [anywhere, strip?_opening_braced, Option.bind_eq_bind, Option.bind_some,
      untilClosing?_run hb, if_neg hk]

theorem anywhere_braced {body : Text} (hb : '}' ∉ body) (hne : body ≠ []) (s : Text) :
    anywhere (braced body ++ s) = some ((), (braced body).length) := by
  rw [anywhere_eq_some_iff]
  exact ⟨body, s, rfl, hb, hne, length_braced body⟩

theorem anywhere_eq_none_of_not_closed {w after : Text} (hw : '}' ∉ w)
    (hne : ∀ body, body ≠ [] → w = opening ++ body → ∀ r, after ≠ '}' :: r) :
    anywhere (w ++ '}' :: after) = none := by
  rw [Option.eq_none_iff_forall_ne_some]
  rintro ⟨⟨⟩, n⟩ h
  obtain ⟨body, rest, hs, hb, hbody, -⟩ := anywhere_eq_some_iff.1 h
  rw [braced_append] at hs
  obtain ⟨hwb, hafter⟩ := append_cons_inj (v := opening ++ body) hw (by simp [opening, hb]) hs
  exact hne body hbody hwb rest hafter

theorem anywhere_eq_none_of_not_mem {s : Text} (hs : '}' ∉ s) : anywhere s = none := by
  rw [Option.eq_none_iff_forall_ne_some]
  rintro ⟨⟨⟩, n⟩ h
  obtain ⟨body, rest, rfl, -⟩ := anywhere_eq_some_iff.1 h
  exact hs (by simp [braced_append])

theorem anywhere_eq_none_of_no_opening {s : Text} (hs : strip? opening s = none) : anywhere s = none := by
  simp [anywhere, hs]

/-- In front of a text a matcher that waits for openings takes nothing from what has none. -/
theorem cut_of_opens {α : Type} {m : Matcher α} (hopens : ∀ s, strip? opening s = none → m s = none) {t : Text}
    (ht : '{' ∉ t) (s : Text) : cut m (t ++ s) = t.map .plain ++ cut m s := by
  refine cut_plain fun v w htw hw => hopens _ ?_
  obtain ⟨c, w, rfl⟩ := List.exists_cons_of_ne_nil hw
  exact strip?_opening_cons fun hc => absurd (htw ▸ hc ▸ List.mem_append_right _ List.mem_cons_self) ht

theorem outlook_cases (s : Text) :
    (strip? opening s = none ∧ outlook s = .barren 0) ∨
    ('}' ∉ s ∧ outlook s = .barren (s.length - 1)) ∨
    (∃ body after, s = opening ++ body ++ '}' :: after ∧ '}' ∉ body ∧ outlook s = .barren (body.length + 2) ∧
      (body ≠ [] → ∀ r, after ≠ '}' :: r)) ∨
    ∃ body rest, s = braced body ++ rest ∧ '}' ∉ body ∧ body ≠ [] ∧ outlook s = .found (body.length + 3) := by
  cases hs : strip? opening s with
  | none => exact .inl ⟨rfl, by simp only [outlook, hs]⟩
  | some rest =>
    right
    have hsplit := List.takeWhile_append_dropWhile (p := (· != '}')) (l := rest)
    have hb : '}' ∉ rest.takeWhile (· != '}') := fun hm => by simpa using List.mem_takeWhile_imp hm
    simp only [outlook, hs, drop_length_takeWhile]
    rw [strip?_eq_some_iff] at hs
    cases hd : rest.dropWhile (· != '}') with
    | nil =>
      rw [hd, List.append_nil] at hsplit
      refine .inl ⟨?_, rfl⟩
      rw [hs, ← hsplit]
      simp [opening, hb]
    | cons c after =>
      have hc : c = '}' := by
        have := List.head_dropWhile_not (p := (· != '}')) (l := rest) (by rw [hd]; simp)
        simpa [hd] using this
      subst hc
      rw [hd] at hsplit
      set body := rest.takeWhile (· != '}') with hbody
      right
      by_cases hclosed : body ≠ [] ∧ ∃ r, after = '}' :: r
      · obtain ⟨hne, r, rfl⟩ := hclosed
        have hfound : (!body.isEmpty && startsWith ['}'] ('}' :: r)) = true := by
          simp [startsWith, strip?, hne]
        refine .inr ⟨body, r, ?_, hb, hne, by simp only [hfound, if_true]⟩
        rw [hs, ← hsplit, braced_append]; rfl
      · have hbarren : ¬ (!body.isEmpty && startsWith ['}'] after) = true := by
          rintro h
          obtain ⟨h1, h2⟩ := Bool.and_eq_true_iff.1 h
          exact hclosed ⟨by simpa using h1, startsWith_iff.1 h2⟩
        refine .inl ⟨body, after, ?_, hb, by simp only [if_neg hbarren], fun hne r hr => hclosed ⟨hne, r, hr⟩⟩
        rw [hs, ← hsplit, List.append_assoc]

theorem anywhere_of_outlook_found {s : Text} {size : Nat} (h : outlook s = .found size) :
    anywhere s = some ((), size + 1) := by
  obtain ⟨-, h'⟩ | ⟨-, h'⟩ | ⟨body, after, -, -, h', -⟩ | ⟨body, rest, rfl, hb, hne, h'⟩ := outlook_cases s
  · rw [h'] at h; cases h
  · rw [h'] at h; cases h
  · rw [h'] at h; cases h
  · rw [h'] at h; cases h
    exact anywhere_eq_some_iff.2 ⟨body, rest, rfl, hb, hne, rfl⟩

/-- None of the characters that a barren outlook passes over begins a placeholder. -/
theorem anywhere_of_outlook_barren {v w : Text} {more : Nat} (h : outlook (v ++ w) = .barren more)
    (hv : v.length ≤ more) : anywhere w = none := by
  obtain ⟨hno, h'⟩ | ⟨hno, -⟩ | ⟨body, after, hs, hb, h', hclosed⟩ | ⟨body, rest, -, -, -, h'⟩ :=
    outlook_cases (v ++ w)
  · rw [h'] at h; cases h
    obtain rfl := List.length_eq_zero_iff.1 (Nat.le_zero.1 hv)
    exact anywhere_eq_none_of_no_opening hno
  · exact anywhere_eq_none_of_not_mem fun hm => hno (List.mem_append_right _ hm)
  · rw [h'] at h; cases h
    -- `v` ends within the body, so what is left has the same lone brace in front of it
    have hpre : v <+: opening ++ body := by
      refine List.prefix_of_prefix_length_le (List.prefix_append v w) ?_ (by simp [opening]; omega)
      rw [hs]; exact List.prefix_append _ _
    obtain ⟨x, hx⟩ := hpre
    have hw : w = x ++ '}' :: after := by
      rw [← hx, List.append_assoc] at hs
      exact List.append_cancel_left hs
    have hxb : '}' ∉ x := fun hm => by
      have : '}' ∈ opening ++ body := hx ▸ List.mem_append_right _ hm
      simp [opening, hb] at this
    rw [hw]
    refine anywhere_eq_none_of_not_closed hxb fun b hb' hxo => hclosed ?_
    rintro rfl
    have hlen := congrArg List.length hx
    have hbpos := List.length_pos_iff.2 hb'
    simp only [hxo, List.length_append, List.length_nil] at hlen
    omega
  · rw [h'] at h; cases h

/-- A scan and a search agree on what is left, whatever the scan has still to pass over. -/
theorem scanFrom_eq_cut (s : Text) :
    (∀ n, scanFrom (.inside n) s = cut anywhere (s.drop n)) ∧
    (∀ n, (∀ v w, s = v ++ w → v.length < n → anywhere w = none) → scanFrom (.outside n) s = cut anywhere s) := by
  -- both gaits at once: a scan changes from one to the other wherever a placeholder begins or ends
  induction s with
  | nil => exact ⟨fun n => by cases n <;> simp [scanFrom], fun n _ => by cases n <;> rfl⟩
  | cons c s ih =>
    obtain ⟨inside, outside⟩ := ih
    have look : scanFrom (.outside 0) (c :: s) = cut anywhere (c :: s) := by
      unfold scanFrom
      cases h : outlook (c :: s) with
      | found size =>
        rw [cut_of_match (anywhere_of_outlook_found h), ← inside size]
      | barren more =>
        have hnone : anywhere (c :: s) = none := anywhere_of_outlook_barren (v := []) h (Nat.zero_le _)
        rw [cut_plain_cons hnone, ← outside more fun v w hs hv =>
          anywhere_of_outlook_barren (v := c :: v) (by rw [List.cons_append, ← hs]; exact h) hv]
    refine ⟨fun n => ?_, fun n hn => ?_⟩
    · cases n with
      | zero => exact look
      | succ n => exact inside n
    · cases n with
      | zero => exact look
      | succ n =>
        have hnone : anywhere (c :: s) = none := hn [] (c :: s) rfl (Nat.succ_pos n)
        rw [cut_plain_cons hnone, scanFrom, outside n fun v w hs hv =>
          hn (c :: v) w (by rw [hs, List.cons_append]) (Nat.succ_lt_succ hv)]

theorem scan_eq_cut (s : Text) : scan s = cut anywhere s :=
  (scanFrom_eq_cut s).2 0 fun _ _ _ h => absurd h (Nat.not_lt_zero _)

/-! ### Placeholders of a name -/

/-- A body that begins with a name: one blank may stand before it, and an attribute, a filter, a
default, a blank or nothing follows. -/
def Headed (name body : Text) : Prop :=
  ∃ tail, skipOne ' ' body = name ++ tail ∧ ∀ c, tail.head? = some c → c ∈ ['.', ' ', '|', '?']

theorem skipOne_append_closing (body s : Text) :
    skipOne ' ' (body ++ closing ++ s) = skipOne ' ' body ++ closing ++ s := by
  cases body with
  | nil => rfl
  | cons c body =>
    by_cases h : c = ' '
    · subst h; rfl
    · simp only [List.cons_append, skipOne_of_ne h]

theorem Headed.not_mem_tail {name body tail : Text} (hb : '}' ∉ body) (h : skipOne ' ' body = name ++ tail) :
    '}' ∉ tail := fun hm => by
  have hs : '}' ∈ skipOne ' ' body := h ▸ List.mem_append_right _ hm
  rcases eq_of_skipOne_eq (s := body) rfl with h | h
  · exact hb (h ▸ hs)
  · exact hb (h ▸ List.mem_cons_of_mem _ hs)

theorem length_skipOne_add (c : Char) (s : Text) : ∃ k, s.length = (skipOne c s).length + k := by
  rcases eq_of_skipOne_eq (c := c) (s := s) rfl with h | h
  · exact ⟨0, congrArg List.length h⟩
  · exact ⟨1, congrArg List.length h⟩

theorem named_of_headed {name body : Text} (hb : '}' ∉ body) (h : Headed name body) (rest : Text) :
    named name (braced body ++ rest) = some ((), body.length + 4) := by
  obtain ⟨tail, htail, hhead⟩ := h
  have htb := Headed.not_mem_tail hb htail
  obtain ⟨next, hnext, hin⟩ : ∃ next, (tail ++ (closing ++ rest)).head? = some next ∧
      next ∈ ['}', '.', ' ', '|', '?'] := by
    cases tail with
    | nil => exact ⟨'}', rfl, by simp⟩
    | cons c tail => exact ⟨c, rfl, List.mem_cons_of_mem _ (hhead c rfl)⟩
  have hclose : untilClosing? (tail ++ (closing ++ rest)) = some tail.length := by
    rw [← List.append_assoc]; exact untilClosing?_run htb rest
  obtain ⟨k, hk⟩ := length_skipOne_add ' ' body
  have hlen : (skipOne ' ' body).length = name.length + tail.length := by rw [htail, List.length_append]
  have hinner : skipOne ' ' (body ++ closing ++ rest) = name ++ (tail ++ (closing ++ rest)) := by
    rw [skipOne_append_closing, htail]; simp
  simp only [named, strip?_opening_braced, Option.bind_eq_bind, Option.bind_some, hinner, strip?_append,
    hnext, hin, if_true, hclose, Option.some.injEq, Prod.mk.injEq, true_and]
  simp only [List.length_append, length_braced, closing, List.length_cons, List.length_nil]
  omega

theorem named_eq_some_iff {name s : Text} (hname : '}' ∉ name) {n : Nat} :
    named name s = some ((), n) ↔
      ∃ body rest, s = braced body ++ rest ∧ '}' ∉ body ∧ Headed name body ∧ n = body.length + 4 := by
  constructor
  · intro h
    have h' := h
    simp only [named, Option.bind_eq_bind, Option.bind_eq_some_iff, strip?_eq_some_iff] at h'
    obtain ⟨r, rfl, after, hafter, next, hnext, hk⟩ := h'
    split at hk
    · next hin =>
      obtain ⟨k, hk, -⟩ := Option.bind_eq_some_iff.1 hk
      obtain ⟨tail, rest, rfl, htail, rfl⟩ := untilClosing?_eq_some_iff.1 hk
      have hhead : ∀ c, tail.head? = some c → c ∈ ['.', ' ', '|', '?'] := by
        intro c hc
        obtain ⟨u, rfl⟩ : ∃ u, tail = c :: u := List.head?_eq_some_iff.1 hc
        obtain rfl : c = next := by simpa using hnext
        rcases List.mem_cons.1 hin with rfl | hin
        · exact absurd List.mem_cons_self htail
        · exact hin
      obtain ⟨body, rfl, hbody⟩ : ∃ body, r = body ++ closing ++ rest ∧ skipOne ' ' body = name ++ tail := by
        -- the matcher skipped one blank or none
        rcases eq_of_skipOne_eq hafter with hr | hr
        · refine ⟨name ++ tail, by rw [hr]; simp, ?_⟩
          have := skipOne_append_closing (name ++ tail) rest
          rw [show name ++ tail ++ closing ++ rest = r by rw [hr]; simp, hafter, ← List.append_assoc,
            ← List.append_assoc] at this
          exact (List.append_cancel_right (List.append_cancel_right this)).symm
        · exact ⟨' ' :: (name ++ tail), by rw [hr]; simp, skipOne_self⟩
      have hb : '}' ∉ body := fun hm => by
        rcases eq_of_skipOne_eq hbody with h | h
        · rw [h] at hm
          exact (List.mem_append.1 hm).elim hname htail
        · rw [h] at hm
          exact (List.mem_append.1 ((List.mem_cons.1 hm).resolve_left (by decide))).elim hname htail
      refine ⟨body, rest, by simp [braced], hb, ⟨tail, hbody, hhead⟩, ?_⟩
      have hn := named_of_headed hb ⟨tail, hbody, hhead⟩ rest
      rw [show opening ++ (body ++ closing ++ rest) = braced body ++ rest by simp [braced], hn] at h
      exact (Prod.mk.inj (Option.some.inj h)).2.symm
    · cases hk
  · rintro ⟨body, rest, rfl, hb, hhead, rfl⟩
    exact named_of_headed hb hhead rest

theorem find_eq_of_ne_nil {name : Text} (hname : name ≠ []) (doc : Text) :
    find doc name = distinct (Piece.hits (cut (named name) doc)) := by
  rw [find, if_neg (by simpa using hname)]

theorem mem_find_iff {name doc p : Text} (hname : name ≠ []) :
    p ∈ find doc name ↔ ∃ a, .hit a p ∈ cut (named name) doc := by
  rw [find_eq_of_ne_nil hname, mem_distinct, Piece.mem_hits]

theorem exists_headed_of_hit {name doc p : Text} {a : Unit} (hname : '}' ∉ name)
    (h : .hit a p ∈ cut (named name) doc) : ∃ body, p = braced body ∧ '}' ∉ body ∧ Headed name body := by
  obtain ⟨r, n, hmatch, hp⟩ := match_of_mem_cut h
  obtain ⟨body, rest, hs, hb, hhead, rfl⟩ := (named_eq_some_iff hname).1 hmatch
  exact ⟨body, by rw [hp, hs, ← length_braced, List.take_left], hb, hhead⟩

theorem exists_headed_of_mem_find {name doc p : Text} (hne : name ≠ []) (hname : '}' ∉ name) (h : p ∈ find doc name) :
    ∃ body, p = braced body ∧ '}' ∉ body ∧ Headed name body := by
  obtain ⟨a, ha⟩ := (mem_find_iff hne).1 h
  exact exists_headed_of_hit hname ha

theorem find_braced {body : Text} (hb : '}' ∉ body) (hne : body ≠ []) : find (braced body) [] = [braced body] := by
  rw [find, List.isEmpty_nil, if_pos rfl, scan_eq_cut, cut_whole (anywhere_braced hb hne) (braced_ne_nil body)]
  rfl

theorem find_braced_headed {name body : Text} (hname : name ≠ []) (hb : '}' ∉ body) (h : Headed name body) :
    find (braced body) name = [braced body] := by
  have hcut : cut (named name) (braced body) = [.hit () (braced body)] :=
    cut_whole (fun s => by rw [length_braced]; exact named_of_headed hb h s) (braced_ne_nil body)
  rw [find_eq_of_ne_nil hname, hcut]; rfl

end Stencil.Placeholder
