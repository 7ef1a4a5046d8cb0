import Stencil.Proofs.Opening

/-! # Tidy documents

A document is tidy when every two opening braces in a row begin a placeholder whose body holds no
brace. In such a document all matchers for placeholders agree on where placeholders stand
(`Tidy.cut_eq`), so that a global replacement is an answer given to one placeholder everywhere
(`Tidy.replace_eq`). Answers without opening braces keep a document tidy and bring no placeholder in
(`Tidy.answered`), and two rounds of answers are one round (`Tidy.answered_answered`). -/

namespace Stencil
open Text Placeholder

/-- A text without braces. -/
structure Braceless (s : Text) : Prop where
  no_opening : '{' ∉ s
  no_closing : '}' ∉ s

instance (s : Text) : Decidable (Braceless s) :=
  decidable_of_iff ('{' ∉ s ∧ '}' ∉ s) ⟨fun h => ⟨h.1, h.2⟩, fun h => ⟨h.1, h.2⟩⟩

inductive Tidy : Text → Prop
  | nil : Tidy []
  | plain {c : Char} {s : Text} (h : c = '{' → s.head? ≠ some '{') : Tidy s → Tidy (c :: s)
  | placeholder {body s : Text} (hb : Braceless body) (hne : body ≠ []) : Tidy s → Tidy (braced body ++ s)

theorem no_opening_inside {body v w s : Text} {c : Char} (hb : Braceless body) (h : braced body = c :: v ++ w)
    (hw : w ≠ []) : strip? opening (w ++ s) = none := by
  have h1 : '{' :: (body ++ closing) = v ++ w := (List.cons.inj h).2
  cases v with
  | nil =>
    -- only the second brace of the opening is left, with the body behind it
    obtain rfl : '{' :: (body ++ closing) = w := h1
    refine strip?_opening_cons fun _ hd => ?_
    cases body with
    | nil => exact absurd (Option.some.inj hd) (by decide)
    | cons d body =>
      obtain rfl : d = '{' := Option.some.inj hd
      exact hb.no_opening List.mem_cons_self
  | cons e v =>
    have h2 : body ++ closing = v ++ w := (List.cons.inj h1).2
    obtain ⟨d, w, rfl⟩ := List.exists_cons_of_ne_nil hw
    refine strip?_opening_cons fun hd => ?_
    have hm : d ∈ body ++ closing := h2 ▸ List.mem_append_right _ List.mem_cons_self
    subst hd
    exact absurd ((List.mem_append.1 hm).resolve_left hb.no_opening) (by decide)

/-- A matcher that answers at openings only, and takes whole placeholders whatever follows. -/
structure AtOpenings {α : Type} (m : Matcher α) : Prop where
  opens : ∀ s, strip? opening s = none → m s = none
  whole : ∀ body s, Braceless body → body ≠ [] →
    m (braced body ++ s) = (m (braced body)).map fun r => (r.1, (braced body).length)

theorem whole_of_forall {α : Type} {m : Matcher α} {body : Text} {r : Option α}
    (h : ∀ s, m (braced body ++ s) = r.map fun a => (a, (braced body).length)) (s : Text) :
    m (braced body ++ s) = (m (braced body)).map fun r => (r.1, (braced body).length) := by
  have hbody := h []
  rw [List.append_nil] at hbody
  rw [h, hbody]
  cases r <;> rfl

theorem atOpenings_literally {b : Text} (hb : '}' ∉ b) : AtOpenings (literally (braced b)) where
  opens s h := literally_eq_none_iff.2 fun r hr => by
    rw [hr, strip?_opening_braced] at h; cases h
  whole body s hbody _ := by
    by_cases h : b = body
    · subst h
      exact whole_of_forall (r := some ()) (fun s => literally_eq_some_iff.2 ⟨⟨s, rfl⟩, rfl⟩) s
    · refine whole_of_forall (r := none) (fun s => literally_eq_none_iff.2 fun r hr => h ?_) s
      exact (braced_append_inj hbody.no_closing hb hr).1.symm

theorem atOpenings_named {name : Text} (hname : '}' ∉ name) : AtOpenings (named name) where
  opens s h := by simp [named, h]
  whole body s hbody _ := by
    by_cases h : Headed name body
    · refine whole_of_forall (r := some ()) (fun s => ?_) s
      rw [named_of_headed hbody.no_closing h, length_braced]; rfl
    · refine whole_of_forall (r := none) (fun s => ?_) s
      rw [Option.map_none, Option.eq_none_iff_forall_ne_some]
      rintro ⟨⟨⟩, n⟩ hs
      obtain ⟨body', rest, hs, hb', hhead, -⟩ := (named_eq_some_iff hname).1 hs
      exact h ((braced_append_inj hbody.no_closing hb' hs).1 ▸ hhead)

/-- A placeholder as a matcher sees it: one hit, or plain text. -/
def Piece.under {α : Type} (m : Matcher α) : Piece Unit → List (Piece α)
  | .plain c => [.plain c]
  | .hit _ p => match m p with
    | some (a, _) => [.hit a p]
    | none => p.map .plain

theorem Piece.fill_flatMap_under {α : Type} (m : Matcher α) (f : α → Text → Text) (ps : List (Piece Unit)) :
    fill f (ps.flatMap (under m)) = fill (fun _ p => (m p).elim p fun r => f r.1 p) ps := by
  induction ps with
  | nil => rfl
  | cons q ps ih =>
    cases q with
    | plain c => rw [List.flatMap_cons, fill_append, ih]; rfl
    | hit a p =>
      rw [List.flatMap_cons, fill_append, ih, fill_hit, under]
      cases m p with
      | none => simp
      | some r => simp

theorem Piece.hits_flatMap_under {α : Type} (m : Matcher α) (ps : List (Piece Unit)) :
    hits (ps.flatMap (under m)) = (hits ps).filter fun p => (m p).isSome := by
  induction ps with
  | nil => rfl
  | cons q ps ih =>
    cases q with
    | plain c => rw [List.flatMap_cons, hits_append, ih]; rfl
    | hit a p =>
      rw [List.flatMap_cons, hits_append, ih, hits_hit, under]
      cases h : m p with
      | none => simp [h]
      | some r => simp [h]

namespace Tidy
variable {doc s : Text}

theorem cut_eq {α : Type} {m : Matcher α} (hm : AtOpenings m) (h : Tidy doc) :
    cut m doc = (cut anywhere doc).flatMap (Piece.under m) := by
  induction h with
  | nil => rfl
  | @plain c s hc _ ih =>
    have hno := strip?_opening_cons hc
    rw [cut_plain_cons (hm.opens _ hno), cut_plain_cons (anywhere_eq_none_of_no_opening hno), ih]
    rfl
  | @placeholder body s hb hne _ ih =>
    have hwhole := hm.whole body s hb hne
    rw [cut_hit (anywhere_braced hb.no_closing hne s) (braced_ne_nil _), List.flatMap_cons, ← ih, Piece.under]
    cases hbody : m (braced body) with
    | none =>
      rw [hbody] at hwhole
      refine cut_plain fun v w hvw hw => ?_
      cases v with
      | nil => rw [← show braced body = w from hvw]; exact hwhole
      | cons c v => exact hm.opens _ (no_opening_inside hb hvw hw)
    | some r =>
      rw [hbody] at hwhole
      exact cut_hit hwhole (braced_ne_nil _)

theorem append {t : Text} (ht : '{' ∉ t) (h : Tidy s) : Tidy (t ++ s) := by
  induction t with
  | nil => exact h
  | cons c t ih =>
    exact .plain (fun hc => absurd (hc ▸ List.mem_cons_self) ht) (ih fun hm => ht (List.mem_cons_of_mem _ hm))

end Tidy

theorem exists_braced_of_hit {doc p : Text} {a : Unit} (h : .hit a p ∈ cut anywhere doc) :
    ∃ body, p = braced body ∧ '}' ∉ body ∧ body ≠ [] := by
  obtain ⟨r, n, hmatch, hp⟩ := match_of_mem_cut h
  obtain ⟨body, rest, hs, hb, hne, rfl⟩ := anywhere_eq_some_iff.1 hmatch
  exact ⟨body, by rw [hp, hs, ← length_braced, List.take_left], hb, hne⟩

/-! ### Answers -/

/-- The document with all placeholders that have an answer replaced at once. -/
def Document.answered (answer : Text → Option Text) (doc : Text) : Text :=
  Piece.fill (fun _ p => (answer p).getD p) (cut anywhere doc)

/-- A placeholder once answers are given: the plain text of its answer, or still itself. -/
def Piece.after (answer : Text → Option Text) : Piece Unit → List (Piece Unit)
  | .plain c => [.plain c]
  | .hit a p => match answer p with
    | some t => t.map .plain
    | none => [.hit a p]

theorem Piece.fill_flatMap_after (answer : Text → Option Text) (f : Unit → Text → Text)
    (ps : List (Piece Unit)) :
    fill f (ps.flatMap (after answer)) = fill (fun a p => (answer p).getD (f a p)) ps := by
  induction ps with
  | nil => rfl
  | cons q ps ih =>
    cases q with
    | plain c => rw [List.flatMap_cons, fill_append, ih]; rfl
    | hit a p =>
      rw [List.flatMap_cons, fill_append, ih, fill_hit, after]
      cases answer p with
      | none => simp
      | some t => simp

theorem Piece.hits_flatMap_after (answer : Text → Option Text) (ps : List (Piece Unit)) :
    hits (ps.flatMap (after answer)) = (hits ps).filter fun p => (answer p).isNone := by
  induction ps with
  | nil => rfl
  | cons q ps ih =>
    cases q with
    | plain c => rw [List.flatMap_cons, hits_append, ih]; rfl
    | hit a p =>
      rw [List.flatMap_cons, hits_append, ih, hits_hit, after]
      cases h : answer p with
      | none => simp [h]
      | some t => simp [h]

theorem mem_find_nil {doc p : Text} : p ∈ Placeholder.find doc [] ↔ p ∈ Piece.hits (cut anywhere doc) := by
  rw [Placeholder.find, mem_distinct, List.isEmpty_nil, if_pos rfl, scan_eq_cut]

namespace Document
variable {answer answer' : Text → Option Text} {doc : Text}

theorem answered_congr (h : ∀ p ∈ Placeholder.find doc [], answer p = answer' p) :
    answered answer doc = answered answer' doc :=
  Piece.fill_congr fun a p hp => by rw [h p (mem_find_nil.2 (Piece.mem_hits.2 ⟨a, hp⟩))]

theorem answered_none : answered (fun _ => none) doc = doc := by
  rw [answered]
  exact (Piece.fill_id _).trans (texts_cut anywhere doc)

end Document

namespace Tidy
open Document
variable {answer answer' : Text → Option Text} {doc : Text}

theorem exists_braced {p : Text} (h : Tidy doc) (hp : p ∈ Placeholder.find doc []) :
    ∃ body, p = braced body ∧ Braceless body := by
  rw [mem_find_nil] at hp
  induction h with
  | nil => cases hp
  | @plain c s hc _ ih =>
    rw [cut_plain_cons (anywhere_eq_none_of_no_opening (strip?_opening_cons hc)), Piece.hits_plain] at hp
    exact ih hp
  | @placeholder body s hb hne _ ih =>
    rw [cut_hit (anywhere_braced hb.no_closing hne s) (braced_ne_nil body), Piece.hits_hit] at hp
    rcases List.mem_cons.1 hp with rfl | hp
    · exact ⟨body, rfl, hb⟩
    · exact ih hp

theorem head_answered {s : Text} (h : s.head? ≠ some '{') : (answered answer s).head? ≠ some '{' := by
  cases s with
  | nil => exact h
  | cons c s =>
    have hno : strip? opening (c :: s) = none := strip?_opening_cons fun hc => absurd (congrArg some hc) h
    rw [answered, cut_plain_cons (anywhere_eq_none_of_no_opening hno)]
    exact h

theorem cut_of_not_mem {t s : Text} (ht : '{' ∉ t) : cut anywhere (t ++ s) = t.map .plain ++ cut anywhere s :=
  cut_of_opens (fun _ => anywhere_eq_none_of_no_opening) ht s

theorem answered_spec (hg : ∀ p ∈ Placeholder.find doc [], ∀ t, answer p = some t → '{' ∉ t) (h : Tidy doc) :
    Tidy (answered answer doc) ∧
      cut anywhere (answered answer doc) = (cut anywhere doc).flatMap (Piece.after answer) := by
  simp only [mem_find_nil] at hg
  induction h with
  | nil => exact ⟨.nil, rfl⟩
  | @plain c s hc _ ih =>
    have hcut := cut_plain_cons (anywhere_eq_none_of_no_opening (strip?_opening_cons hc))
    rw [hcut, Piece.hits_plain] at hg
    obtain ⟨htidy, hnext⟩ := ih hg
    have heq : answered answer (c :: s) = c :: answered answer s := by rw [answered, hcut]; rfl
    have hc' : c = '{' → (answered answer s).head? ≠ some '{' := fun h => head_answered (hc h)
    rw [heq, hcut, cut_plain_cons (anywhere_eq_none_of_no_opening (strip?_opening_cons hc')), hnext]
    exact ⟨.plain hc' htidy, rfl⟩
  | @placeholder body s hb hne _ ih =>
    have hcut := cut_hit (anywhere_braced hb.no_closing hne s) (braced_ne_nil body)
    rw [hcut, Piece.hits_hit] at hg
    obtain ⟨htidy, hnext⟩ := ih fun p hp => hg p (List.mem_cons_of_mem _ hp)
    have heq : answered answer (braced body ++ s) =
        (answer (braced body)).getD (braced body) ++ answered answer s := by
      rw [answered, hcut]; rfl
    rw [heq, hcut, List.flatMap_cons, ← hnext, Piece.after]
    cases hans : answer (braced body) with
    | none => exact ⟨.placeholder hb hne htidy, cut_hit (anywhere_braced hb.no_closing hne _) (braced_ne_nil body)⟩
    | some t =>
      have ht := hg _ List.mem_cons_self _ hans
      exact ⟨htidy.append ht, cut_of_not_mem ht⟩

theorem answered (hg : ∀ p ∈ Placeholder.find doc [], ∀ t, answer p = some t → '{' ∉ t) (h : Tidy doc) :
    Tidy (answered answer doc) :=
  (answered_spec hg h).1

/-- A second round of answers reaches what the first one left. -/
theorem answered_answered (hg : ∀ p ∈ Placeholder.find doc [], ∀ t, answer p = some t → '{' ∉ t) (h : Tidy doc) :
    Document.answered answer' (Document.answered answer doc) =
      Document.answered (fun p => answer p <|> answer' p) doc := by
  rw [Document.answered, (answered_spec hg h).2, Piece.fill_flatMap_after, Document.answered]
  exact Piece.fill_congr fun _ p _ => by cases answer p <;> rfl

theorem mem_find_answered {p : Text} (hg : ∀ p ∈ Placeholder.find doc [], ∀ t, answer p = some t → '{' ∉ t)
    (h : Tidy doc) :
    p ∈ Placeholder.find (Document.answered answer doc) [] ↔ p ∈ Placeholder.find doc [] ∧ answer p = none := by
  rw [mem_find_nil, mem_find_nil, (answered_spec hg h).2, Piece.hits_flatMap_after, List.mem_filter,
    Option.isNone_iff_eq_none]

theorem replace_eq {body new : Text} (hb : '}' ∉ body) (h : Tidy doc) :
    replace (braced body) new doc =
      Document.answered (fun p => if p = braced body then some new else none) doc := by
  rw [replace, h.cut_eq (atOpenings_literally hb), Piece.fill_flatMap_under, Document.answered]
  refine Piece.fill_congr fun a p hp => ?_
  obtain ⟨b, rfl, hb', -⟩ := exists_braced_of_hit hp
  by_cases hbb : b = body
  · subst hbb
    have : literally (braced b) (braced b) = some ((), (braced b).length) :=
      literally_eq_some_iff.2 ⟨⟨[], (List.append_nil _).symm⟩, rfl⟩
    simp [this]
  · have : literally (braced body) (braced b) = none := literally_eq_none_iff.2 fun r hr =>
      hbb (braced_append_inj hb' hb ((List.append_nil _).trans hr)).1
    have hne : braced b ≠ braced body := fun h => hbb (braced_inj h)
    simp [this, hne]

end Tidy

/-- Whether a binding of a name looks at a placeholder; the empty name looks at all. -/
def Placeholder.touches (name p : Text) : Bool := name.isEmpty || (named name p).isSome

theorem Tidy.mem_find {doc name p : Text} (hname : '}' ∉ name) (h : Tidy doc) :
    p ∈ Placeholder.find doc name ↔ p ∈ Placeholder.find doc [] ∧ touches name p = true := by
  cases name with
  | nil => simp [touches]
  | cons c name =>
    rw [mem_find_nil, Placeholder.find, mem_distinct, List.isEmpty_cons, if_neg (by simp),
      h.cut_eq (atOpenings_named hname), Piece.hits_flatMap_under, List.mem_filter]
    simp [touches]

end Stencil
