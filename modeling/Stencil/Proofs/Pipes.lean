import Stencil.Proofs.OpenQuote
import Stencil.Proofs.Reading

/-! # Filters behind pipes

Filters stand one after another, each behind a pipe; the reader leaves empty parts out. Parts behind pipes are scanned
one by one, as long as no part leaves a quote open that a later one would close (`scanned_piped`), so that the scanner
of quoted runs does not notice when empty parts go (`scanned_piped_occupied`), and the filters are read again from
those that stay (`filters?_piped_occupied`). -/

namespace Stencil
open Text Piece

namespace Placeholder

/-- Parts one after another, each behind a pipe. -/
def piped (parts : List (List (Piece Unit))) : List (Piece Unit) := parts.flatMap (.plain '|' :: ·)

/-- The parts that are not empty. -/
def occupied (parts : List (List (Piece Unit))) : List (List (Piece Unit)) := parts.filter (!·.isEmpty)

/-- No quote that the first part leaves open is closed by the second. -/
def Apart (a b : List (Piece Unit)) : Prop :=
  ∀ quote, isQuote quote = true → leavesOpen quote false a = true → runLength? quote (texts b) = none

section Piped
variable {escaped : Bool} {quote : Char} {a ps : List (Piece Unit)} {parts : List (List (Piece Unit))}

@[simp] theorem piped_nil : piped [] = [] := rfl

@[simp] theorem piped_cons (a : List (Piece Unit)) (parts : List (List (Piece Unit))) :
    piped (a :: parts) = .plain '|' :: (a ++ piped parts) := by
  simp [piped]

@[simp] theorem piped_append (parts rest : List (List (Piece Unit))) :
    piped (parts ++ rest) = piped parts ++ piped rest := by
  simp [piped]

theorem mem_occupied : a ∈ occupied parts ↔ a ∈ parts ∧ a ≠ [] := by
  simp [occupied]

theorem runLength?_append_piped (hquote : isQuote quote = true) {u : Text} (hline : '\n' ∉ u) :
    runLength? quote (u ++ texts (piped parts)) = none ↔
      runLength? quote u = none ∧ runLength? quote (texts (piped parts)) = none := by
  cases parts with
  | nil => simp [runLength?]
  | cons a parts =>
    rw [piped_cons, texts_plain, runLength?_append_mark_eq_none_iff hquote (by decide) hline,
      runLength?_mark hquote (by decide), Option.map_eq_none_iff]

theorem runLength?_piped (hquote : isQuote quote = true) (hline : '\n' ∉ texts (piped parts)) :
    runLength? quote (texts (piped parts)) = none ↔ ∀ a ∈ parts, runLength? quote (texts a) = none := by
  induction parts with
  | nil => simp [runLength?]
  | cons a parts ih =>
    simp only [piped_cons, texts_plain, texts_append, List.mem_cons, List.mem_append, not_or] at hline
    rw [piped_cons, texts_plain, runLength?_mark hquote (by decide), Option.map_eq_none_iff, texts_append,
      runLength?_append_piped hquote hline.2.1, ih hline.2.2, List.forall_mem_cons]

theorem scanned_append_piped (hline : '\n' ∉ texts ps) :
    Scanned escaped (ps ++ piped parts) ↔ Scanned escaped ps ∧ Scanned false (piped parts) ∧
      ∀ quote, isQuote quote = true → leavesOpen quote escaped ps = true →
        runLength? quote (texts (piped parts)) = none := by
  cases parts with
  | nil => simp [Scanned, runLength?]
  | cons a parts =>
    rw [piped_cons, scanned_append_mark (by decide) hline, scanned_mark (by decide)]
    refine and_congr_right fun _ => and_congr_right fun _ => ?_
    refine forall_congr' fun quote => forall_congr' fun hquote => forall_congr' fun _ => ?_
    rw [texts_plain, runLength?_mark hquote (by decide), Option.map_eq_none_iff]

theorem scanned_piped (hline : '\n' ∉ texts (piped parts)) :
    Scanned escaped (piped parts) ↔ (∀ a ∈ parts, Scanned false a) ∧ parts.Pairwise Apart := by
  induction parts generalizing escaped with
  | nil => simp [Scanned]
  | cons a parts ih =>
    simp only [piped_cons, texts_plain, texts_append, List.mem_cons, List.mem_append, not_or] at hline
    obtain ⟨-, ha, hparts⟩ := hline
    rw [piped_cons, scanned_mark (by decide), scanned_append_piped ha, ih hparts, List.forall_mem_cons,
      List.pairwise_cons]
    constructor
    · rintro ⟨hsa, ⟨hs, hapart⟩, hlater⟩
      exact ⟨⟨hsa, hs⟩, fun b hb quote hquote hopen =>
        (runLength?_piped hquote hparts).1 (hlater quote hquote hopen) b hb, hapart⟩
    · rintro ⟨⟨hsa, hs⟩, hlater, hapart⟩
      exact ⟨hsa, ⟨hs, hapart⟩, fun quote hquote hopen =>
        (runLength?_piped hquote hparts).2 fun b hb => hlater b hb quote hquote hopen⟩

theorem leavesOpen_mark {c : Char} (hquote : isQuote quote = true) (hc : isMark c = true) (ps : List (Piece Unit)) :
    leavesOpen quote escaped (.plain c :: ps) = leavesOpen quote false ps := by
  obtain ⟨hnot, hescape, -⟩ := isMark_spec hc
  have hne : (c == quote) = false := beq_eq_false_iff_ne.2 (ne_of_holds hquote hnot).symm
  have hnext : (c == '\\') = false := beq_eq_false_iff_ne.2 hescape
  simp [leavesOpen, hne, hnext]

theorem leavesOpen_append_piped (hquote : isQuote quote = true) :
    leavesOpen quote escaped (ps ++ piped parts) =
      (leavesOpen quote escaped ps || leavesOpen quote false (piped parts)) := by
  induction ps generalizing escaped with
  | nil =>
    cases parts with
    | nil => rfl
    | cons a parts =>
      rw [piped_cons, List.nil_append, leavesOpen_mark hquote (by decide), leavesOpen_mark hquote (by decide)]; rfl
  | cons p ps ih => cases p <;> simp [leavesOpen, ih, Bool.or_assoc]

theorem leavesOpen_piped (hquote : isQuote quote = true) :
    leavesOpen quote escaped (piped parts) = parts.any (leavesOpen quote false) := by
  induction parts generalizing escaped with
  | nil => rfl
  | cons a parts ih =>
    rw [piped_cons, leavesOpen_mark hquote (by decide), leavesOpen_append_piped hquote, ih, List.any_cons]

theorem splitOutside_append_piped (ha : .plain '|' ∉ a) (hparts : ∀ b ∈ parts, .plain '|' ∉ b) :
    splitOutside '|' (a ++ piped parts) = texts a :: parts.map texts := by
  induction parts generalizing a with
  | nil => rw [piped_nil, List.append_nil, splitOutside_of_not_mem ha]; rfl
  | cons b parts ih =>
    obtain ⟨hb, hparts⟩ := List.forall_mem_cons.1 hparts
    rw [piped_cons, splitOutside_append_cons ha, ih hb hparts, List.map_cons]

theorem splitOutside_piped (hparts : ∀ b ∈ parts, .plain '|' ∉ b) :
    splitOutside '|' (piped parts) = [] :: parts.map texts :=
  splitOutside_append_piped (a := []) (by simp) hparts

theorem exists_piped (ps : List (Piece Unit)) :
    ∃ a parts, ps = a ++ piped parts ∧ .plain '|' ∉ a ∧ ∀ b ∈ parts, .plain '|' ∉ b := by
  induction ps with
  | nil => exact ⟨[], [], rfl, by simp, by simp⟩
  | cons p ps ih =>
    obtain ⟨a, parts, rfl, ha, hparts⟩ := ih
    by_cases hp : .plain '|' = p
    · exact ⟨[], a :: parts, by simp [hp], by simp, List.forall_mem_cons.2 ⟨ha, hparts⟩⟩
    · exact ⟨p :: a, parts, rfl, by simp [hp, ha], hparts⟩

/-- The texts between the pipes, without the empty ones. -/
def between (s : Text) : List Text := (splitOutside '|' (quotePieces s)).filter (!·.isEmpty)

theorem between_cons (s : Text) : between ('|' :: s) = between s := by
  have hs : quotePieces ('|' :: s) = .plain '|' :: quotePieces s := quotePieces_signs (u := ['|']) (by decide) s
  rw [between, hs, splitOutside, if_pos rfl]; rfl

theorem between_concat {s : Text} (hline : '\n' ∉ s) : between (s ++ ['|']) = between s := by
  have htexts : '\n' ∉ texts (quotePieces s) := by rwa [texts_quotePieces]
  have hs : quotePieces (s ++ ['|']) = quotePieces s ++ [.plain '|'] := by
    rw [quotePieces_eq_iff, scanned_append_mark (by decide) htexts]
    exact ⟨⟨scanned_quotePieces s, trivial, fun _ _ _ => rfl⟩, by simp [texts_quotePieces]⟩
  -- one more part at the end, which is empty and left out
  obtain ⟨a, parts, hps, ha, hparts⟩ := exists_piped (quotePieces s)
  have hend : a ++ piped parts ++ [.plain '|'] = a ++ piped (parts ++ [[]]) := by simp
  have hparts' : ∀ b ∈ parts ++ [[]], .plain '|' ∉ b := by simpa [or_imp, forall_and] using hparts
  rw [between, between, hs, hps, hend, splitOutside_append_piped ha hparts', splitOutside_append_piped ha hparts,
    List.map_append, ← List.cons_append, List.filter_append]
  exact List.append_nil _

theorem between_trimBoth {s : Text} (hline : '\n' ∉ s) : between (trimBoth (· == '|') s) = between s := by
  have hstart : between (trimStart (· == '|') s) = between s := by
    induction s with
    | nil => rfl
    | cons c s ih =>
      by_cases hc : c = '|'
      · subst hc
        rw [between_cons, ← ih fun hm => hline (List.mem_cons_of_mem _ hm)]; rfl
      · rw [trimStart, List.dropWhile_cons_of_neg (by simpa using hc)]
  have hend : ∀ s : Text, '\n' ∉ s → between (trimEnd (· == '|') s) = between s := by
    intro s hline
    induction s using List.reverseRecOn with
    | nil => rfl
    | append_singleton s c ih =>
      have hs : '\n' ∉ s := fun hm => hline (List.mem_append_left _ hm)
      by_cases hc : c = '|'
      · subst hc
        rw [between_concat hs, ← ih hs, trimEnd, trimEnd, List.reverse_concat, List.dropWhile_cons_of_pos (by simp)]
      · rw [trimEnd, List.reverse_concat, List.dropWhile_cons_of_neg (by simpa using hc), List.reverse_cons,
          List.reverse_reverse]
  have hrest : '\n' ∉ trimStart (· == '|') s := fun hm => hline ((List.dropWhile_suffix _).subset hm)
  rw [trimBoth, hend _ hrest, hstart]

theorem Scanned.isEmpty_texts (h : Scanned escaped ps) : (texts ps).isEmpty = ps.isEmpty := by
  cases ps with
  | nil => rfl
  | cons p ps =>
    cases p with
    | plain c => rfl
    | hit a t =>
      obtain ⟨quote, u, rfl, -⟩ := h.2.1
      rfl

theorem occupied_map_texts (hs : ∀ a ∈ parts, Scanned false a) :
    (occupied parts).map texts = (parts.map texts).filter (!·.isEmpty) := by
  rw [occupied, List.filter_map]
  exact congrArg _ (List.filter_congr fun a ha => congrArg (!·) (hs a ha).isEmpty_texts.symm)

theorem filters?_pipe {c : Char} {s : Text} (hline : '\n' ∉ '|' :: c :: s) :
    Slot.filters? ('|' :: c :: s) = some (between ('|' :: c :: s)) :=
  congrArg some (between_trimBoth hline)

theorem exists_parts {calls : Text} {filters : List Text} (h : Slot.filters? calls = some filters)
    (hline : '\n' ∉ calls) :
    ∃ parts, quotePieces calls = piped parts ∧ (∀ a ∈ parts, .plain '|' ∉ a) ∧ filters = (occupied parts).map texts := by
  rcases Slot.filters?_cases h with rfl | ⟨c, s, rfl⟩
  · exact ⟨[], rfl, by simp, (Option.some.inj h).symm⟩
  · rw [filters?_pipe hline] at h
    obtain rfl := Option.some.inj h
    have hpipe : quotePieces ('|' :: c :: s) = .plain '|' :: quotePieces (c :: s) :=
      quotePieces_signs (u := ['|']) (by decide) (c :: s)
    obtain ⟨a, parts, hps, ha, hparts⟩ := exists_piped (quotePieces (c :: s))
    have hcut : quotePieces ('|' :: c :: s) = piped (a :: parts) := by rw [hpipe, hps, piped_cons]
    have hall : ∀ b ∈ a :: parts, .plain '|' ∉ b := List.forall_mem_cons.2 ⟨ha, hparts⟩
    have hscanned := scanned_quotePieces ('|' :: c :: s)
    have hline' : '\n' ∉ texts (piped (a :: parts)) := by rwa [← hcut, texts_quotePieces]
    rw [hcut, scanned_piped hline'] at hscanned
    refine ⟨a :: parts, hcut, hall, ?_⟩
    rw [occupied_map_texts hscanned.1, between, hcut, splitOutside_piped hall]
    rfl

theorem texts_piped (parts : List (List (Piece Unit))) :
    texts (piped parts) = (parts.map texts).flatMap ('|' :: ·) := by
  induction parts with
  | nil => rfl
  | cons a parts ih => rw [piped_cons, texts_plain, texts_append, ih, List.map_cons, List.flatMap_cons]; rfl

theorem mem_of_mem_occupied {c : Char} (h : c ∈ texts (piped (occupied parts))) : c ∈ texts (piped parts) := by
  rw [texts_piped, List.mem_flatMap] at h ⊢
  obtain ⟨t, ht, hc⟩ := h
  obtain ⟨a, ha, rfl⟩ := List.mem_map.1 ht
  exact ⟨_, List.mem_map_of_mem (mem_occupied.1 ha).1, hc⟩

theorem count_piped_occupied {c : Char} (hc : c ≠ '|') :
    (texts (piped (occupied parts))).count c = (texts (piped parts)).count c := by
  induction parts with
  | nil => rfl
  | cons a parts ih =>
    cases a with
    | nil =>
      have hempty : occupied ([] :: parts) = occupied parts := rfl
      rw [hempty, ih, piped_cons, texts_plain, List.count_cons_of_ne hc.symm, List.nil_append]
    | cons p a =>
      have hkept : occupied ((p :: a) :: parts) = (p :: a) :: occupied parts := rfl
      rw [hkept, piped_cons, piped_cons, texts_plain, texts_plain, texts_append, texts_append, List.count_cons,
        List.count_cons, List.count_append, List.count_append, ih]

theorem leavesOpen_piped_occupied (hquote : isQuote quote = true) :
    leavesOpen quote escaped (piped (occupied parts)) = leavesOpen quote escaped (piped parts) := by
  rw [leavesOpen_piped hquote, leavesOpen_piped hquote, occupied, List.any_filter]
  refine congrArg parts.any (funext fun a => ?_)
  cases a <;> rfl

theorem scanned_piped_occupied (hline : '\n' ∉ texts (piped parts)) (hs : Scanned escaped (piped parts)) :
    Scanned escaped (piped (occupied parts)) := by
  obtain ⟨hall, hapart⟩ := (scanned_piped hline).1 hs
  exact (scanned_piped fun hm => hline (mem_of_mem_occupied hm)).2
    ⟨fun a ha => hall a (mem_occupied.1 ha).1, hapart.filter _⟩

theorem filters?_piped_occupied (hline : '\n' ∉ texts (piped parts)) (hs : Scanned false (piped parts))
    (hparts : ∀ a ∈ parts, .plain '|' ∉ a) :
    Slot.filters? (texts (piped (occupied parts))) = some ((occupied parts).map texts) := by
  have hscanned := scanned_piped_occupied hline hs
  have hline' : '\n' ∉ texts (piped (occupied parts)) := fun hm => hline (mem_of_mem_occupied hm)
  have hall := ((scanned_piped hline').1 hscanned).1
  have hbetween : between (texts (piped (occupied parts))) = (occupied parts).map texts := by
    have htwice : occupied (occupied parts) = occupied parts := by simp [occupied]
    have hpipe : ∀ a ∈ occupied parts, .plain '|' ∉ a := fun a ha => hparts a (mem_occupied.1 ha).1
    rw [between, quotePieces_eq_iff.2 ⟨hscanned, rfl⟩, splitOutside_piped hpipe]
    exact (occupied_map_texts hall).symm.trans (by rw [htwice])
  cases hkept : occupied parts with
  | nil => rfl
  | cons a kept =>
    have ha : a ∈ occupied parts := hkept ▸ List.mem_cons_self
    obtain ⟨c, u, hu⟩ : ∃ c u, texts a = c :: u := by
      refine List.exists_cons_of_ne_nil fun h0 => (mem_occupied.1 ha).2 ?_
      have hempty := (hall a ha).isEmpty_texts
      rw [h0] at hempty
      exact List.isEmpty_iff.1 hempty.symm
    have htext : texts (piped (occupied parts)) = '|' :: c :: (u ++ texts (piped kept)) := by
      rw [hkept, piped_cons, texts_plain, texts_append, hu]; rfl
    rw [← hkept, ← hbetween, htext]
    exact filters?_pipe (htext ▸ hline')

end Piped
end Placeholder
end Stencil
