import Stencil.Proofs.Rewriting
import Stencil.Proofs.Pipes

/-! # Writing a slot and reading it again

`Slot.toPlaceholder` leaves empty filters out and puts every default between double quotes. Without a
default the slot is read again from what was written. With one this is so exactly if the filters do not end
in a question mark, which would begin the mark of the default too early, and leave no double quote open,
which the quotes of the default would close (`Slot.ofPlaceholder?_toPlaceholder_iff`). -/

namespace Stencil
open Text Piece

namespace Placeholder

/-- No two question marks stand side by side outside quoted runs. -/
def NoMark (ps : List (Piece Unit)) : Prop := ps.IsChain fun p q => p = .plain '?' → q ≠ .plain '?'

section Mark
variable {p : Piece Unit} {ps qs rs : List (Piece Unit)} {calls d : Text} {parts : List (List (Piece Unit))}

theorem noMark_cons : NoMark (p :: ps) ↔ (∀ q, ps.head? = some q → p = .plain '?' → q ≠ .plain '?') ∧ NoMark ps :=
  List.isChain_cons

theorem noMark_concat : NoMark (ps ++ [.plain '?']) ↔ NoMark ps ∧ ps.getLast? ≠ some (.plain '?') := by
  rw [NoMark, NoMark, List.isChain_append]
  simp only [List.isChain_singleton, true_and, List.head?_cons, Option.mem_def, Option.some.injEq,
    forall_eq', ne_eq, not_true_eq_false, imp_false]
  exact and_congr_right fun _ => ⟨fun h hlast => h _ hlast rfl, fun h p hp hq => h (hq ▸ hp)⟩

theorem noMark_append (hqs : qs.head? ≠ some (.plain '?')) : NoMark (ps ++ qs) ↔ NoMark ps ∧ NoMark qs := by
  rw [NoMark, NoMark, NoMark, List.isChain_append]
  refine and_congr_right fun _ => and_iff_left fun p _ q hq _ hmark => hqs ?_
  rw [← hmark]
  exact hq

theorem splitDefault_of_noMark (h : NoMark ps.dropLast) : splitDefault ps = (texts ps, none) := by
  induction ps using splitDefault.induct with
  | case1 => rfl
  | case2 p ps => exact absurd rfl ((noMark_cons.1 h).1 _ rfl rfl)
  | case3 p ps hnot before after _ ih =>
    have hps : NoMark ps.dropLast := by
      cases ps with
      | nil => exact List.isChain_nil
      | cons q ps => exact (noMark_cons.1 h).2
    rw [splitDefault_cons hnot, ih hps]
    cases p <;> rfl

theorem splitDefault_of_mark (h : NoMark (qs ++ [.plain '?'])) (hrs : rs ≠ []) :
    splitDefault (qs ++ .plain '?' :: .plain '?' :: rs) = (texts qs, some (texts rs)) := by
  induction qs with
  | nil =>
    obtain ⟨r, rs, rfl⟩ := List.exists_cons_of_ne_nil hrs
    rfl
  | cons q qs ih =>
    obtain ⟨hhead, hqs⟩ := noMark_cons.1 h
    rw [List.cons_append, splitDefault_cons, ih hqs]
    · cases q <;> rfl
    · intro r t hq hnext
      cases qs with
      | nil => exact hhead _ rfl hq rfl
      | cons x qs => exact hhead x rfl hq (List.cons.inj hnext).1

theorem mark_cases (ps : List (Piece Unit)) : NoMark ps.dropLast ∨
    ∃ qs rs, ps = qs ++ .plain '?' :: .plain '?' :: rs ∧ rs ≠ [] ∧ NoMark (qs ++ [.plain '?']) := by
  induction ps using splitDefault.induct with
  | case1 => exact .inl List.isChain_nil
  | case2 p ps => exact .inr ⟨[], p :: ps, rfl, List.cons_ne_nil _ _, List.isChain_singleton _⟩
  | case3 p ps hnot _ _ _ ih =>
    -- no mark begins with `p`, since something is left behind the front of `ps` that is looked at
    have hfront : ∀ {u r v}, NoMark u → ps = u ++ r :: v → NoMark (p :: u) := by
      intro u r v hu hps
      refine noMark_cons.2 ⟨fun q hq hp hmark => ?_, hu⟩
      obtain ⟨u, rfl⟩ := List.head?_eq_some_iff.1 hq
      obtain ⟨x, t, ht⟩ := List.exists_cons_of_ne_nil (List.append_ne_nil_of_right_ne_nil u (List.cons_ne_nil r v))
      exact hnot x t hp (by rw [hps, hmark, List.cons_append, ht])
    rcases ih with h | ⟨qs, rs, hps, hrs, h⟩
    · left
      rcases List.eq_nil_or_concat' ps with rfl | ⟨u, r, rfl⟩
      · exact List.isChain_nil
      · rw [List.dropLast_concat] at h
        rw [← List.cons_append, List.dropLast_concat]
        exact hfront h rfl
    · exact .inr ⟨p :: qs, rs, by rw [hps]; rfl, hrs, hfront h (hps.trans (List.append_cons qs _ _))⟩

theorem splitDefault_eq_none (h : splitDefault ps = (calls, none)) : NoMark ps.dropLast ∧ calls = texts ps := by
  rcases mark_cases ps with hno | ⟨qs, rs, rfl, hrs, hno⟩
  · rw [splitDefault_of_noMark hno] at h
    exact ⟨hno, (Prod.mk.inj h).1.symm⟩
  · rw [splitDefault_of_mark hno hrs] at h
    cases h

theorem splitDefault_eq_some (h : splitDefault ps = (calls, some d)) :
    ∃ qs rs, ps = qs ++ .plain '?' :: .plain '?' :: rs ∧ rs ≠ [] ∧ NoMark (qs ++ [.plain '?']) ∧
      calls = texts qs ∧ d = texts rs := by
  rcases mark_cases ps with hno | ⟨qs, rs, rfl, hrs, hno⟩
  · rw [splitDefault_of_noMark hno] at h
    cases h
  · rw [splitDefault_of_mark hno hrs] at h
    obtain ⟨rfl, hd⟩ := Prod.mk.inj h
    exact ⟨qs, rs, rfl, hrs, hno, rfl, (Option.some.inj hd).symm⟩

theorem head?_piped (parts : List (List (Piece Unit))) : (piped parts).head? ≠ some (.plain '?') := by
  cases parts <;> simp

theorem noMark_piped : NoMark (piped parts) ↔ ∀ a ∈ parts, NoMark a := by
  induction parts with
  | nil => simp [NoMark]
  | cons a parts ih =>
    have hpipe : NoMark (.plain '|' :: (a ++ piped parts)) ↔ NoMark (a ++ piped parts) := by
      simp [noMark_cons]
    rw [piped_cons, hpipe, noMark_append (head?_piped parts), ih, List.forall_mem_cons]

theorem noMark_dropLast_piped {a : List (Piece Unit)} (ha : a ≠ []) :
    NoMark (piped (parts ++ [a])).dropLast ↔ (∀ b ∈ parts, NoMark b) ∧ NoMark a.dropLast := by
  have hlast : (piped (parts ++ [a])).dropLast = piped (parts ++ [a.dropLast]) := by
    simp [List.dropLast_append_of_ne_nil, List.dropLast_cons_of_ne_nil, ha]
  rw [hlast, noMark_piped, List.forall_mem_append, List.forall_mem_singleton]

theorem noMark_dropLast_occupied (h : NoMark (piped parts).dropLast) : NoMark (piped (occupied parts)).dropLast := by
  have hkept : ∀ parts : List (List (Piece Unit)), (∀ a ∈ parts, NoMark a) → ∀ a ∈ occupied parts, NoMark a :=
    fun parts h a ha => h a (mem_occupied.1 ha).1
  rcases List.eq_nil_or_concat' parts with rfl | ⟨front, a, rfl⟩
  · exact h
  · by_cases ha : a = []
    · -- the last pipe goes too, and what is left had no mark at all
      subst ha
      have hall : NoMark (piped front) := by simpa using h
      have hgone : occupied (front ++ [[]]) = occupied front := by simp [occupied]
      have hkept : NoMark (piped (occupied front)) := noMark_piped.2 (hkept front (noMark_piped.1 hall))
      obtain ⟨t, ht⟩ := List.dropLast_prefix (piped (occupied front))
      rw [← ht] at hkept
      rw [hgone]
      exact hkept.left_of_append
    · have hstays : occupied (front ++ [a]) = occupied front ++ [a] := by simp [occupied, ha]
      obtain ⟨hfront, hlast⟩ := (noMark_dropLast_piped ha).1 h
      rw [hstays]
      exact (noMark_dropLast_piped ha).2 ⟨hkept front hfront, hlast⟩

end Mark
end Placeholder

namespace Slot
open Placeholder

/-- The filters as they are written. -/
def calls (slot : Slot) : Text := slot.filters.flatMap ('|' :: ·)

/-- What is written behind the path. -/
def tail (slot : Slot) : Text := slot.calls ++ slot.default.elim [] fun d => '?' :: '?' :: '"' :: (d ++ ['"'])

/-- What is read behind the path. -/
def Behind (tail : Text) (slot : Slot) : Prop := ∃ calls default,
  splitDefault (quotePieces tail) = (calls, default) ∧ filters? calls = some slot.filters ∧
    slot.default = default.map stripQuotes

theorem toPlaceholder_eq (slot : Slot) : slot.toPlaceholder = braced (slot.written ++ slot.tail) := by
  cases h : slot.default <;> simp [toPlaceholder, braced, written, tail, calls, h]

variable {slot : Slot} {tail d : Text} {parts : List (List (Piece Unit))}

theorem tail_of_default (h : slot.default = some d) : slot.tail = slot.calls ++ '?' :: '?' :: '"' :: (d ++ ['"']) := by
  rw [Slot.tail, h]; rfl

theorem calls_of_occupied (h : slot.filters = (occupied parts).map texts) :
    slot.calls = texts (piped (occupied parts)) := by
  rw [calls, h, texts_piped]

namespace Behind

theorem exists_pipes (h : Behind tail slot) (hline : '\n' ∉ tail) (hd : slot.default = none) :
    ∃ parts, quotePieces tail = piped parts ∧ (∀ a ∈ parts, .plain '|' ∉ a) ∧
      slot.filters = (occupied parts).map texts ∧ NoMark (piped parts).dropLast := by
  obtain ⟨calls, default, hsplit, hfilters, hdefault⟩ := h
  obtain rfl : default = none := Option.map_eq_none_iff.1 (hdefault.symm.trans hd)
  obtain ⟨hmark, hcalls⟩ := splitDefault_eq_none hsplit
  rw [texts_quotePieces] at hcalls
  obtain ⟨parts, hcut, hpipe, hparts⟩ := exists_parts hfilters (hcalls ▸ hline)
  rw [hcalls] at hcut
  exact ⟨parts, hcut, hpipe, hparts, hcut ▸ hmark⟩

theorem exists_pipes_of_default (h : Behind tail slot) (hline : '\n' ∉ tail) (hd : slot.default = some d) :
    ∃ parts rs, quotePieces tail = piped parts ++ .plain '?' :: .plain '?' :: rs ∧ (∀ a ∈ parts, .plain '|' ∉ a) ∧
      slot.filters = (occupied parts).map texts ∧ d = stripQuotes (texts rs) ∧ rs ≠ [] ∧
      NoMark (piped parts ++ [.plain '?']) := by
  obtain ⟨calls, default, hsplit, hfilters, hdefault⟩ := h
  obtain ⟨literal, rfl, hliteral⟩ := Option.map_eq_some_iff.1 (hdefault.symm.trans hd)
  obtain ⟨qs, rs, hpieces, hrs, hmark, rfl, rfl⟩ := splitDefault_eq_some hsplit
  have hscanned := scanned_quotePieces tail
  have htexts := texts_quotePieces tail
  rw [hpieces] at hscanned htexts
  have hline' : '\n' ∉ texts qs := fun hm => hline (htexts ▸ by simp [hm])
  have hqs : quotePieces (texts qs) = qs := quotePieces_eq_iff.2 ⟨hscanned.of_append, rfl⟩
  obtain ⟨parts, hcut, hpipe, hparts⟩ := exists_parts hfilters hline'
  rw [hqs] at hcut
  exact ⟨parts, rs, by rw [hpieces, hcut], hpipe, hparts, hliteral.symm, hrs, hcut ▸ hmark⟩

theorem mem_of_mem_tail (h : Behind tail slot) (hline : '\n' ∉ tail) {c : Char} (hc : c ∈ slot.tail)
    (hquote : c ≠ '"') : c ∈ tail := by
  rw [Slot.tail, List.mem_append] at hc
  rw [← texts_quotePieces tail]
  cases hd : slot.default with
  | none =>
    obtain ⟨parts, hcut, -, hparts, -⟩ := h.exists_pipes hline hd
    rw [hd, calls_of_occupied hparts] at hc
    rw [hcut]
    exact mem_of_mem_occupied (hc.resolve_right List.not_mem_nil)
  | some d =>
    obtain ⟨parts, rs, hcut, -, hparts, rfl, -⟩ := h.exists_pipes_of_default hline hd
    rw [hd, calls_of_occupied hparts] at hc
    rw [hcut, texts_append, texts_plain, texts_plain]
    rcases hc with hc | hc
    · exact List.mem_append_left _ (mem_of_mem_occupied hc)
    · have hd : c = '?' ∨ c ∈ stripQuotes (texts rs) := by simpa [hquote] using hc
      refine List.mem_append_right _ ?_
      rcases hd with rfl | hd
      · exact List.mem_cons_self
      · exact List.mem_cons_of_mem _ (List.mem_cons_of_mem _ (mem_of_mem_stripQuotes hd))

theorem written_again (h : Behind tail slot) (hline : '\n' ∉ tail) (hd : slot.default = none) :
    Behind slot.tail slot := by
  obtain ⟨parts, hcut, hpipe, hparts, hmark⟩ := h.exists_pipes hline hd
  have hscanned : Scanned false (piped parts) := hcut ▸ scanned_quotePieces tail
  have hline' : '\n' ∉ texts (piped parts) := by rwa [← hcut, texts_quotePieces]
  have htail : slot.tail = texts (piped (occupied parts)) := by
    rw [Slot.tail, hd, calls_of_occupied hparts]; exact List.append_nil _
  have hpieces : quotePieces slot.tail = piped (occupied parts) :=
    quotePieces_eq_iff.2 ⟨scanned_piped_occupied hline' hscanned, htail.symm⟩
  refine ⟨slot.tail, none, ?_, ?_, hd⟩
  · rw [hpieces, splitDefault_of_noMark (noMark_dropLast_occupied hmark), htail]
  · rw [htail, hparts]
    exact filters?_piped_occupied hline' hscanned hpipe

/-- The quotes around the default would close a double quote that a filter leaves open, and a question mark at
the end of the filters would be taken for a part of the mark. -/
theorem closed_of_written_again (h : Behind tail slot) (hline : '\n' ∉ tail) (hd : slot.default = some d)
    (hagain : Behind slot.tail slot) :
    slot.calls.getLast? ≠ some '?' ∧ leavesOpen '"' false (quotePieces slot.calls) = false := by
  have hline' : '\n' ∉ slot.tail := fun hm => hline (h.mem_of_mem_tail hline hm (by decide))
  obtain ⟨parts, rs, hcut, -, hparts, -, -, hmark⟩ := hagain.exists_pipes_of_default hline' hd
  have hscanned : Scanned false (piped parts ++ .plain '?' :: .plain '?' :: rs) := hcut ▸ scanned_quotePieces _
  -- the reader leaves out pipes at most, so that the mark which it finds is the one that was written
  obtain ⟨hcalls, hrest⟩ : texts (piped parts) = slot.calls ∧ '?' :: texts rs = '?' :: '"' :: (d ++ ['"']) := by
    refine append_cons_inj_of_count (c := '?') ?_ ?_
    · rw [calls_of_occupied hparts, count_piped_occupied (by decide)]
    · rw [← tail_of_default hd, ← texts_quotePieces slot.tail, hcut, texts_append, texts_plain, texts_plain]
  have hpieces : quotePieces slot.calls = piped parts := quotePieces_eq_iff.2 ⟨hscanned.of_append, hcalls⟩
  constructor
  · intro hlast
    rw [← hcalls] at hlast
    exact (noMark_concat.1 hmark).2 (hscanned.of_append.getLast?_texts rfl hlast)
  · rw [hpieces, Bool.eq_false_iff]
    intro hopen
    have hfront : '\n' ∉ texts (piped parts) := fun hm =>
      hline' (tail_of_default hd ▸ List.mem_append_left _ (hcalls ▸ hm))
    have hnone := ((scanned_append_mark (by decide) hfront).1 hscanned).2.2 '"' rfl hopen
    rw [texts_plain, hrest, runLength?_mark rfl (by decide), runLength?_quote rfl] at hnone
    cases hnone

theorem quotePieces_tail {rs : List (Piece Unit)} (hd : slot.default = some (stripQuotes (texts rs)))
    (hparts : slot.filters = (occupied parts).map texts)
    (hscanned : Scanned false (piped parts ++ .plain '?' :: .plain '?' :: rs))
    (hline : '\n' ∉ texts (piped parts) ∧ '\n' ∉ texts rs)
    (hclosed : leavesOpen '"' false (piped parts) = false) :
    quotePieces slot.tail = piped (occupied parts) ++ .plain '?' :: .plain '?' ::
      quotePieces ('"' :: (stripQuotes (texts rs) ++ ['"'])) := by
  obtain ⟨hfront, -, hopen⟩ := (scanned_append_mark (by decide) hline.1).1 hscanned
  rw [quotePieces_eq_iff, scanned_append_mark (by decide) (fun hm => hline.1 (mem_of_mem_occupied hm)),
    scanned_mark (by decide)]
  refine ⟨⟨scanned_piped_occupied hline.1 hfront, scanned_quotePieces _, fun quote hquote hleft => ?_⟩, ?_⟩
  · rw [leavesOpen_piped_occupied hquote] at hleft
    have hnone := hopen quote hquote hleft
    rw [texts_plain, runLength?_mark hquote (by decide), Option.map_eq_none_iff] at hnone ⊢
    rw [texts_quotePieces]
    -- the new quotes close double quotes only, and none was left open
    rcases isQuote_cases hquote with rfl | rfl
    · rw [hclosed] at hleft
      cases hleft
    · exact runLength?_requoted hnone hline.2
  · rw [tail_of_default hd, texts_append, texts_plain, texts_plain, texts_quotePieces, calls_of_occupied hparts]

theorem written_again_of_closed (h : Behind tail slot) (hline : '\n' ∉ tail) (hd : slot.default = some d)
    (hlast : slot.calls.getLast? ≠ some '?') (hclosed : leavesOpen '"' false (quotePieces slot.calls) = false) :
    Behind slot.tail slot := by
  obtain ⟨parts, rs, hcut, hpipe, hparts, rfl, -, hmark⟩ := h.exists_pipes_of_default hline hd
  have hcalls := calls_of_occupied hparts
  have hscanned : Scanned false (piped parts ++ .plain '?' :: .plain '?' :: rs) := hcut ▸ scanned_quotePieces _
  have hline' : '\n' ∉ texts (piped parts) ∧ '\n' ∉ texts rs := by
    rw [← texts_quotePieces tail, hcut] at hline
    simpa using hline
  have hpieces : quotePieces slot.calls = piped (occupied parts) :=
    quotePieces_eq_iff.2 ⟨scanned_piped_occupied hline'.1 hscanned.of_append, hcalls.symm⟩
  rw [hpieces, leavesOpen_piped_occupied rfl] at hclosed
  refine ⟨slot.calls, some ('"' :: (stripQuotes (texts rs) ++ ['"'])), ?_, ?_, ?_⟩
  · have hnext : NoMark (piped (occupied parts) ++ [.plain '?']) := by
      refine noMark_concat.2 ⟨noMark_piped.2 fun a ha => ?_, fun hend => hlast ?_⟩
      · exact noMark_piped.1 (noMark_concat.1 hmark).1 a (mem_occupied.1 ha).1
      · obtain ⟨front, hend⟩ := List.getLast?_eq_some_iff.1 hend
        rw [hcalls, hend]
        simp
    have hne : quotePieces ('"' :: (stripQuotes (texts rs) ++ ['"'])) ≠ [] := fun h0 => by
      have htexts := texts_quotePieces ('"' :: (stripQuotes (texts rs) ++ ['"']))
      rw [h0] at htexts
      exact List.cons_ne_nil _ _ htexts.symm
    rw [quotePieces_tail hd hparts hscanned hline' hclosed, splitDefault_of_mark hnext hne, texts_quotePieces, hcalls]
  · rw [hcalls, hparts]
    exact filters?_piped_occupied hline'.1 hscanned.of_append hpipe
  · have hinner : '\n' ∉ stripQuotes (texts rs) := fun hm => hline'.2 (mem_of_mem_stripQuotes hm)
    rw [hd, Option.map_some, stripQuotes_quoted rfl hinner]

end Behind

/-! ### The slot as a whole -/

theorem bare_braced_of_not_mem {body : Text} (hb : '}' ∉ body) :
    bare (braced body) = trimStart (· == '{') body := by
  have hopen : trimStart (· == '{') (braced body) = (body ++ closing).dropWhile (· == '{') := by
    rw [braced, List.append_assoc]; rfl
  have hstart : trimStart (· == '{') (braced body) = trimStart (· == '{') body ++ closing := by
    rw [hopen, List.dropWhile_append]
    split
    · next hempty => rw [trimStart, List.isEmpty_iff.1 hempty]; rfl
    · rfl
  rw [bare, hstart]
  refine trimEnd_run (by decide) fun c hc => ?_
  rw [beq_eq_false_iff_ne]
  rintro rfl
  exact hb ((List.dropWhile_suffix _).subset (List.mem_of_getLast? hc))

theorem head?_tail_cases (slot : Slot) : ∀ c, slot.tail.head? = some c → c = '|' ∨ c = '?' := by
  intro c hc
  cases hfilters : slot.filters with
  | cons f fs =>
    have : '|' = c := by simpa [tail, calls, hfilters] using hc
    exact .inl this.symm
  | nil =>
    cases hd : slot.default with
    | none => simp [tail, calls, hfilters, hd] at hc
    | some d =>
      have : '?' = c := by simpa [tail, calls, hfilters, hd] using hc
      exact .inr this.symm

theorem Reads.again_iff {body : Text} (h : Reads body tail slot) :
    (∃ t, Reads (slot.written ++ slot.tail) t slot) ↔ Behind slot.tail slot := by
  constructor
  · rintro ⟨t, hagain⟩
    rw [List.append_cancel_left hagain.body_eq]
    exact hagain.tail_eq
  · intro hbehind
    have hline : '\n' ∉ slot.written ∧ '\n' ∉ tail := by simpa [h.body_eq] using h.one_line
    refine ⟨slot.tail, rfl, h.path_ne_nil, h.path_chars, h.no_dot, fun c hc => ?_, fun hm => ?_, hbehind⟩
    · rcases slot.head?_tail_cases c hc with rfl | rfl <;> rfl
    · exact (List.mem_append.1 hm).elim hline.1 fun hm =>
        hline.2 (Behind.mem_of_mem_tail h.tail_eq hline.2 hm (by decide))

/-- What a slot is written as is read as the same slot exactly if it has no default, or if its filters neither end
in a question mark nor leave a double quote open. -/
theorem ofPlaceholder?_toPlaceholder_iff {s p : Text} {slot : Slot} (hp : p ∈ Placeholder.find s [])
    (hslot : ofPlaceholder? p = some slot) :
    ofPlaceholder? slot.toPlaceholder = some slot ↔ (slot.default.isSome →
      slot.calls.getLast? ≠ some '?' ∧ leavesOpen '"' false (quotePieces slot.calls) = false) := by
  obtain ⟨body, rfl, hb, -⟩ := IsPlaceholder.of_mem_find hp
  obtain ⟨tail, hreads⟩ := ofPlaceholder?_eq_some_iff.1 hslot
  have hbehind : Behind tail slot := hreads.tail_eq
  have hline : '\n' ∉ tail := fun hm => hreads.one_line (hreads.body_eq ▸ List.mem_append_right _ hm)
  have hclosing : '}' ∉ slot.written ++ slot.tail := by
    have hbare : '}' ∉ slot.written ++ tail := by
      rw [← hreads.body_eq, bare_braced_of_not_mem hb]
      exact fun hm => hb ((List.dropWhile_suffix _).subset hm)
    intro hm
    refine hbare ((List.mem_append.1 hm).elim (List.mem_append_left _) fun hm => List.mem_append_right _ ?_)
    exact hbehind.mem_of_mem_tail hline hm (by decide)
  have hfirst : (slot.written ++ slot.tail).head? ≠ some '{' := by
    obtain ⟨c, path, hpath⟩ := List.exists_cons_of_ne_nil hreads.path_ne_nil
    have hc : isPathChar c = true := hreads.path_chars c (hpath ▸ List.mem_cons_self)
    rw [hpath]
    exact fun h => ne_of_holds hc (by decide) (Option.some.inj h)
  rw [toPlaceholder_eq, ofPlaceholder?_braced_eq_some_iff hfirst fun h => hclosing (List.mem_of_getLast? h),
    hreads.again_iff]
  cases hd : slot.default with
  | none => exact iff_of_true (hbehind.written_again hline hd) (by simp)
  | some d =>
    exact ⟨fun hagain _ => hbehind.closed_of_written_again hline hd hagain,
      fun hclosed => (hclosed rfl).elim (hbehind.written_again_of_closed hline hd)⟩

/-- A text as it is loaded, with three placeholders that have a filter and a default. -/
def threeDefaults : Text :=
  braced "a||f(\"|\")??'x'".toList ++ braced "b|f\"??'x'".toList ++ braced "c|f?|??'x'".toList

/-- The slot of a key with one filter and the default `x`. -/
def filteredOnce (key filter : Text) : Slot := ⟨key, none, [filter], some "x".toList⟩

/-- The first slot is read again from what it is written as. In the second one the new quotes close the one
that the filter leaves open, in the third one the mark begins with the question mark of the filter. -/
theorem threeDefaults_written :
    normalize threeDefaults = .ok threeDefaults ∧
    ofPlaceholder? (filteredOnce "a".toList "f(\"|\")".toList).toPlaceholder =
      some (filteredOnce "a".toList "f(\"|\")".toList) ∧
    ofPlaceholder? (braced "b|f\"??'x'".toList) = some (filteredOnce "b".toList "f\"".toList) ∧
    ofPlaceholder? (filteredOnce "b".toList "f\"".toList).toPlaceholder ≠
      some (filteredOnce "b".toList "f\"".toList) ∧
    ofPlaceholder? (braced "c|f?|??'x'".toList) = some (filteredOnce "c".toList "f?".toList) ∧
    ofPlaceholder? (filteredOnce "c".toList "f?".toList).toPlaceholder ≠
      some (filteredOnce "c".toList "f?".toList) := by
  have hfirst : braced "a||f(\"|\")??'x'".toList ∈ find threeDefaults [] := by decide +kernel
  have hsecond : braced "b|f\"??'x'".toList ∈ find threeDefaults [] := by decide +kernel
  have hthird : braced "c|f?|??'x'".toList ∈ find threeDefaults [] := by decide +kernel
  have hread : ofPlaceholder? (braced "b|f\"??'x'".toList) = some (filteredOnce "b".toList "f\"".toList) := by
    decide +kernel
  have hread' : ofPlaceholder? (braced "c|f?|??'x'".toList) = some (filteredOnce "c".toList "f?".toList) := by
    decide +kernel
  refine ⟨by decide +kernel, ?_, hread, fun h => ?_, hread', fun h => ?_⟩
  · exact (ofPlaceholder?_toPlaceholder_iff hfirst (by decide +kernel)).2 (by decide +kernel)
  · obtain ⟨-, hclosed⟩ := (ofPlaceholder?_toPlaceholder_iff hsecond hread).1 h rfl
    exact absurd hclosed (by decide +kernel)
  · obtain ⟨hlast, -⟩ := (ofPlaceholder?_toPlaceholder_iff hthird hread').1 h rfl
    exact hlast (by decide +kernel)

end Slot
end Stencil
