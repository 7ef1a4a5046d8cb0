import Stencil.Calendar.Write

/-! # Formats in a row

A format shows what its parts show in a row, unless a part ends on a backslash that waits for a character: it takes
the first one of the next part (`fillFormat_append_cons`). Whether one waits changes with every backslash
(`isPending_concat`), so that an odd number of them at the end leaves one waiting. In a text with a backslash before
every character none is left over, and such a text shows itself wherever it stands (`formats_compose`). -/

namespace Stencil.Calendar
open Text

variable {f : Text}

theorem isPending_concat (f : Text) (c : Char) : isPending (f ++ [c]) = (c == '\\' && !isPending f) := by
  induction f using format_induction with
  | nil =>
    by_cases hc : c = '\\'
    · subst hc
      rfl
    · rw [List.nil_append, isPending_cons hc, beq_false_of_ne hc]
      rfl
  | pending => exact (Bool.and_false _).symm
  | taken d f ih => exact ih
  | plain d f hd ih => rw [List.cons_append, isPending_cons hd, isPending_cons hd, ih]

theorem exists_of_isPending (h : isPending f = true) : ∃ u, f = u ++ ['\\'] ∧ isPending u = false := by
  obtain rfl | ⟨u, c, rfl⟩ := f.eq_nil_or_concat
  · cases h
  · rw [List.concat_eq_append] at h ⊢
    rw [isPending_concat, Bool.and_eq_true, beq_iff_eq, Bool.not_eq_true'] at h
    obtain ⟨rfl, hu⟩ := h
    exact ⟨u, rfl, hu⟩

/-- Of the backslashes at the end, every second one is taken by the one in front of it. -/
theorem isPending_append_backslashes {u : Text} (hu : u.getLast? ≠ some '\\') (k : Nat) :
    isPending (u ++ List.replicate k '\\') = true ↔ k % 2 = 1 := by
  have hstart : isPending u = false := Bool.eq_false_iff.2 fun hpending => by
    obtain ⟨v, rfl, -⟩ := exists_of_isPending hpending
    exact hu List.getLast?_concat
  induction k with
  | zero => simp [hstart]
  | succ k ih =>
    rw [List.replicate_succ', ← List.append_assoc, isPending_concat, beq_self_eq_true, Bool.true_and,
      Bool.not_eq_true', ← Bool.not_eq_true]
    refine (not_congr ih).trans ?_
    omega

theorem isPending_escaped (s : Text) : isPending (escaped s) = false := by
  induction s with
  | nil => rfl
  | cons c s ih => exact ih

theorem fillFormat_append_cons (token : Char → Text) (h : isPending f = true) (c : Char) (g : Text) :
    fillFormat token (f ++ c :: g) = fillFormat token f ++ c :: fillFormat token g := by
  obtain ⟨u, rfl, hu⟩ := exists_of_isPending h
  rw [List.append_assoc, fillFormat_append token hu, fillFormat_append token hu]
  exact congrArg (· ++ c :: fillFormat token g) (List.append_nil _).symm

theorem fillFormat_append_escaped (token : Char → Text) (h : isPending f = false) (s g : Text) :
    fillFormat token (f ++ escaped s ++ g) = fillFormat token f ++ s ++ fillFormat token g := by
  rw [List.append_assoc, fillFormat_append token h, fillFormat_append token (isPending_escaped s), fillFormat_escaped,
    List.append_assoc]

/-- At any moment, and whatever the zone tells of it, two formats in a row show what each of them shows, unless the
first ends on a backslash that waits; that one takes a character of the second. A text with a backslash before every
character shows itself, alone and between two formats. A backslash waits where an odd number of them ends a format. -/
theorem formats_compose (m : Moment) (known : Option (Zone × Regime)) :
    (∀ f g, isPending f = false → write m (f ++ g) known = write m f known ++ write m g known) ∧
    (∀ f c g, isPending f = true → write m (f ++ c :: g) known = write m f known ++ c :: write m g known) ∧
    (∀ s, write m (escaped s) known = s) ∧
    (∀ f s g, isPending f = false →
      write m (f ++ escaped s ++ g) known = write m f known ++ s ++ write m g known) ∧
    ∀ u k, u.getLast? ≠ some '\\' → (isPending (u ++ List.replicate k '\\') = true ↔ k % 2 = 1) :=
  ⟨fun _ g h => fillFormat_append _ h g, fun _ c g h => fillFormat_append_cons _ h c g, fillFormat_escaped _,
    fun _ s g h => fillFormat_append_escaped _ h s g, fun _ k h => isPending_append_backslashes h k⟩

/-- Seen from Berlin: a doubled backslash is over, a third one waits, and letters of the data stay. -/
theorem formats_compose_in_berlin :
    let o : Observer := ⟨some Zone.berlin, 0⟩
    let m : Moment := ⟨1709644029, 0, 3600⟩
    let data : Text := "Y\\e".toList
    isPending "T\\\\".toList = false ∧ isPending "T\\\\\\".toList = true ∧
      o.write m ("T\\\\".toList ++ "e Y".toList) = "CET\\Europe/Berlin 2024".toList ∧
      o.write m ("T\\\\\\".toList ++ "e Y".toList) = "CET\\e 2024".toList ∧
      o.write m ("T\\\\".toList ++ escaped data ++ "e Y".toList) = "CET\\Y\\eEurope/Berlin 2024".toList := by
  intro o m data
  obtain ⟨hcompose, htaken, -, hescaped, hwaits⟩ := formats_compose m (o.regime? m)
  have hdouble : isPending "T\\\\".toList = false :=
    Bool.eq_false_iff.2 fun h => absurd ((hwaits "T".toList 2 (by decide)).1 h) (by decide)
  have htriple : isPending "T\\\\\\".toList = true := (hwaits "T".toList 3 (by decide)).2 (by decide)
  have hfirst : o.write m "T\\\\".toList = "CET\\".toList := by decide +kernel
  have hsecond : o.write m "e Y".toList = "Europe/Berlin 2024".toList := by decide +kernel
  refine ⟨hdouble, htriple, ?_, ?_, ?_⟩
  · refine (hcompose _ _ hdouble).trans ?_
    show o.write m _ ++ o.write m _ = _
    rw [hfirst, hsecond]
    rfl
  · refine (htaken _ 'e' " Y".toList htriple).trans ?_
    decide +kernel
  · refine (hescaped _ data _ hdouble).trans ?_
    show o.write m _ ++ data ++ o.write m _ = _
    rw [hfirst, hsecond]
    rfl

end Stencil.Calendar
