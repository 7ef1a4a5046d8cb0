import Stencil.Proofs.Escaping

/-! # Rows and their slots

A row reads in one way as characters and slots, a slot wherever one stands that no earlier one reaches into
(`Reads`). Filling a row puts the texts into the slots and looks at neither of them (`Reads.fill_eq`), so
that `#key#` in the data stays as it is. For a whole collection: one line for every entry, and no more markup
than the row has (`Builtin.each_rows`). -/

namespace Stencil
open Text

namespace Row

def Slot.text : Slot → Text
  | .key => "#key#".toList
  | .value => "#val#".toList

theorem Slot.length_text (a : Slot) : a.text.length = 5 := by cases a <;> rfl

/-- What a row consists of. -/
inductive Part where
  | literal (c : Char)
  | slot (slot : Slot)

/-- The parts of a row, read from left to right: a slot where one stands, and else a character. -/
inductive Reads : Text → List Part → Prop
  | nil : Reads [] []
  | literal {c s parts} (hc : ∀ (slot : Slot) rest, c :: s ≠ slot.text ++ rest) (h : Reads s parts) :
    Reads (c :: s) (.literal c :: parts)
  | slot {s parts} (slot : Slot) (h : Reads s parts) : Reads (slot.text ++ s) (.slot slot :: parts)

/-- What stands in a row for a part of it. -/
def Part.text (key value : Text) : Part → Text
  | literal c => [c]
  | slot .key => key
  | slot .value => value

def filled (parts : List Part) (key value : Text) : Text := parts.flatMap (Part.text key value)

variable {row : Text} {parts : List Part}

theorem slot_eq_some_iff {s : Text} {a : Slot} {n : Nat} :
    Row.slot s = some (a, n) ↔ n = 5 ∧ ∃ rest, s = a.text ++ rest := by
  -- no text begins with both slots
  have hne : ∀ r₁ r₂, Slot.key.text ++ r₁ ≠ Slot.value.text ++ r₂ := fun r₁ r₂ h =>
    absurd (List.cons.inj (List.cons.inj h).2).1 (by decide)
  have hkey : startsWith "#key#".toList s = true ↔ ∃ r, s = Slot.key.text ++ r := startsWith_iff
  have hvalue : startsWith "#val#".toList s = true ↔ ∃ r, s = Slot.value.text ++ r := startsWith_iff
  unfold Row.slot
  split
  · next h =>
    obtain ⟨r, rfl⟩ := hkey.1 h
    cases a with
    | key => simp [eq_comm]
    | value => simp [hne]
  split
  · next h =>
    obtain ⟨r, rfl⟩ := hvalue.1 h
    cases a with
    | key => simp [(hne _ _).symm]
    | value => simp [eq_comm]
  · next hk hv =>
    cases a with
    | key => simpa [hkey] using fun _ r hr => hk (hkey.2 ⟨r, hr⟩)
    | value => simpa [hvalue] using fun _ r hr => hv (hvalue.2 ⟨r, hr⟩)

theorem pieces_slot (a : Slot) (s : Text) : pieces (a.text ++ s) = .hit a a.text :: pieces s := by
  refine cut_hit ?_ (by cases a <;> decide)
  rw [slot_eq_some_iff.2 ⟨rfl, s, rfl⟩, a.length_text]

theorem pieces_literal {c : Char} {s : Text} (h : ∀ (a : Slot) rest, c :: s ≠ a.text ++ rest) :
    pieces (c :: s) = .plain c :: pieces s :=
  cut_of_no_match fun a _ hmatch =>
    have ⟨_, rest, hrest⟩ := slot_eq_some_iff.1 hmatch
    h a rest hrest

def Part.ofPiece : Piece Slot → Part
  | .plain c => .literal c
  | .hit a _ => .slot a

theorem Reads.eq_pieces (h : Reads row parts) : parts = (pieces row).map Part.ofPiece := by
  induction h with
  | nil => rfl
  | literal hc _ ih => rw [pieces_literal hc, ih]; rfl
  | slot a _ ih => rw [pieces_slot, ih]; rfl

theorem exists_reads (row : Text) : ∃ parts, Reads row parts := by
  induction hn : row.length using Nat.strong_induction_on generalizing row with
  | _ n ih =>
    subst hn
    by_cases hslot : ∃ (a : Slot) (rest : Text), row = a.text ++ rest
    · obtain ⟨a, rest, rfl⟩ := hslot
      obtain ⟨parts, hparts⟩ := ih rest.length (by simp [a.length_text]) rest rfl
      exact ⟨_, .slot a hparts⟩
    · cases row with
      | nil => exact ⟨[], .nil⟩
      | cons c s =>
        obtain ⟨parts, hparts⟩ := ih s.length (by simp) s rfl
        exact ⟨_, .literal (fun a rest h => hslot ⟨a, rest, h⟩) hparts⟩

theorem Reads.fill_eq (h : Reads row parts) (key value : Text) : fill row key value = filled parts key value := by
  rw [h.eq_pieces, fill, Piece.fill, filled, List.flatMap_map]
  congr 1
  funext p
  rcases p with c | ⟨_ | _, t⟩ <;> rfl

theorem Reads.count_filled (h : Reads row parts) {c : Char} (hc : c ∈ Html.markup) {key value : Text}
    (hkey : key.count c = 0) (hvalue : value.count c = 0) : (filled parts key value).count c = row.count c := by
  have hslot : ∀ a : Slot, a.text.count c = 0 := by
    rcases Html.mem_markup.1 hc with rfl | rfl | rfl | rfl <;> rintro (_ | _) <;> decide
  induction h with
  | nil => rfl
  | @literal d s parts _ _ ih =>
    have hcons : filled (.literal d :: parts) key value = d :: filled parts key value := rfl
    rw [hcons, List.count_cons, List.count_cons, ih]
  | @slot s parts a _ ih =>
    have hcons : filled (.slot a :: parts) key value = (Part.slot a).text key value ++ filled parts key value := rfl
    have hpart : ((Part.slot a).text key value).count c = 0 := by cases a <;> assumption
    rw [hcons, List.count_append, List.count_append, hpart, hslot, ih]

end Row

theorem count_join {c sep : Char} (hc : c ≠ sep) {k : Nat} {lines : List Text}
    (h : ∀ line ∈ lines, line.count c = k) : (join [sep] lines).count c = lines.length * k := by
  induction lines with
  | nil => rw [List.length_nil, Nat.zero_mul]; rfl
  | cons line lines ih =>
    obtain ⟨hline, hlines⟩ := List.forall_mem_cons.1 h
    have hsep : [sep].count c = 0 := List.count_eq_zero.2 fun hm => hc (List.mem_singleton.1 hm)
    cases lines with
    | nil => rw [join, List.intercalate_singleton, hline, List.length_singleton, Nat.one_mul]
    | cons next lines =>
      rw [join, List.intercalate_cons_cons, ← join, List.count_append, List.count_append, hline, hsep, ih hlines,
        Nat.add_zero]
      exact (Nat.add_comm _ _).trans (Nat.succ_mul _ _).symm

theorem count_trimEnd {p : Char → Bool} {c : Char} (hc : p c = false) (s : Text) :
    (trimEnd p s).count c = s.count c := by
  have hdrop : ∀ u : Text, (u.dropWhile p).count c = u.count c := fun u => by
    conv_rhs => rw [← List.takeWhile_append_dropWhile (p := p) (l := u), List.count_append]
    have htake : (u.takeWhile p).count c = 0 :=
      List.count_eq_zero.2 fun hm => Bool.false_ne_true (hc.symm.trans (List.mem_takeWhile_imp hm))
    rw [htake, Nat.zero_add]
  rw [trimEnd, List.count_reverse, hdrop, List.count_reverse]

namespace Builtin
variable {τ : Type}

/-- The text of a collection's rows: the parts are those of the row alone, whatever the data hold. -/
theorem rows_eq {row : Text} {parts : List Row.Part} (h : Row.Reads row parts) (shown : τ → Text) (entries : Dict τ) :
    rows shown row entries = trimEnd isBlank (join ['\n'] (entries.map fun (k, v) =>
      Row.filled parts (Html.escape k) (Html.escape (v.text shown)))) := by
  simp only [rows, h.fill_eq]

theorem count_rows {c : Char} (hc : c ∈ Html.markup) (shown : τ → Text) (row : Text) (entries : Dict τ) :
    (rows shown row entries).count c = entries.length * row.count c := by
  obtain ⟨parts, hparts⟩ := Row.exists_reads row
  have hplain : isBlank c = false ∧ c ≠ '\n' := by
    rcases Html.mem_markup.1 hc with rfl | rfl | rfl | rfl <;> decide
  have hline : ∀ line ∈ entries.map (fun (k, v) =>
      Row.filled parts (Html.escape k) (Html.escape (v.text shown))), line.count c = row.count c := by
    intro line hline
    obtain ⟨⟨k, v⟩, -, rfl⟩ := List.mem_map.1 hline
    exact hparts.count_filled hc (Html.count_escape hc k) (Html.count_escape hc _)
  rw [rows_eq hparts, count_trimEnd hplain.1, count_join hplain.2 hline, List.length_map]

/-- A row has one reading, and filling it puts the texts into its slots. So a collection becomes one line for
every entry in order, key and value escaped, and its markup is that of the row, once for every entry. -/
theorem each_rows (observer : Calendar.Observer) (shown : τ → Text) (row : Text) :
    ∃ parts, Row.Reads row parts ∧ (∀ others, Row.Reads row others → others = parts) ∧
      (∀ key value, Row.fill row key value = Row.filled parts key value) ∧
      ∀ (v : Value τ) (entries : Dict τ), v.entries? = some entries →
        ∃ out, apply observer shown each v (some row) = .ok (.str out) ∧
          out = trimEnd isBlank (join ['\n'] (entries.map fun (k, item) =>
            Row.filled parts (Html.escape k) (Html.escape (item.text shown)))) ∧
          ∀ c ∈ Html.markup, out.count c = entries.length * row.count c := by
  obtain ⟨parts, hparts⟩ := Row.exists_reads row
  refine ⟨parts, hparts, fun others h => h.eq_pieces.trans hparts.eq_pieces.symm, hparts.fill_eq,
    fun v entries hentries => ⟨rows shown row entries, ?_, rows_eq hparts shown entries, fun c hc =>
      count_rows hc shown row entries⟩⟩
  rw [apply, hentries]

/-- Slots in the data stay, and a row may hold a lone `#` in front of a slot, or most of a slot. -/
theorem each_rows_with_slots_in_data :
    let v : Value Empty := .dict [("#val#".toList, .str "<#key#>".toList), ("b".toList, .int 2)]
    let row : Text := "<##key#val#: #val#".toList
    let entries : Dict Empty := [("#val#".toList, .str "<#key#>".toList), ("b".toList, .int 2)]
    v.entries? = some entries ∧
      ∃ out, apply Host.bare.observer Empty.elim each v (some row) = .ok (.str out) ∧
        out = "<##val#val#: &lt;#key#&gt;\n<#bval#: 2".toList ∧ out.count '<' = entries.length * row.count '<' := by
  intro v row entries
  have hentries : v.entries? = some entries := rfl
  obtain ⟨_, -, -, -, hrows⟩ := each_rows Host.bare.observer Empty.elim row
  obtain ⟨out, hout, -, hcount⟩ := hrows v entries hentries
  have hvalue : apply Host.bare.observer Empty.elim each v (some row) =
      .ok (.str "<##val#val#: &lt;#key#&gt;\n<#bval#: 2".toList) := rfl
  refine ⟨hentries, out, hout, ?_, hcount '<' (by decide)⟩
  exact Value.str.inj (Except.ok.inj (hout.symm.trans hvalue))

end Builtin
end Stencil
