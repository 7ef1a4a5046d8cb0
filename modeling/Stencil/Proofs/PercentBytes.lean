import Stencil.Proofs.Occurrence
import Stencil.Text.Percent

/-! # Percent encoding, byte by byte

Encoding works on the bytes of a text: each is written by itself, kept or as a percent sign and two digits
(`encode_eq`), and for a form the blank as a plus (`form_eq`). Reading takes the bytes off again in the same
order, so that nothing is lost (`decode?_raw`, `ofForm?_form`), and the separators of a query cannot stand in
what a form writes (`mem_form`). -/

namespace Stencil
open Text

namespace Text

theorem utf8EncodeChar_ascii {c : Char} (h : c.toNat < 128) : String.utf8EncodeChar c = [UInt8.ofNat c.toNat] := by
  have hle : c.val.toNat ≤ 0x7f := Nat.le_of_lt_succ h
  rw [String.utf8EncodeChar]
  exact if_pos hle

/-- No byte of a character beyond ASCII is a byte of ASCII. -/
theorem le_of_mem_utf8EncodeChar {c : Char} {b : UInt8} (hc : 128 ≤ c.toNat) (hb : b ∈ String.utf8EncodeChar c) :
    128 ≤ b.toNat := by
  have hval : 0x7f < c.val.toNat := hc
  have hbyte : ∀ n : Nat, 128 ≤ n → n < 256 → 128 ≤ (UInt8.ofNat n).toNat := fun n h h' => by
    rw [UInt8.toNat_ofNat']; omega
  simp only [String.utf8EncodeChar] at hb
  split at hb
  · omega
  split at hb
  case isTrue =>
    simp only [List.mem_cons, List.not_mem_nil, or_false] at hb
    rcases hb with rfl | rfl <;> exact hbyte _ (by omega) (by omega)
  split at hb
  case isTrue =>
    simp only [List.mem_cons, List.not_mem_nil, or_false] at hb
    rcases hb with rfl | rfl | rfl <;> exact hbyte _ (by omega) (by omega)
  simp only [List.mem_cons, List.not_mem_nil, or_false] at hb
  rcases hb with rfl | rfl | rfl | rfl <;> exact hbyte _ (by omega) (by omega)

theorem lt_of_isAlphanum {c : Char} (h : c.isAlphanum = true) : c.toNat < 128 := by
  have hranges := ranges_of_isAlphanum h
  omega

end Text

namespace Percent
variable {kept : Text} {b : UInt8} {c : Char}

/-- Whether encoding leaves a character as it is. -/
def keeps (kept : Text) (c : Char) : Bool := c.isAlphanum || kept.contains c

/-- What is written for one byte: its character, or a percent sign and two digits. -/
def written (kept : Text) (b : UInt8) : Text :=
  if keeps kept (Char.ofNat b.toNat) then [Char.ofNat b.toNat] else byte b

theorem toNat_ofNat_toNat (b : UInt8) : (Char.ofNat b.toNat).toNat = b.toNat := by
  have hvalid : b.toNat.isValidChar := .inl (Nat.lt_trans b.toNat_lt (by decide))
  rw [Char.ofNat, dif_pos hvalid]
  rfl

theorem lt_of_keeps (hkept : ∀ c ∈ kept, c.toNat < 128) (h : keeps kept c = true) : c.toNat < 128 := by
  rw [keeps, Bool.or_eq_true, List.contains_iff_mem] at h
  exact h.elim lt_of_isAlphanum (hkept c)

theorem written_ofNat (hc : c.toNat < 128) :
    written kept (UInt8.ofNat c.toNat) = if keeps kept c then [c] else byte (UInt8.ofNat c.toNat) := by
  have hback : Char.ofNat (UInt8.ofNat c.toNat).toNat = c := by
    rw [UInt8.toNat_ofNat', Nat.mod_eq_of_lt (by omega), Char.ofNat_toNat]
  rw [written, hback]

theorem written_of_le (hkept : ∀ c ∈ kept, c.toNat < 128) (hb : 128 ≤ b.toNat) : written kept b = byte b := by
  refine if_neg fun h => ?_
  have hlt := lt_of_keeps hkept h
  rw [toNat_ofNat_toNat] at hlt
  omega

theorem encode_eq (hkept : ∀ c ∈ kept, c.toNat < 128) (s : Text) :
    encode kept s = (utf8 s).flatMap (written kept) := by
  induction s with
  | nil => rfl
  | cons c s ih =>
    have hutf8 : utf8 (c :: s) = String.utf8EncodeChar c ++ utf8 s := rfl
    have hencode : encode kept (c :: s) =
      (if keeps kept c then [c] else (String.utf8EncodeChar c).flatMap byte) ++ encode kept s := rfl
    rw [hencode, hutf8, List.flatMap_append, ih]
    congr 1
    by_cases hc : c.toNat < 128
    · rw [utf8EncodeChar_ascii hc, List.flatMap_singleton, List.flatMap_singleton, written_ofNat hc]
    · have hkeeps : ¬ keeps kept c = true := fun h => hc (lt_of_keeps hkept h)
      rw [if_neg hkeeps, List.flatMap, List.flatMap]
      congr 1
      exact List.map_congr_left fun b hb => (written_of_le hkept (le_of_mem_utf8EncodeChar (by omega) hb)).symm

theorem digit_spec {d : Nat} (h : d < 16) : hexDigit? (Nat.digitChar d).toUpper = some d ∧
    (Nat.digitChar d).toUpper.isAlphanum = true :=
  digitOf_spec true h

theorem mem_byte (h : c ∈ byte b) : c = '%' ∨ c.isAlphanum = true := by
  have hb := b.toNat_lt
  simp only [byte, List.mem_cons, List.not_mem_nil, or_false] at h
  rcases h with rfl | rfl | rfl
  · exact .inl rfl
  · exact .inr (digit_spec (by omega)).2
  · exact .inr (digit_spec (by omega)).2

theorem mem_written (h : c ∈ written kept b) : c = '%' ∨ keeps kept c = true := by
  rw [written] at h
  split at h
  · rw [List.mem_singleton.1 h]
    exact .inr ‹_›
  · exact (mem_byte h).imp_right fun h => by rw [keeps, h, Bool.true_or]

theorem bytes?_cons (hc : c ≠ '%') (s : Text) : bytes? (c :: s) = (bytes? s).map (String.utf8EncodeChar c ++ ·) := by
  rw [bytes?, if_neg hc]
  rintro a b t rfl
  exact absurd rfl hc

theorem bytes?_byte (b : UInt8) (s : Text) : bytes? (byte b ++ s) = (bytes? s).map (b :: ·) := by
  have hb := b.toNat_lt
  have hvalue : (16 * (b.toNat / 16) + b.toNat % 16).toUInt8 = b := by
    rw [Nat.div_add_mod]
    exact UInt8.ofNat_toNat
  rw [byte, List.cons_append, List.cons_append, List.cons_append, List.nil_append, bytes?,
    (digit_spec (by omega : b.toNat / 16 < 16)).1, (digit_spec (by omega : b.toNat % 16 < 16)).1]
  simp only [Option.bind_eq_bind, Option.bind_some, hvalue]
  cases bytes? s <;> rfl

theorem bytes?_written (hkept : ∀ c ∈ kept, c.toNat < 128) (hpercent : '%' ∉ kept) (b : UInt8) (s : Text) :
    bytes? (written kept b ++ s) = (bytes? s).map (b :: ·) := by
  rw [written]
  split
  · next h =>
    have hlt := lt_of_keeps hkept h
    have hne : Char.ofNat b.toNat ≠ '%' := by
      intro heq
      rw [heq, keeps, Bool.or_eq_true, List.contains_iff_mem] at h
      exact h.elim (by decide) hpercent
    rw [List.singleton_append, bytes?_cons hne, utf8EncodeChar_ascii hlt, toNat_ofNat_toNat, UInt8.ofNat_toNat]
    rfl
  · exact bytes?_byte b s

theorem bytes?_flatMap (hkept : ∀ c ∈ kept, c.toNat < 128) (hpercent : '%' ∉ kept) (bs : List UInt8) :
    bytes? (bs.flatMap (written kept)) = some bs := by
  induction bs with
  | nil => rfl
  | cons b bs ih => rw [List.flatMap_cons, bytes?_written hkept hpercent, ih]; rfl

theorem decode?_flatMap (hkept : ∀ c ∈ kept, c.toNat < 128) (hpercent : '%' ∉ kept) (s : Text) :
    decode? ((utf8 s).flatMap (written kept)) = some s := by
  rw [decode?, bytes?_flatMap hkept hpercent, Option.bind_some, ofUtf8?_utf8]

theorem decode?_raw (s : Text) : decode? (raw s) = some s := by
  rw [raw, encode_eq (by decide)]
  exact decode?_flatMap (by decide) (by decide) s

theorem mem_raw {s : Text} (h : c ∈ raw s) : c.isAlphanum = true ∨ c ∈ ['-', '_', '.', '~', '%'] := by
  rw [raw, encode_eq (by decide)] at h
  obtain ⟨b, -, hb⟩ := List.mem_flatMap.1 h
  rcases mem_written hb with rfl | hkeeps
  · exact .inr (by decide)
  · rw [keeps, Bool.or_eq_true, List.contains_iff_mem] at hkeeps
    exact hkeeps.imp_right fun hm => List.mem_append_left ['%'] hm

/-- The characters that a form keeps, apart from letters and digits. -/
def formKept : Text := ['-', '_', '.']

/-- What a form has for one byte. -/
def formByte (b : UInt8) : Text := if b = 32 then ['+'] else written formKept b

/-- The blank is written as `%20`, and no other byte has a percent sign before these digits. -/
theorem replace_written (b : UInt8) (s : Text) :
    replace "%20".toList ['+'] (written formKept b ++ s) = formByte b ++ replace "%20".toList ['+'] s := by
  have hplain : ∀ {c : Char} (t : Text), c ≠ '%' →
      replace "%20".toList ['+'] (c :: t) = c :: replace "%20".toList ['+'] t := fun t hc =>
    replace_cons_of_ne fun r h => hc (List.cons.inj h).1
  by_cases hblank : b = 32
  · subst hblank
    exact replace_append_self (p := "%20".toList) (by decide) s
  rw [formByte, if_neg hblank, written]
  split
  · next h =>
    refine hplain s fun heq => ?_
    rw [heq] at h
    exact absurd h (by decide)
  · have hb := b.toNat_lt
    obtain ⟨hhigh, hhigh'⟩ := digit_spec (by omega : b.toNat / 16 < 16)
    obtain ⟨hlow, hlow'⟩ := digit_spec (by omega : b.toNat % 16 < 16)
    have hne : ∀ {c : Char}, c.isAlphanum = true → c ≠ '%' := by
      rintro c hc rfl
      exact absurd hc (by decide)
    rw [byte, List.cons_append, List.cons_append, List.cons_append, List.nil_append, replace_cons_of_ne,
      hplain _ (hne hhigh'), hplain _ (hne hlow')]
    · rfl
    · -- `%20` would be the blank
      intro r h
      obtain ⟨-, hrest⟩ := List.cons.inj h
      obtain ⟨htwo, hrest⟩ := List.cons.inj hrest
      obtain ⟨hzero, -⟩ := List.cons.inj hrest
      rw [htwo] at hhigh
      rw [hzero] at hlow
      have htwo : b.toNat / 16 = 2 := (Option.some.inj hhigh).symm
      have hzero : b.toNat % 16 = 0 := (Option.some.inj hlow).symm
      exact hblank (UInt8.toNat_inj.1 (by show b.toNat = 32; omega))

theorem form_eq (s : Text) : form s = (utf8 s).flatMap formByte := by
  rw [form, encode_eq (by decide)]
  show replace "%20".toList ['+'] ((utf8 s).flatMap (written formKept)) = _
  induction utf8 s with
  | nil => rfl
  | cons b bs ih => rw [List.flatMap_cons, replace_written, ih, List.flatMap_cons]

theorem form_append (s t : Text) : form (s ++ t) = form s ++ form t := by
  simp only [form_eq, utf8_append, List.flatMap_append]

theorem mem_form {s : Text} (h : c ∈ form s) : c = '%' ∨ c = '+' ∨ keeps formKept c = true := by
  rw [form_eq] at h
  obtain ⟨b, -, hb⟩ := List.mem_flatMap.1 h
  rw [formByte] at hb
  split at hb
  · exact .inr (.inl (List.mem_singleton.1 hb))
  · exact (mem_written hb).imp_right .inr

/-- With its pluses read as blanks, a form is the text encoded with the blank kept. -/
theorem map_form (s : Text) : (form s).map (fun c => if c = '+' then ' ' else c) =
    (utf8 s).flatMap (written (' ' :: formKept)) := by
  have hbyte : ∀ b : UInt8, (formByte b).map (fun c => if c = '+' then ' ' else c) = written (' ' :: formKept) b := by
    intro b
    rw [formByte]
    by_cases hblank : b = 32
    · subst hblank
      decide
    have hkeeps : keeps (' ' :: formKept) (Char.ofNat b.toNat) = keeps formKept (Char.ofNat b.toNat) := by
      have hne : Char.ofNat b.toNat ≠ ' ' := fun heq => by
        have hnat := toNat_ofNat_toNat b
        rw [heq] at hnat
        exact hblank (UInt8.toNat_inj.1 hnat.symm)
      simp [keeps, hne]
    have hplus : ∀ c ∈ written formKept b, (if c = '+' then ' ' else c) = c := by
      refine fun c hc => if_neg fun heq => ?_
      subst heq
      exact absurd (mem_written hc) (by decide)
    rw [if_neg hblank, List.map_congr_left hplus, List.map_id', written, written, hkeeps]
  rw [form_eq, List.map_flatMap]
  simp only [hbyte]

theorem ofForm?_form (s : Text) : ofForm? (form s) = some s := by
  rw [ofForm?, map_form]
  exact decode?_flatMap (by decide) (by decide) s

end Percent
end Stencil
