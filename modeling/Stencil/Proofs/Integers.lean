import Stencil.Proofs.Formatting

/-! # Integers in formats

A conversion writes an integer as a sign and digits, and fills its field with blanks at one side or with zeros
between the two (`exists_zeros`). Zeros in front change no number, so that the text reads back once the blanks
are taken off: `d` as the integer, the others as the word of its 64 bits (`integers_kept`). -/

namespace Stencil.Sprintf
open Text Decimal Conversion
variable {τ : Type} {c : Conversion} {specifier : Specifier} {base : Nat} {upper : Bool}

/-- One more digit behind a number. -/
def pushDigit? (base n : Nat) (c : Char) : Option Nat :=
  (hexDigit? c).bind fun d => if d < base then some (base * n + d) else none

/-- The number that digits stand for; there is at least one, in either case. -/
def numeral? (base : Nat) (s : Text) : Option Nat := if s = [] then none else s.foldlM (pushDigit? base) 0

/-- The digits of a number in upper case or not. -/
def digitsOf (base : Nat) (upper : Bool) (n : Nat) : Text :=
  (Nat.toDigits base n).map fun c => if upper then c.toUpper else c

theorem digitsOf_ne_nil (base : Nat) (upper : Bool) (n : Nat) : digitsOf base upper n ≠ [] := fun h =>
  Nat.toDigits_ne_nil (List.map_eq_nil_iff.1 h)

theorem toDigits_eq_digitsOf (base n : Nat) : Nat.toDigits base n = digitsOf base false n := (List.map_id' _).symm

/-- What holds of one digit, and still of a number with one more digit behind it, holds of all digits. -/
theorem digitsOf_induction {p : Nat → Text → Prop} (hbase : 1 < base) (single : ∀ d < base, p d [digitOf upper d])
    (more : ∀ n s d, p n s → d < base → p (base * n + d) (s ++ [digitOf upper d])) (n : Nat) :
    p n (digitsOf base upper n) := by
  induction n using Nat.strongRecOn with
  | ind n ih =>
    rw [digitsOf]
    by_cases hn : n < base
    · rw [Nat.toDigits_of_lt_base hn]
      exact single n hn
    · have hlt : n / base < n := Nat.div_lt_self (by omega) hbase
      rw [Nat.toDigits_of_base_le hbase (Nat.le_of_not_lt hn), List.map_append]
      have hmore := more (n / base) _ (n % base) (ih (n / base) hlt) (Nat.mod_lt n (by omega))
      rwa [Nat.div_add_mod] at hmore

theorem pushDigit?_digitOf (upper : Bool) (hle : base ≤ 16) (n : Nat) {d : Nat} (hd : d < base) :
    pushDigit? base n (digitOf upper d) = some (base * n + d) := by
  rw [pushDigit?, (digitOf_spec upper (Nat.lt_of_lt_of_le hd hle)).1, Option.bind_some, if_pos hd]

theorem foldlM_digitsOf (hbase : 1 < base) (hle : base ≤ 16) (n : Nat) :
    (digitsOf base upper n).foldlM (pushDigit? base) 0 = some n := by
  refine digitsOf_induction (p := fun n s => s.foldlM (pushDigit? base) 0 = some n) hbase ?_ ?_ n
  · intro d hd
    rw [List.foldlM_cons, pushDigit?_digitOf upper hle 0 hd, Nat.mul_zero, Nat.zero_add]
    rfl
  · intro n s d hs hd
    rw [List.foldlM_append, hs]
    show List.foldlM (pushDigit? base) n [digitOf upper d] = some (base * n + d)
    rw [List.foldlM_cons, pushDigit?_digitOf upper hle n hd]
    rfl

theorem isAlphanum_of_mem_digitsOf (hbase : 1 < base) (hle : base ≤ 16) {n : Nat} :
    ∀ ch ∈ digitsOf base upper n, ch.isAlphanum = true := by
  have hdigit : ∀ d < base, (digitOf upper d).isAlphanum = true := fun d hd =>
    (digitOf_spec upper (Nat.lt_of_lt_of_le hd hle)).2
  refine digitsOf_induction (p := fun _ s => ∀ ch ∈ s, ch.isAlphanum = true) hbase ?_ ?_ n
  · exact fun d hd => List.forall_mem_singleton.2 (hdigit d hd)
  · exact fun n s d hs hd => List.forall_mem_append.2 ⟨hs, List.forall_mem_singleton.2 (hdigit d hd)⟩

theorem numeral?_zeros_append (hbase : 1 < base) (hle : base ≤ 16) (k n : Nat) :
    numeral? base (List.replicate k '0' ++ digitsOf base upper n) = some n := by
  have hne : List.replicate k '0' ++ digitsOf base upper n ≠ [] :=
    List.append_ne_nil_of_right_ne_nil _ (digitsOf_ne_nil base upper n)
  have hzeros : (List.replicate k '0').foldlM (pushDigit? base) 0 = some 0 := by
    induction k with
    | zero => rfl
    | succ k ih =>
      have hzero : pushDigit? base 0 '0' = some 0 := pushDigit?_digitOf false hle 0 (by omega : 0 < base)
      rw [List.replicate_succ, List.foldlM_cons, hzero]
      exact ih (List.append_ne_nil_of_right_ne_nil _ (digitsOf_ne_nil base upper n))
  rw [numeral?, if_neg hne, List.foldlM_append, hzeros]
  exact foldlM_digitsOf hbase hle n

theorem digits?_zeros_append (k n : Nat) : digits? (List.replicate k '0' ++ natural n) = some n := by
  have hdigits : ∀ ch ∈ List.replicate k '0' ++ natural n, ch.isDigit = true := fun ch hch =>
    (List.mem_append.1 hch).elim (fun h => List.eq_of_mem_replicate h ▸ rfl)
      (Nat.isDigit_of_mem_toDigits (by decide) (by decide))
  have hvalue : valueOf (List.replicate k '0' ++ natural n) = n := by
    rw [valueOf, Nat.ofDigitChars_append, Nat.ofDigitChars_replicate_zero, Nat.mul_zero]
    exact valueOf_toDigits n
  have hne : List.replicate k '0' ++ natural n ≠ [] := List.append_ne_nil_of_right_ne_nil _ Nat.toDigits_ne_nil
  rw [digits?, if_pos ⟨hne, List.all_eq_true.2 hdigits⟩, hvalue]

namespace Conversion

/-- What stands in front of the digits of an integer. -/
def signOf (c : Conversion) (n : Int) : Text := if n < 0 then ['-'] else if c.plus then ['+'] else []

theorem addPlus_integer (c : Conversion) (n : Int) : c.addPlus (integer n) = c.signOf n ++ natural n.natAbs := by
  rw [addPlus, integer, signOf]
  by_cases hn : n < 0
  · simp [hn]
  · have hhead : (natural n.natAbs).head? ≠ some '-' := fun h =>
      absurd (Nat.isDigit_of_mem_toDigits (by decide) (by decide) (List.mem_of_head? h)) (by decide)
    cases hplus : c.plus <;> simp [hn, hhead]

/-- A text that reads as the size of an integer reads with its sign as the integer. -/
theorem reads_signOf {n : Int} {t : Text} (ht : digits? t = some n.natAbs) :
    integer? (c.signOf n ++ t) = some n ∧
      ((c.signOf n ++ t).head? = some '+' ↔ c.plus = true ∧ 0 ≤ n) := by
  have hdigit : ∀ ch, t.head? = some ch → ch.isDigit = true := by
    intro ch hch
    rw [digits?, Option.ite_none_right_eq_some] at ht
    exact List.all_eq_true.1 ht.1.2 ch (List.mem_of_head? hch)
  have hsplit : splitSign t = (false, t) := by
    unfold splitSign
    split
    · exact absurd (hdigit _ rfl) (by decide)
    · exact absurd (hdigit _ rfl) (by decide)
    · rfl
  have hhead : t.head? ≠ some '+' := fun h => absurd (hdigit _ h) (by decide)
  rw [signOf]
  by_cases hn : n < 0
  · have habs : -(n.natAbs : Int) = n := by omega
    rw [if_pos hn]
    refine ⟨?_, by simp [hn]⟩
    simp only [integer?, List.singleton_append, splitSign, ht]
    exact congrArg some habs
  · have habs : (n.natAbs : Int) = n := by omega
    rw [if_neg hn]
    cases c.plus
    · refine ⟨?_, by simpa using hhead⟩
      simp only [integer?, Bool.false_eq_true, if_false, List.nil_append, hsplit, ht]
      exact congrArg some habs
    · refine ⟨?_, by simp; omega⟩
      simp only [integer?, if_true, List.singleton_append, splitSign, ht]
      exact congrArg some habs

theorem length_padTo (c : Conversion) (specifier : Specifier) (s : Text) :
    (c.padTo specifier s).length = max c.width s.length := by
  rw [padTo]
  split
  · rw [List.length_append, List.length_replicate]
    omega
  split
  · simp only [List.length_append, List.length_replicate, List.length_take, List.length_drop]
    omega
  · rw [List.length_append, List.length_replicate]
    omega

theorem padTo_zero (c : Conversion) (specifier : Specifier) (s : Text) :
    { c with width := 0 }.padTo specifier s = s := by
  simp only [padTo, Nat.zero_sub, List.replicate_zero, List.append_nil, List.nil_append, List.take_append_drop,
    ite_self]

/-- The field is filled with blanks at one side, or with zeros in front. -/
def FillsPlainly (c : Conversion) : Prop := c.pad = ' ' ∨ c.left = false ∧ c.pad = '0'

end Conversion

theorem trimBoth_blanks {s : Text} (hs : s ≠ []) (hblank : ' ' ∉ s) (j k : Nat) :
    trimBoth (· == ' ') (List.replicate j ' ' ++ s ++ List.replicate k ' ') = s := by
  have hblanks : ∀ i, ∀ c ∈ List.replicate i ' ', (c == ' ') = true := fun i c hc =>
    beq_iff_eq.2 (List.eq_of_mem_replicate hc)
  have hplain : ∀ c ∈ s, (c == ' ') = false := fun c hc => beq_eq_false_iff_ne.2 fun h => hblank (h ▸ hc)
  rw [trimBoth, List.append_assoc, trimStart_run (hblanks j), trimEnd_run (hblanks k)]
  · exact fun c hc => hplain c (List.mem_of_getLast? hc)
  · intro c hc
    rw [List.head?_append, List.head?_eq_some_head hs, Option.some_or, Option.some_inj] at hc
    exact hplain c (hc ▸ List.head_mem hs)

/-- What can stand in front of the digits: one character, and only where zeros go behind it. -/
def IsSign (specifier : Specifier) (sign : Text) : Prop :=
  sign = [] ∨ specifier.isNumeric = true ∧ (sign = ['-'] ∨ sign = ['+'])

theorem exists_padTo_blanks (specifier : Specifier) (hpad : c.pad = ' ') (s : Text) :
    ∃ j k, c.padTo specifier s = List.replicate j ' ' ++ s ++ List.replicate k ' ' := by
  have hzero : ¬ (specifier.isNumeric = true ∧ c.pad = '0' ∧ (s.head? = some '-' ∨ s.head? = some '+')) := fun h =>
    absurd (hpad.symm.trans h.2.1) (by decide)
  rw [padTo, if_neg hzero, hpad]
  split
  · exact ⟨0, _, rfl⟩
  · exact ⟨_, 0, (List.append_nil _).symm⟩

theorem padTo_zeros (hleft : c.left = false) (hpad : c.pad = '0') {sign digits : Text}
    (hsign : IsSign specifier sign) (hdigits : ∀ ch ∈ digits, ch.isAlphanum = true) :
    c.padTo specifier (sign ++ digits) =
      sign ++ (List.replicate (c.width - (sign ++ digits).length) '0' ++ digits) := by
  rw [padTo, hleft, if_neg Bool.false_ne_true, hpad]
  rcases hsign with rfl | ⟨hnumeric, hsign⟩
  · have hhead : ¬ (digits.head? = some '-' ∨ digits.head? = some '+') := by
      rintro (h | h) <;> exact absurd (hdigits _ (List.mem_of_head? h)) (by decide)
    exact if_neg fun h => hhead h.2.2
  · have hhead : (sign ++ digits).head? = some '-' ∨ (sign ++ digits).head? = some '+' := by
      rcases hsign with rfl | rfl
      · exact .inl rfl
      · exact .inr rfl
    have hone : (sign ++ digits).take 1 = sign ∧ (sign ++ digits).drop 1 = digits := by
      rcases hsign with rfl | rfl <;> exact ⟨rfl, rfl⟩
    rw [if_pos ⟨hnumeric, rfl, hhead⟩, hone.1, hone.2, List.append_assoc]

/-- Without its blanks, a sign and digits in a field are the sign and the digits, zeros between them. -/
theorem exists_zeros (hc : c.FillsPlainly) {sign digits : Text} (hsign : IsSign specifier sign) (hne : digits ≠ [])
    (hdigits : ∀ ch ∈ digits, ch.isAlphanum = true) :
    ∃ k, trimBoth (· == ' ') (c.padTo specifier (sign ++ digits)) = sign ++ (List.replicate k '0' ++ digits) := by
  have hnonempty : ∀ k, sign ++ (List.replicate k '0' ++ digits) ≠ [] := fun k =>
    List.append_ne_nil_of_right_ne_nil _ (List.append_ne_nil_of_right_ne_nil _ hne)
  have hblank : ∀ k, ' ' ∉ sign ++ (List.replicate k '0' ++ digits) := by
    intro k h
    rcases List.mem_append.1 h with h | h
    · rcases hsign with rfl | ⟨-, rfl | rfl⟩ <;> exact absurd h (by decide)
    rcases List.mem_append.1 h with h | h
    · exact absurd (List.eq_of_mem_replicate h) (by decide)
    · exact absurd (hdigits _ h) (by decide)
  rcases hc with hpad | ⟨hleft, hpad⟩
  · obtain ⟨j, k, hfield⟩ := exists_padTo_blanks specifier hpad (sign ++ digits)
    rw [hfield]
    exact ⟨0, trimBoth_blanks (hnonempty 0) (hblank 0) j k⟩
  · have htrim := fun k => trimBoth_blanks (hnonempty k) (hblank k) 0 0
    simp only [List.replicate_zero, List.nil_append, List.append_nil] at htrim
    rw [padTo_zeros hleft hpad hsign hdigits]
    exact ⟨_, htrim _⟩

/-! ### What is written -/

theorem toNat_toUInt64 (n : Int64) : n.toUInt64.toNat = (n.toInt % Nat.pow 2 64).toNat := by
  have hlt := n.toBitVec.isLt
  have hwords : Nat.pow 2 64 = 18446744073709551616 := rfl
  rw [← Int64.toNat_toBitVec, Int64.toInt, BitVec.toInt_eq_toNat_cond, hwords]
  split <;> omega

/-- The base of a specifier that writes without a sign. -/
def base? : Char → Option Nat
  | 'u' => some 10
  | 'x' | 'X' => some 16
  | 'o' => some 8
  | 'b' => some 2
  | _ => none

namespace Conversion

theorem exists_body_unsigned (shown : τ → Text) (n : Int64) (h : base? c.specifier = some base) :
    1 < base ∧ base ≤ 16 ∧ ∃ specifier upper, Specifier.ofChar? c.specifier = some specifier ∧
      specifier ≠ .character ∧ c.body specifier shown (.int n) = digitsOf base upper n.toUInt64.toNat := by
  unfold base? at h
  split at h <;> cases h
  case h_1 hs => exact ⟨by decide, by decide, .unsigned, false, hs ▸ rfl, nofun, toDigits_eq_digitsOf 10 _⟩
  case h_2 hs => exact ⟨by decide, by decide, .hex false, false, hs ▸ rfl, nofun, toDigits_eq_digitsOf 16 _⟩
  case h_3 hs => exact ⟨by decide, by decide, .hex true, true, hs ▸ rfl, nofun, rfl⟩
  case h_4 hs => exact ⟨by decide, by decide, .octal, false, hs ▸ rfl, nofun, toDigits_eq_digitsOf 8 _⟩
  case h_5 hs => exact ⟨by decide, by decide, .binary, false, hs ▸ rfl, nofun, toDigits_eq_digitsOf 2 _⟩

theorem write_eq (shown : τ → Text) (v : Value τ) (h : Specifier.ofChar? c.specifier = some specifier)
    (hne : specifier ≠ .character) : c.write shown v = .ok (c.padTo specifier (c.body specifier shown v)) ∧
      { c with width := 0 }.write shown v = .ok (c.body specifier shown v) := by
  have hwrite : ∀ d : Conversion, Specifier.ofChar? d.specifier = some specifier →
      d.write shown v = .ok (d.padTo specifier (d.body specifier shown v)) := by
    intro d hd
    rw [write, hd]
    cases specifier <;> first | rfl | exact absurd rfl hne
  refine ⟨hwrite c h, ?_⟩
  rw [hwrite { c with width := 0 } h, padTo_zero]
  rfl

/-- The numeral of an integer: of itself behind a sign, which is a plus only if one is asked for, or of the word
of its bits. -/
structure Denotes (c : Conversion) (n : Int64) (t : Text) : Prop where
  signed : c.specifier = 'd' → integer? t = some n.toInt ∧ (t.head? = some '+' ↔ c.plus = true ∧ 0 ≤ n.toInt)
  unsigned : ∀ base, base? c.specifier = some base → numeral? base t = some (n.toInt % Nat.pow 2 64).toNat

/-- A text as long as its field, or as the bare numeral if that is longer, and a numeral but for the blanks
around it. -/
structure Keeps (c : Conversion) (n : Int64) (bare out : Text) : Prop where
  length : out.length = max c.width bare.length
  denotes : c.Denotes n (trimBoth (· == ' ') out)

theorem denotes_signed (shown : τ → Text) (n : Int64) (hd : c.specifier = 'd') (hc : c.FillsPlainly) :
    c.Denotes n (trimBoth (· == ' ') (c.padTo .signed (c.body .signed shown (.int n)))) := by
  have hbody : c.body .signed shown (.int n) = c.signOf n.toInt ++ natural n.toInt.natAbs :=
    c.addPlus_integer n.toInt
  have hsign : IsSign .signed (c.signOf n.toInt) := by
    rw [signOf]
    split
    · exact .inr ⟨rfl, .inl rfl⟩
    split
    · exact .inr ⟨rfl, .inr rfl⟩
    · exact .inl rfl
  have hne : natural n.toInt.natAbs ≠ [] := Nat.toDigits_ne_nil
  have hdigits : ∀ ch ∈ natural n.toInt.natAbs, ch.isAlphanum = true := by
    rw [natural, toDigits_eq_digitsOf]
    exact isAlphanum_of_mem_digitsOf (by decide) (by decide)
  obtain ⟨k, hk⟩ := exists_zeros hc hsign hne hdigits
  refine ⟨fun _ => ?_, fun base hbase => ?_⟩
  · rw [hbody, hk]
    exact reads_signOf (digits?_zeros_append k _)
  · rw [hd] at hbase
    cases hbase

theorem denotes_unsigned (shown : τ → Text) (n : Int64) (hbase : base? c.specifier = some base)
    (hc : c.FillsPlainly) : ∃ specifier, Specifier.ofChar? c.specifier = some specifier ∧ specifier ≠ .character ∧
      c.Denotes n (trimBoth (· == ' ') (c.padTo specifier (c.body specifier shown (.int n)))) := by
  obtain ⟨hlt, hle, specifier, upper, hchar, hne, hbody⟩ := exists_body_unsigned shown n hbase
  have hdigits := digitsOf_ne_nil base upper n.toUInt64.toNat
  obtain ⟨k, hk⟩ := exists_zeros hc (.inl rfl) hdigits (isAlphanum_of_mem_digitsOf hlt hle)
  refine ⟨specifier, hchar, hne, fun hd => ?_, fun base' hbase' => ?_⟩
  · rw [hd] at hbase
    cases hbase
  · obtain rfl := Option.some.inj (hbase.symm.trans hbase')
    rw [List.nil_append, List.nil_append, ← hbody] at hk
    rw [hk, hbody, numeral?_zeros_append hlt hle, toNat_toUInt64]

theorem exists_keeps (shown : τ → Text) (n : Int64) (hspecifier : c.specifier ∈ ['d', 'u', 'x', 'X', 'o', 'b'])
    (hc : c.FillsPlainly) : ∃ bare out, { c with width := 0 }.write shown (.int n) = .ok bare ∧
      c.write shown (.int n) = .ok out ∧ c.Keeps n bare out := by
  obtain ⟨specifier, hchar, hne, hdenotes⟩ : ∃ specifier, Specifier.ofChar? c.specifier = some specifier ∧
      specifier ≠ .character ∧
        c.Denotes n (trimBoth (· == ' ') (c.padTo specifier (c.body specifier shown (.int n)))) := by
    have hcases : c.specifier = 'd' ∨ ∃ base, base? c.specifier = some base := by
      simp only [List.mem_cons, List.not_mem_nil, or_false] at hspecifier
      rcases hspecifier with h | h | h | h | h | h <;> rw [h]
      · exact .inl rfl
      all_goals exact .inr ⟨_, rfl⟩
    rcases hcases with hd | ⟨base, hbase⟩
    · exact ⟨.signed, hd ▸ rfl, nofun, denotes_signed shown n hd hc⟩
    · exact denotes_unsigned shown n hbase hc
  obtain ⟨hwrite, hbare⟩ := write_eq shown (.int n) hchar hne
  exact ⟨_, _, hbare, hwrite, length_padTo c specifier _, hdenotes⟩

end Conversion

/-- A format that is one conversion is accepted if its numbers are within the bounds and its argument exists, and
answers with what the conversion writes. -/
theorem Reads.format_conversion_iff {shown : τ → Text} {args : List (Value τ)} {text out : Text} {w : Written}
    (h : Reads text [.conversion w]) (hargs : args.length < maxNumber) : format shown text args = .ok out ↔
      w.InBounds ∧ ∃ v, args[w.place 0]? = some v ∧ w.conversion.write shown v = .ok out := by
  have hbounds : (∀ item ∈ [Item.conversion w], item.InBounds) ↔ w.InBounds := List.forall_mem_singleton
  rw [h.format_eq_ok_iff, hbounds, fill_cons_iff hargs]
  refine and_congr_right fun _ => ?_
  constructor
  · rintro ⟨piece, behind, hpiece, ⟨⟩, rfl⟩
    rwa [List.append_nil]
  · exact fun hout => ⟨out, [], hout, rfl, (List.append_nil out).symm⟩

/-- An integer keeps its number in a field of any width that is filled plainly. A format that is one such
conversion is accepted if its numbers are within their bounds, and answers with such a text. -/
theorem integers_kept (shown : τ → Text) (n : Int64) :
    (∀ c : Conversion, c.specifier ∈ ['d', 'u', 'x', 'X', 'o', 'b'] → c.FillsPlainly →
      ∃ bare out, { c with width := 0 }.write shown (.int n) = .ok bare ∧ c.write shown (.int n) = .ok out ∧
        c.Keeps n bare out) ∧
    ∀ (text : Text) (w : Written) (args : List (Value τ)), Reads text [.conversion w] → args.length < maxNumber →
      args[w.place 0]? = some (.int n) → w.specifier ∈ ['d', 'u', 'x', 'X', 'o', 'b'] → w.conversion.FillsPlainly →
      ((∃ out, format shown text args = .ok out) ↔ w.InBounds) ∧
      ∀ out, format shown text args = .ok out → ∃ bare,
        { w.conversion with width := 0 }.write shown (.int n) = .ok bare ∧ w.conversion.Keeps n bare out := by
  refine ⟨fun c => exists_keeps shown n, fun text w args htext hargs hn hspecifier hfills => ?_⟩
  obtain ⟨bare, out, hbare, hwrite, hkeeps⟩ := exists_keeps (c := w.conversion) shown n hspecifier hfills
  have hformat : ∀ out', format shown text args = .ok out' ↔ w.InBounds ∧ out' = out := by
    intro out'
    rw [htext.format_conversion_iff hargs]
    simp [hn, hwrite, eq_comm]
  refine ⟨⟨fun ⟨out', h⟩ => ((hformat out').1 h).1, fun h => ⟨out, (hformat out).2 ⟨h, rfl⟩⟩⟩, fun out' h => ?_⟩
  obtain rfl := ((hformat out').1 h).2
  exact ⟨bare, hbare, hkeeps⟩

/-- The least integer, as itself with zeros behind its sign, and as a word at the left of a field. The precision
does not matter, not even one that formats refuse. -/
theorem integers_kept_least :
    let n := Int64.minValue
    let c : Conversion := { left := true, width := 18, precision := some 5000, specifier := 'X' }
    let text : Text := "%+022d".toList
    let args : List (Value Empty) := [.int n]
    (c.specifier ∈ ['d', 'u', 'x', 'X', 'o', 'b'] ∧ c.FillsPlainly ∧
      ∃ bare, c.write Empty.elim (.int n) = .ok "8000000000000000  ".toList ∧
        c.Keeps n bare "8000000000000000  ".toList) ∧
    ∃ w : Written, Reads text [.conversion w] ∧ args.length < maxNumber ∧ args[w.place 0]? = some (.int n) ∧
      w.specifier ∈ ['d', 'u', 'x', 'X', 'o', 'b'] ∧ w.conversion.FillsPlainly ∧ w.InBounds ∧
      format Empty.elim text args = .ok "-009223372036854775808".toList ∧
        ∃ bare, w.conversion.Keeps n bare "-009223372036854775808".toList := by
  intro n c text args
  have hc : c.specifier ∈ ['d', 'u', 'x', 'X', 'o', 'b'] := by decide
  have hfills : c.FillsPlainly := .inl rfl
  have hargs : args.length < maxNumber := by decide
  have hwritten : c.write Empty.elim (.int n) = .ok "8000000000000000  ".toList := by decide +kernel
  have hformat : format Empty.elim text args = .ok "-009223372036854775808".toList := by decide +kernel
  have hread : Conversion.read "+022d".toList =
    .ok ({ plus := true, pad := '0', width := 22, specifier := 'd' }, []) := by decide +kernel
  obtain ⟨w, hw, hbounds, hcapped⟩ := exists_reads_of_read hread
  have htext : Reads text [.conversion w] := .conversion (by decide) hw .nil
  have hspecifier : w.specifier = 'd' := congrArg Conversion.specifier hcapped
  have hpad : w.conversion.left = false ∧ w.conversion.pad = '0' :=
    ⟨congrArg Conversion.left hcapped, congrArg Conversion.pad hcapped⟩
  have hplace : w.place 0 = 0 := by
    rw [Written.place, Option.map_eq_none_iff.1 (Option.map_eq_none_iff.1 (congrArg Conversion.argument hcapped))]
    rfl
  have hn : args[w.place 0]? = some (.int n) := by rw [hplace]; rfl
  have hletter : w.specifier ∈ ['d', 'u', 'x', 'X', 'o', 'b'] := by rw [hspecifier]; decide
  obtain ⟨hconversions, hformats⟩ := integers_kept Empty.elim n
  obtain ⟨bare, out, -, hout, hkeeps⟩ := hconversions c hc hfills
  obtain rfl := Except.ok.inj (hout.symm.trans hwritten)
  obtain ⟨bare', -, hkeeps'⟩ := (hformats text w args htext hargs hn hletter (.inr hpad)).2 _ hformat
  exact ⟨⟨hc, hfills, bare, hwritten, hkeeps⟩, w, htext, hargs, hn, hletter, .inr hpad, hbounds, hformat, bare',
    hkeeps'⟩

/-- Zeros behind the digits would count. -/
example : format Empty.elim "%-05d".toList [.int 3] = .ok "30000".toList := by decide +kernel

end Stencil.Sprintf
