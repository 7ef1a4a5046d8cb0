import Stencil.Proofs.Integers
import Stencil.Proofs.Merging

/-! # Positions of lists as numbers and as keys

An attribute of a list is a number, read from any numeral of it; a key of the dict that a list becomes is the
position as it is printed. The two agree on all texts but the numerals of positions with a plus or with zeros in
front (`attr?_list_eq_iff`), so that those alone are lost when a list is merged with a dict. -/

namespace Stencil
open Text

namespace Decimal
variable {s : Text} {n : Nat}

/-- A numeral of a number: its digits, with any zeros in front and perhaps a plus. -/
def IsNumeral (n : Nat) (s : Text) : Prop :=
  ∃ plus k, (plus = [] ∨ plus = ['+']) ∧ s = plus ++ (List.replicate k '0' ++ natural n)

theorem exists_digitChar {c : Char} (h : c.isDigit = true) : ∃ d < 10, c = Nat.digitChar d := by
  obtain ⟨hlow, hhigh⟩ : 48 ≤ c.toNat ∧ c.toNat ≤ 57 := by
    simpa [Char.isDigit, UInt32.le_iff_toNat_le] using h
  refine ⟨c.toNat - 48, by omega, Char.toNat_inj.1 ?_⟩
  rw [Nat.toNat_digitChar_of_lt_ten (by omega)]
  omega

/-- Digits behind those of a number other than zero are the digits of a number. -/
theorem natural_append (hn : 0 < n) (hs : ∀ c ∈ s, c.isDigit = true) :
    natural n ++ s = natural (Nat.ofDigitChars 10 s n) := by
  induction s generalizing n with
  | nil => rw [List.append_nil, Nat.ofDigitChars_nil]
  | cons c s ih =>
    obtain ⟨hc, hdigits⟩ := List.forall_mem_cons.1 hs
    obtain ⟨d, hd, rfl⟩ := exists_digitChar hc
    have hmore : natural n ++ [Nat.digitChar d] = natural (10 * n + d) := by
      rw [natural, ← Nat.toDigits_of_lt_base hd, Nat.toDigits_append_toDigits (by decide) hn hd, natural]
    rw [Nat.ofDigitChars_cons_digitChar_of_lt_ten hd, ← ih (by omega) hdigits, ← hmore, List.append_assoc,
      List.singleton_append]

theorem exists_zeros_of_digits (hne : s ≠ []) (hs : ∀ c ∈ s, c.isDigit = true) :
    ∃ k, s = List.replicate k '0' ++ natural (valueOf s) := by
  induction s with
  | nil => exact absurd rfl hne
  | cons c s ih =>
    obtain ⟨hc, hdigits⟩ := List.forall_mem_cons.1 hs
    obtain ⟨d, hd, rfl⟩ := exists_digitChar hc
    have hvalue : valueOf (Nat.digitChar d :: s) = Nat.ofDigitChars 10 s d := by
      rw [valueOf, Nat.ofDigitChars_cons_digitChar_of_lt_ten hd, Nat.mul_zero, Nat.zero_add]
    have hdigit : natural d = [Nat.digitChar d] := Nat.toDigits_of_lt_base hd
    rw [hvalue]
    rcases Nat.eq_zero_or_pos d with rfl | hpos
    · -- a zero in front, unless it is the only digit
      by_cases hnil : s = []
      · subst hnil
        exact ⟨0, hdigit.symm⟩
      · obtain ⟨k, hk⟩ := ih hnil hdigits
        exact ⟨k + 1, congrArg ('0' :: ·) hk⟩
    · exact ⟨0, by rw [← natural_append hpos hdigits, hdigit]; rfl⟩

theorem digits?_eq_some_iff : digits? s = some n ↔ ∃ k, s = List.replicate k '0' ++ natural n := by
  constructor
  · intro h
    obtain ⟨⟨hne, hs⟩, hn⟩ := (Option.ite_none_right_eq_some).1 (h : (if _ then _ else _) = _)
    obtain ⟨k, hk⟩ := exists_zeros_of_digits hne (List.all_eq_true.1 hs)
    exact ⟨k, by rw [← Option.some.inj hn]; exact hk⟩
  · rintro ⟨k, rfl⟩
    exact Sprintf.digits?_zeros_append k n

theorem head?_numeral_ne_plus (k n : Nat) : (List.replicate k '0' ++ natural n).head? ≠ some '+' := by
  intro h
  have hplus : '+' ∈ List.replicate k '0' ++ natural n := List.mem_of_head? h
  rcases List.mem_append.1 hplus with hzero | hdigit
  · exact absurd (List.eq_of_mem_replicate hzero) (by decide)
  · exact absurd (Nat.isDigit_of_mem_toDigits (by decide) (by decide) hdigit) (by decide)

theorem index?_eq (s : Text) :
    index? s = (digits? (skipOne '+' s)).bind fun n => if n < Nat.pow 2 64 then some n else none := by
  cases s with
  | nil => rfl
  | cons c s =>
    by_cases hc : c = '+'
    · rw [hc, skipOne_self]; rfl
    · rw [skipOne_of_ne hc, index?]
      · rfl
      · exact fun _ h => hc (List.cons.inj h).1

theorem IsNumeral.digits?_eq (h : IsNumeral n s) : digits? (skipOne '+' s) = some n := by
  obtain ⟨plus, k, hplus, rfl⟩ := h
  rw [skipOne_append hplus (head?_numeral_ne_plus k n), Sprintf.digits?_zeros_append]

theorem IsNumeral.unique {m : Nat} (hm : IsNumeral m s) (hn : IsNumeral n s) : m = n :=
  Option.some.inj (hm.digits?_eq.symm.trans hn.digits?_eq)

theorem index?_eq_some_iff : index? s = some n ↔ IsNumeral n s ∧ n < Nat.pow 2 64 := by
  rw [index?_eq, Option.bind_eq_some_iff]
  constructor
  · rintro ⟨m, hm, hbound⟩
    obtain ⟨hlt, hmn⟩ := Option.ite_none_right_eq_some.1 hbound
    obtain rfl := Option.some.inj hmn
    obtain ⟨k, hk⟩ := digits?_eq_some_iff.1 hm
    obtain ⟨plus, hplus, hs⟩ := exists_gap '+' s
    exact ⟨⟨plus, k, hplus, by rwa [hk] at hs⟩, hlt⟩
  · rintro ⟨h, hlt⟩
    exact ⟨n, h.digits?_eq, if_pos hlt⟩

theorem isNumeral_natural (n : Nat) : IsNumeral n (natural n) := ⟨[], 0, .inl rfl, rfl⟩

end Decimal

open Decimal

namespace Entries
variable {α : Type} {key : Text} {a : α}

theorem get?_indexedFrom_eq_some_iff {n : Nat} {as : List α} :
    get? key (indexedFrom n as) = some a ↔ ∃ i, key = natural (n + i) ∧ as[i]? = some a := by
  induction as generalizing n with
  | nil => simp [indexedFrom]
  | cons b as ih =>
    rw [indexedFrom_cons, get?]
    by_cases hkey : Nat.toDigits 10 n = key
    · rw [if_pos hkey]
      constructor
      · exact fun h => ⟨0, hkey.symm, h⟩
      · rintro ⟨i, hi, h⟩
        obtain rfl : i = 0 := by
          have := toDigits_inj (hkey.trans hi)
          omega
        exact h
    · rw [if_neg hkey, ih]
      constructor
      · rintro ⟨i, hi, h⟩
        exact ⟨i + 1, by rw [hi, Nat.add_right_comm, Nat.add_assoc], h⟩
      · rintro ⟨i, hi, h⟩
        cases i with
        | zero => exact absurd hi.symm hkey
        | succ i => exact ⟨i, by rw [hi, Nat.add_right_comm, Nat.add_assoc], h⟩

theorem get?_indexed_eq_some_iff {as : List α} :
    get? key (indexed as) = some a ↔ ∃ i, key = natural i ∧ as[i]? = some a := by
  refine get?_indexedFrom_eq_some_iff.trans (exists_congr fun i => ?_)
  rw [Nat.zero_add]

theorem get?_absorb_of_not_mem (combine : α → α → α) (base : Entries α) {es : Entries α} (h : key ∉ keys es) :
    get? key (absorb combine base es) = get? key base := by
  induction es generalizing base with
  | nil => rfl
  | cons e es ih =>
    obtain ⟨hne, h⟩ := not_or.1 (mt List.mem_cons.2 h)
    rw [absorb, ih _ h, get?_alter, if_neg (Ne.symm hne)]

end Entries

namespace Value
variable {τ : Type}

theorem attr?_list_eq_some_iff {items : List (Value τ)} (hitems : items.length ≤ Nat.pow 2 64) {s : Text}
    {v : Value τ} : (list items).attr? s = some v ↔ ∃ i, IsNumeral i s ∧ items[i]? = some v := by
  rw [attr?, Option.bind_eq_some_iff]
  refine exists_congr fun i => ?_
  rw [index?_eq_some_iff, and_assoc]
  refine and_congr_right fun _ => and_iff_right_of_imp fun h => ?_
  exact Nat.lt_of_lt_of_le (List.getElem?_eq_some_iff.1 h).1 hitems

/-- An attribute of a list is any numeral of a position, a key of the dict that is made of the list is a position
as it is printed. So the two answer alike unless the attribute is a numeral of a position with a plus or with zeros
in front; and a merge with a dict, which turns the list into one, goes from the first to the second answer under
every key that does not come in. The places of a list are counted by words, so it has no more of them. -/
theorem attr?_list_eq_iff (items : List (Value τ)) (hitems : items.length ≤ Nat.pow 2 64) (s : Text) :
    (∀ v, (list items).attr? s = some v ↔ ∃ i, IsNumeral i s ∧ items[i]? = some v) ∧
    (∀ v, (Dict.ofValue (list items)).get? s = some v ↔ ∃ i, s = natural i ∧ items[i]? = some v) ∧
    (∃ es, (list items).entries? = some es ∧
      ∀ v, (Dict.ofValue (list items)).get? s = some v ↔ (s, v) ∈ es) ∧
    ((list items).attr? s = (Dict.ofValue (list items)).get? s ↔
      ∀ i < items.length, IsNumeral i s → s = natural i) ∧
    ∀ incoming : Dict τ, s ∉ incoming.keys →
      ((list items).merge (.dict incoming)).attr? s = (Dict.ofValue (list items)).get? s := by
  have hnumber := fun v => attr?_list_eq_some_iff hitems (s := s) (v := v)
  have hkey : ∀ v, (Dict.ofValue (list items)).get? s = some v ↔ ∃ i, s = natural i ∧ items[i]? = some v :=
    fun v => Entries.get?_indexed_eq_some_iff
  refine ⟨hnumber, hkey, ⟨_, rfl, fun v => Entries.get?_eq_some_iff (Entries.nodup_keys_indexedFrom 0 items)⟩,
    ⟨fun h i hi hs => ?_, fun h => Option.ext fun v => ?_⟩, fun incoming hs => ?_⟩
  · have hitem := (hnumber items[i]).2 ⟨i, hs, List.getElem?_eq_getElem hi⟩
    obtain ⟨j, rfl, -⟩ := (hkey _).1 (h ▸ hitem)
    rw [hs.unique (isNumeral_natural j)]
  · rw [hnumber, hkey]
    constructor
    · rintro ⟨i, hs, hi⟩
      exact ⟨i, h i (List.getElem?_eq_some_iff.1 hi).1 hs, hi⟩
    · rintro ⟨i, rfl, hi⟩
      exact ⟨i, isNumeral_natural i, hi⟩
  · rw [merge, mergeEntries_eq_absorb]
    exact Entries.get?_absorb_of_not_mem _ _ hs

/-- With a zero in front the second item of a list is still its second item, but no key of the dict. -/
theorem attr?_of_leadingZero :
    (list [.int 1, .int 2] : Value Empty).attr? ['0', '1'] = some (.int 2) ∧
    (Dict.ofValue (list [.int 1, .int 2] : Value Empty)).get? ['0', '1'] = none ∧
    ¬ ∀ (items : List (Value Empty)) (s : Text), (list items).attr? s = (Dict.ofValue (list items)).get? s := by
  have hnumber : (list [.int 1, .int 2] : Value Empty).attr? ['0', '1'] = some (.int 2) := rfl
  have hkey : (Dict.ofValue (list [.int 1, .int 2] : Value Empty)).get? ['0', '1'] = none := rfl
  refine ⟨hnumber, hkey, fun h => ?_⟩
  have hsame := h [.int 1, .int 2] ['0', '1']
  rw [hnumber, hkey] at hsame
  cases hsame

/-- `1` is the second item before and after a dict came in, `+1` and `01` only before. -/
theorem attr?_of_merged :
    let items : List (Value Empty) := [.int 1, .int 2]
    let merged := (list items).merge (.dict [(['0'], .null)])
    items.length ≤ Nat.pow 2 64 ∧ ['1'] ∉ Entries.keys [(['0'], (.null : Value Empty))] ∧
    (list items).attr? ['1'] = (Dict.ofValue (list items)).get? ['1'] ∧ merged.attr? ['1'] = some (.int 2) ∧
    (list items).attr? ['+', '1'] ≠ (Dict.ofValue (list items)).get? ['+', '1'] := by
  intro items merged
  have hitems : items.length ≤ Nat.pow 2 64 := by decide
  have hnew : ['1'] ∉ Entries.keys [(['0'], (.null : Value Empty))] := by decide
  obtain ⟨-, hkey, -, hsame, hmerged⟩ := attr?_list_eq_iff items hitems ['1']
  obtain ⟨-, -, -, hplus, -⟩ := attr?_list_eq_iff items hitems ['+', '1']
  refine ⟨hitems, hnew, hsame.2 fun i hi hs => ?_, ?_, fun h => ?_⟩
  · rw [hs.unique (isNumeral_natural 1)]
    rfl
  · exact (hmerged _ hnew).trans ((hkey _).2 ⟨1, rfl, rfl⟩)
  · exact absurd (hplus.1 h 1 (by decide) ⟨['+'], 0, .inr rfl, rfl⟩) (by decide)

end Value
end Stencil
