import Stencil.Json.Read
import Stencil.Proofs.Mapping

/-! # Values out of their JSON

A collection of nulls, booleans, integers, strings and further collections is read back from its text, with
the order of its keys (`Value.read_display`). What a value is written as begins with no white space and no
closing bracket, and is read up to the mark behind it (`Json.value?_json`); for this the reader's recursion
goes along with the depth of the brackets. -/

namespace Stencil
open Text Decimal
variable {φ : Type}

namespace Json

theorem codeUnit?_digitChar {n : Nat} (h : n < 0x20) :
    codeUnit? '0' '0' (Nat.digitChar (n / 16)) (Nat.digitChar (n % 16)) = some n :=
  have hall : ∀ n < 0x20, codeUnit? '0' '0' (Nat.digitChar (n / 16)) (Nat.digitChar (n % 16)) = some n := by
    decide +kernel
  hall n h

theorem stringBody?_of_plain {c : Char} (hquote : c ≠ '"') (hback : c ≠ '\\') (hcontrol : ¬ c.toNat < 0x20)
    (s : Text) : stringBody? (c :: s) = (stringBody? s).map fun (t, rest) => (c :: t, rest) := by
  rw [stringBody?.eq_def]
  split
  · next h => cases h
  · next h => exact absurd (List.cons.inj h).1 hquote
  · next h => exact absurd (List.cons.inj h).1 hback
  · next h => exact absurd (List.cons.inj h).1 hback
  · next h => cases h; rw [if_neg hcontrol]

theorem stringBody?_escapeChar (c : Char) (s : Text) :
    stringBody? (escapeChar c ++ s) = (stringBody? s).map fun (t, rest) => (c :: t, rest) := by
  rw [escapeChar]
  repeat' split
  -- the escapes of one letter
  all_goals try (subst c; rfl)
  · next hcontrol =>
    have hhigh : isHighSurrogate c.toNat = false := by simp [isHighSurrogate]; omega
    have hlow : isLowSurrogate c.toNat = false := by simp [isLowSurrogate]; omega
    simp [stringBody?, codeUnit?_digitChar hcontrol, hhigh, hlow]
  · next hquote hback _ _ _ _ _ hcontrol => exact stringBody?_of_plain hquote hback hcontrol s

theorem stringBody?_flatMap (s rest : Text) :
    stringBody? (s.flatMap escapeChar ++ '"' :: rest) = some (s, rest) := by
  induction s with
  | nil => rfl
  | cons c s ih => rw [List.flatMap_cons, List.append_assoc, stringBody?_escapeChar, ih]; rfl

theorem string?_quote (s rest : Text) : string? (quote s ++ rest) = some (s, rest) := by
  rw [quote, List.cons_append, List.cons_append, List.append_assoc]
  exact stringBody?_flatMap s rest

/-- What stands behind a value in a document that is written without blanks. -/
def Ends (rest : Text) : Prop := ∀ c, rest.head? = some c → c = ',' ∨ c = ']' ∨ c = '\x7d'

theorem places?_run {digits rest : Text} (hne : digits ≠ []) (hdigits : ∀ c ∈ digits, c.isDigit = true)
    (hrest : ∀ c, rest.head? = some c → c.isDigit = false) : places? (digits ++ rest) = some (digits, rest) := by
  rw [places?, takeWhile_run hdigits hrest]
  simp [hne]

theorem exists_cons_toDigits (n : Nat) : ∃ d ds, Nat.toDigits 10 n = d :: ds ∧ d.isDigit = true := by
  obtain ⟨d, ds, hds⟩ := List.exists_cons_of_ne_nil (Nat.toDigits_ne_nil (n := n) (b := 10))
  have hd : d ∈ Nat.toDigits 10 n := hds ▸ List.mem_cons_self
  exact ⟨d, ds, hds, Nat.isDigit_of_mem_toDigits (by decide) (by decide) hd⟩

theorem toDigits_head_ne_zero {n : Nat} (h : n ≠ 0) : (Nat.toDigits 10 n).head? ≠ some '0' := by
  induction n using Nat.strongRecOn with
  | ind n ih =>
    by_cases hn : n < 10
    · rw [Nat.toDigits_of_lt_base hn]
      have hall : ∀ n < 10, n ≠ 0 → [Nat.digitChar n].head? ≠ some '0' := by decide
      exact hall n hn h
    · have hfirst := ih (n / 10) (by omega) (by omega)
      rw [Nat.toDigits_of_base_le (by decide) (Nat.le_of_not_lt hn)]
      obtain ⟨d, ds, hds, -⟩ := exists_cons_toDigits (n / 10)
      rw [hds] at hfirst ⊢
      exact hfirst

theorem Ends.isDigit {rest : Text} (h : Ends rest) (c : Char) (hc : rest.head? = some c) : c.isDigit = false := by
  rcases h c hc with rfl | rfl | rfl <;> decide

/-- A numeral of digits only ends where the next mark stands. -/
theorem number?_digits (negative : Bool) (n : Nat) {rest : Text} (hrest : Ends rest) :
    number? ((if negative then ['-'] else []) ++ (Nat.toDigits 10 n ++ rest)) =
      (ofDigits? negative (Nat.toDigits 10 n)).map fun v => (v, rest) := by
  have hplaces : places? (Nat.toDigits 10 n ++ rest) = some (Nat.toDigits 10 n, rest) :=
    places?_run Nat.toDigits_ne_nil (fun c hc => Nat.isDigit_of_mem_toDigits (by decide) (by decide) hc)
      hrest.isDigit
  have hzero : ¬ ((Nat.toDigits 10 n).head? = some '0' ∧ Nat.toDigits 10 n ≠ ['0']) := by
    rintro ⟨hhead, hne⟩
    by_cases hn : n = 0
    · subst hn; exact hne rfl
    · exact toDigits_head_ne_zero hn hhead
  -- the digits begin with no minus
  have hminus : ∀ s, Nat.toDigits 10 n ++ rest ≠ '-' :: s := by
    intro s h
    obtain ⟨d, ds, hds, hd⟩ := exists_cons_toDigits n
    rw [hds, List.cons_append] at h
    exact ne_of_holds hd (by decide) (List.cons.inj h).1
  rw [number?.eq_def]
  cases negative
  all_goals
    simp only [Bool.false_eq_true, if_true, if_false, List.nil_append, List.singleton_append, hplaces,
      Option.bind_eq_bind, Option.bind_some, if_neg hzero]
    cases rest with
    | nil => rfl
    | cons c rest => rcases hrest c rfl with rfl | rfl | rfl <;> rfl

theorem int64OfInt?_toInt (n : Int64) : int64OfInt? n.toInt = some n := by
  rw [int64OfInt?, if_pos ⟨n.minValue_le_toInt, n.toInt_le⟩, Int64.ofInt_toInt]

theorem number?_integer (n : Int64) {rest : Text} (hrest : Ends rest) :
    number? (integer n.toInt ++ rest) = some (.int n, rest) := by
  rw [integer, natural]
  split
  · next hneg =>
    have hsize : -(n.toInt.natAbs : Int) = n.toInt := by omega
    have hne : n ≠ 0 := by rintro rfl; exact absurd hneg (by decide)
    refine (number?_digits true n.toInt.natAbs hrest).trans ?_
    simp only [ofDigits?, if_true, valueOf_toDigits, hsize, int64OfInt?_toInt, if_neg hne, Option.map_some]
  · next hpos =>
    have hsize : (n.toInt.natAbs : Int) = n.toInt := by omega
    refine (number?_digits false n.toInt.natAbs hrest).trans ?_
    simp only [ofDigits?, Bool.false_eq_true, if_false, valueOf_toDigits, hsize, int64OfInt?_toInt, Option.map_some]

/-- Elements with commas between them, up to the closing bracket. -/
def enclosed {α : Type} (written : α → Text) (close : Char) : List α → Text
  | [] => [close]
  | [a] => written a ++ [close]
  | a :: b :: as => written a ++ ',' :: enclosed written close (b :: as)

/-- A text whose first character is neither white space nor the closing bracket. -/
def Begins (close : Char) (s : Text) : Prop := ∃ c rest, s = c :: rest ∧ isSpace c = false ∧ c ≠ close

theorem skipSpace_cons {c : Char} (h : isSpace c = false) (s : Text) : skipSpace (c :: s) = c :: s :=
  List.dropWhile_cons_of_neg (by simp [h])

section
variable {α : Type} {element : Text → Option (α × Text)} {written : α → Text} {close : Char}

theorem length_le_enclosed (written : α → Text) (close : Char) (as : List α) :
    as.length ≤ (enclosed written close as).length := by
  induction as with
  | nil => exact Nat.zero_le _
  | cons a as ih =>
    cases as with
    | nil => simp [enclosed]
    | cons b as =>
      simp only [enclosed, List.length_append, List.length_cons] at ih ⊢
      omega

theorem Begins.append {s : Text} (h : Begins close s) (t : Text) : Begins close (s ++ t) := by
  obtain ⟨c, rest, rfl, hspace, hclose⟩ := h
  exact ⟨c, rest ++ t, rfl, hspace, hclose⟩

theorem Begins.skipSpace_eq {s : Text} (h : Begins close s) : skipSpace s = s := by
  obtain ⟨c, rest, rfl, hspace, -⟩ := h
  exact skipSpace_cons hspace rest

/-- Fuel is spent on elements only. -/
theorem elements?_enclosed (hclose : close = ']' ∨ close = '\x7d') {a : α} {as : List α} {fuel : Nat}
    (hfuel : as.length < fuel)
    (helement : ∀ b ∈ a :: as, ∀ rest, Ends rest → element (written b ++ rest) = some (b, rest))
    (hbegins : ∀ b ∈ a :: as, Begins close (written b)) (rest : Text) :
    elements? element close fuel (enclosed written close (a :: as) ++ rest) = some (a :: as, rest) := by
  obtain ⟨hspace, hcomma⟩ : isSpace close = false ∧ ',' ≠ close := by
    rcases hclose with rfl | rfl <;> decide
  induction as generalizing a fuel with
  | nil =>
    obtain ⟨fuel, rfl⟩ : ∃ k, fuel = k + 1 := ⟨fuel - 1, by omega⟩
    have hstep := helement a List.mem_cons_self (close :: rest) (fun c hc => by cases hc; exact .inr hclose)
    rw [enclosed, List.append_assoc, List.singleton_append, elements?,
      ((hbegins a List.mem_cons_self).append _).skipSpace_eq, hstep]
    simp only [Option.bind_eq_bind, Option.bind_some, skipSpace_cons hspace, if_true]
  | cons b as ih =>
    obtain ⟨fuel, rfl⟩ : ∃ k, fuel = k + 1 := ⟨fuel - 1, by omega⟩
    have hstep := helement a List.mem_cons_self (',' :: (enclosed written close (b :: as) ++ rest))
      (fun c hc => by cases hc; exact .inl rfl)
    rw [enclosed, List.append_assoc, List.cons_append, elements?,
      ((hbegins a List.mem_cons_self).append _).skipSpace_eq, hstep]
    simp only [Option.bind_eq_bind, Option.bind_some, skipSpace_cons (c := ',') rfl, if_neg hcomma, if_true]
    rw [ih (by simpa using hfuel) (fun d hd => helement d (List.mem_cons_of_mem _ hd))
      (fun d hd => hbegins d (List.mem_cons_of_mem _ hd))]
    rfl

theorem bracketed?_enclosed (hclose : close = ']' ∨ close = '\x7d') {as : List α}
    (helement : ∀ b ∈ as, ∀ rest, Ends rest → element (written b ++ rest) = some (b, rest))
    (hbegins : ∀ b ∈ as, Begins close (written b)) (rest : Text) :
    bracketed? element close (enclosed written close as ++ rest) = some (as, rest) := by
  cases as with
  | nil =>
    have hspace : isSpace close = false := by rcases hclose with rfl | rfl <;> decide
    simp only [bracketed?, enclosed, List.singleton_append, skipSpace_cons hspace, if_true]
  | cons a as =>
    have hfuel : as.length < (enclosed written close (a :: as) ++ rest).length := by
      have := length_le_enclosed written close (a :: as)
      rw [List.length_append]
      exact Nat.lt_of_lt_of_le this (Nat.le_add_right _ _)
    have helements := elements?_enclosed hclose hfuel helement hbegins rest
    obtain ⟨c, s, hs, hspace, hne⟩ : Begins close (enclosed written close (a :: as) ++ rest) := by
      have hbegin := hbegins a List.mem_cons_self
      cases as with
      | nil => exact (hbegin.append _).append _
      | cons b as => exact (hbegin.append _).append _
    rw [hs] at helements
    simp only [bracketed?, hs, skipSpace_cons hspace, if_neg hne]
    exact helements

theorem member?_written {a : α} {rest : Text} (key : Text) (hbegins : Begins close (written a))
    (helement : element (written a ++ rest) = some (a, rest)) :
    member? element (quote key ++ ':' :: written a ++ rest) = some ((key, a), rest) := by
  rw [List.append_assoc, member?, string?_quote]
  simp only [List.cons_append, Option.bind_eq_bind, Option.bind_some, skipSpace_cons (c := ':') rfl,
    (hbegins.append rest).skipSpace_eq, helement]

end

end Json

/-! ### Values that JSON can hold -/

namespace Value
variable {τ : Type}

theorem jsonItems_eq_enclosed (shown : τ → Text) (vs : List (Value τ)) :
    jsonItems shown vs = Json.enclosed (json shown) ']' vs := by
  induction vs with
  | nil => rfl
  | cons v vs ih =>
    cases vs with
    | nil => rfl
    | cons w vs => rw [jsonItems, ih, Json.enclosed]; exact List.cons_ne_nil w vs

theorem jsonEntries_eq_enclosed (shown : τ → Text) (es : List (Text × Value τ)) :
    jsonEntries shown es = Json.enclosed (fun e => Json.quote e.1 ++ ':' :: e.2.json shown) '\x7d' es := by
  induction es with
  | nil => rfl
  | cons e es ih =>
    cases es with
    | nil => simp [jsonEntries, Json.enclosed]
    | cons f es =>
      rw [Json.enclosed, ← ih, jsonEntries]
      simp

/-- Values that JSON holds exactly, with brackets that nest `depth` deep at most: no floats and no templates,
and no key twice in a dict, which is how entries are inserted. -/
inductive JsonWithin : (depth : Nat) → Value τ → Prop
  | null {n} : JsonWithin n .null
  | bool {n} (b : Bool) : JsonWithin n (.bool b)
  | int {n} (i : Int64) : JsonWithin n (.int i)
  | str {n} (s : Text) : JsonWithin n (.str s)
  | list {n items} (h : ∀ v ∈ items, JsonWithin n v) : JsonWithin (n + 1) (.list items)
  | dict {n entries} (hkeys : (Entries.keys entries).Nodup) (h : ∀ e ∈ entries, JsonWithin n e.2) :
    JsonWithin (n + 1) (.dict entries)

end Value

namespace Json

theorem not_isSpace_of_isDigit {c : Char} (h : c.isDigit = true) : isSpace c = false := by
  rw [Bool.eq_false_iff]
  intro hspace
  simp only [isSpace, Bool.or_eq_true, beq_iff_eq] at hspace
  rcases hspace with ((rfl | rfl) | rfl) | rfl <;> exact absurd h (by decide)

theorem exists_cons_integer (n : Int) : ∃ c s, integer n = c :: s ∧ (c = '-' ∨ c.isDigit = true) := by
  rw [integer]
  split
  · exact ⟨'-', _, rfl, .inl rfl⟩
  · obtain ⟨d, ds, hds, hd⟩ := exists_cons_toDigits n.natAbs
    exact ⟨d, ds, hds, .inr hd⟩

theorem begins_json {n : Nat} {v : Data} (h : v.JsonWithin n) : Begins ']' (v.json Empty.elim) := by
  cases h with
  | null | str | list | dict => exact ⟨_, _, rfl, by decide, by decide⟩
  | bool b => cases b <;> exact ⟨_, _, rfl, by decide, by decide⟩
  | int i =>
    obtain ⟨c, s, hs, hc⟩ := exists_cons_integer i.toInt
    refine ⟨c, s, hs, ?_⟩
    rcases hc with rfl | hc
    · decide
    · exact ⟨not_isSpace_of_isDigit hc, ne_of_holds hc (by decide)⟩

theorem value?_eq_scalar? {c : Char} (hlist : c ≠ '[') (hdict : c ≠ '\x7b') (n : Nat) (s : Text) :
    value? n (c :: s) = value?.scalar? (c :: s) := by
  cases n with
  | zero => rfl
  | succ n =>
    rw [value?]
    · exact fun t h => hlist (List.cons.inj h).1
    · exact fun t h => hdict (List.cons.inj h).1

theorem value?_integer (n : Nat) (i : Int64) {rest : Text} (hrest : Ends rest) :
    value? n (integer i.toInt ++ rest) = some (.int i, rest) := by
  obtain ⟨c, s, hs, hc⟩ := exists_cons_integer i.toInt
  have hne : ∀ d, d ≠ '-' → d.isDigit = false → c ≠ d := by
    rintro d hminus hdigit rfl
    rcases hc with hc | hc
    · exact hminus hc
    · rw [hc] at hdigit; cases hdigit
  rw [← number?_integer i hrest, hs, List.cons_append,
    value?_eq_scalar? (hne '[' (by decide) (by decide)) (hne '\x7b' (by decide) (by decide)), value?.scalar?]
  · exact fun t h => hne '"' (by decide) (by decide) (List.cons.inj h).1
  · exact fun t h => hne 'n' (by decide) (by decide) (List.cons.inj h).1
  · exact fun t h => hne 't' (by decide) (by decide) (List.cons.inj h).1
  · exact fun t h => hne 'f' (by decide) (by decide) (List.cons.inj h).1

theorem value?_json {n : Nat} {v : Data} (h : v.JsonWithin n) {rest : Text} (hrest : Ends rest) :
    value? n (v.json Empty.elim ++ rest) = some (v, rest) := by
  induction h generalizing rest with
  | null => exact value?_eq_scalar? (by decide) (by decide) _ ("ull".toList ++ rest)
  | bool b =>
    cases b with
    | true => exact value?_eq_scalar? (by decide) (by decide) _ ("rue".toList ++ rest)
    | false => exact value?_eq_scalar? (by decide) (by decide) _ ("alse".toList ++ rest)
  | int i => exact value?_integer _ i hrest
  | str s =>
    rw [Value.json, quote, List.cons_append, List.cons_append, value?_eq_scalar? (by decide) (by decide),
      value?.scalar?, List.append_assoc, List.singleton_append, stringBody?_flatMap]
    rfl
  | @list n items hitems ih =>
    rw [Value.json, Value.jsonItems_eq_enclosed, List.cons_append, value?,
      bracketed?_enclosed (.inl rfl) (fun v hv rest hrest => ih v hv hrest) (fun v hv => begins_json (hitems v hv))]
    rfl
  | @dict n entries hkeys hentries ih =>
    rw [Value.json, Value.jsonEntries_eq_enclosed, List.cons_append, value?, bracketed?_enclosed (.inr rfl)]
    · exact congrArg (fun es => some (Value.dict es, rest)) (Entries.ofPairs_eq_self hkeys)
    · intro e he rest hrest
      exact member?_written e.1 (begins_json (hentries e he)) (ih e he hrest)
    · exact fun e _ => ⟨'"', _, rfl, by decide, by decide⟩

end Json

theorem exists_map_eq {α β : Type} {P : β → Prop} {f : β → α} {as : List α}
    (h : ∀ a ∈ as, ∃ b, P b ∧ f b = a) : ∃ bs : List β, (∀ b ∈ bs, P b) ∧ bs.map f = as := by
  induction as with
  | nil => exact ⟨[], by simp, rfl⟩
  | cons a as ih =>
    obtain ⟨b, hb, hab⟩ := h a List.mem_cons_self
    obtain ⟨bs, hbs, has⟩ := ih fun c hc => h c (List.mem_cons_of_mem a hc)
    exact ⟨b :: bs, List.forall_mem_cons.2 ⟨hb, hbs⟩, by rw [List.map_cons, hab, has]⟩

theorem Value.JsonWithin.exists_ofData {τ : Type} {n : Nat} {v : Value τ} (h : v.JsonWithin n) :
    ∃ d : Data, d.JsonWithin n ∧ ofData d = v := by
  induction h with
  | null => exact ⟨_, .null, rfl⟩
  | bool b => exact ⟨_, .bool b, rfl⟩
  | int i => exact ⟨_, .int i, rfl⟩
  | str s => exact ⟨_, .str s, rfl⟩
  | list _ ih =>
    obtain ⟨ds, hds, rfl⟩ := exists_map_eq ih
    refine ⟨.list ds, .list hds, ?_⟩
    rw [ofData, ofDataItems_eq_mapItems, mapItems_eq_map]
    exact congrArg Value.list (List.map_congr_left fun d _ => (ofData_eq_map d).symm)
  | @dict n entries hkeys _ ih =>
    have hentries : ∀ e ∈ entries, ∃ d : Text × Data, d.2.JsonWithin n ∧ (d.1, ofData d.2) = e := by
      intro e he
      obtain ⟨d, hd, hde⟩ := ih e he
      exact ⟨(e.1, d), hd, by rw [hde]⟩
    obtain ⟨ds, hds, rfl⟩ := exists_map_eq hentries
    refine ⟨.dict ds, .dict ?_ hds, ?_⟩
    · rwa [Entries.keys, List.map_map] at hkeys
    · rw [ofData, ofDataEntries_eq_mapEntries, mapEntries_eq_map]
      exact congrArg Value.dict (List.map_congr_left fun e _ => by rw [ofData_eq_map])

/-- The text of a collection is its JSON, and reading it gives the collection back. -/
theorem Value.read_display (host : Host φ) {v : Value (Template φ)} (hcollection : v.isCollection = true)
    (hjson : v.JsonWithin Json.maxDepth) : (Json.read? (v.display host)).map ofData = some v := by
  obtain ⟨d, hd, rfl⟩ := hjson.exists_ofData
  have htext : (ofData d : Value (Template φ)).display host = d.json Empty.elim := by
    rw [display, text_ofData, Data.text]
    cases d with
    | list | dict => rfl
    | template t => exact t.elim
    | _ => cases hcollection
  have hread := Json.value?_json hd (show Json.Ends [] from fun c hc => by cases hc)
  rw [List.append_nil] at hread
  rw [htext, Json.read?, (Json.begins_json hd).skipSpace_eq, hread]
  rfl

/-- Escapes in a key and a string, the least integer, and empty collections. -/
theorem Value.read_display_escapes :
    let v : Value (Template Empty) := .dict [
      ("\"\\\n\x01".toList, .list [.int Int64.minValue, .null, .list []]),
      ([], .dict [("é/".toList, .bool false), ("a".toList, .str "\r\x1f€".toList), ("b".toList, .dict [])])]
    let text := "\x7b\"\\\"\\\\\\n\\u0001\":[-9223372036854775808,null,[]],".toList ++
      "\"\":\x7b\"é/\":false,\"a\":\"\\r\\u001f€\",\"b\":\x7b\x7d\x7d\x7d".toList
    v.JsonWithin Json.maxDepth ∧ v.display Host.bare = text ∧ (Json.read? text).map ofData = some v := by
  intro v text
  have hempty : ∀ n, JsonWithin (n + 1) (.list [] : Value (Template Empty)) ∧
      JsonWithin (n + 1) (.dict [] : Value (Template Empty)) := fun n =>
    ⟨.list (by simp), .dict List.nodup_nil (by simp)⟩
  have hjson : v.JsonWithin Json.maxDepth := by
    refine .dict (by decide) (List.forall_mem_cons.2 ⟨.list ?_, List.forall_mem_singleton.2 (.dict (by decide) ?_)⟩)
    · simp [JsonWithin.int, JsonWithin.null, hempty]
    · simp [JsonWithin.bool, JsonWithin.str, hempty]
  have htext : v.display Host.bare = text := by decide +kernel
  exact ⟨hjson, htext, htext ▸ read_display Host.bare rfl hjson⟩

end Stencil
