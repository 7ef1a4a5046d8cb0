import Stencil.Proofs.InRange

/-! # Which formats are accepted

A format text is accepted exactly if it reads as items whose conversions are valid and find their
arguments, and the answer is the row of what the items show (`format_reads`). A conversion that names no
argument takes the one behind those that such conversions in front of it have taken. -/

namespace Stencil.Sprintf
open Text Conversion

/-- The letters that say how an argument is written. -/
def specifiers : Text := ['b', 'c', 'd', 'e', 'E', 'f', 'F', 'g', 'G', 'o', 's', 'u', 'x', 'X']

/-- A conversion that can be carried out if its argument exists. -/
structure Written.Valid (w : Written) : Prop where
  argument : ∀ n ∈ w.argument, 1 ≤ n.value
  width : w.width.value ≤ 4096
  precision : ∀ d ∈ w.precision, d.value ≤ 4096
  specifier : w.specifier ∈ specifiers

/-- The place of the argument, counted from zero, when `taken` arguments have been taken. -/
def Written.place (w : Written) (taken : Nat) : Nat := w.argument.elim taken (·.value - 1)

namespace Item

def takesNext : Item → Bool
  | conversion w => w.argument.isNone
  | _ => false

/-- How many arguments are taken in turn in front of the item with this index. -/
def taken (items : List Item) (i : Nat) : Nat := (items.take i).countP takesNext

variable {τ : Type}

/-- What an item stands for when `taken` arguments have been taken. -/
def Shows (shown : τ → Text) (args : List (Value τ)) (taken : Nat) : Item → Text → Prop
  | literal c, piece => piece = [c]
  | percent, piece => piece = ['%']
  | conversion w, piece => ∃ v, args[w.place taken]? = some v ∧ w.conversion.write shown v = .ok piece

end Item

variable {τ : Type} {shown : τ → Text} {args : List (Value τ)} {next : Nat} {item : Item} {items : List Item}
  {out : Text}

theorem Item.add_taken_succ (next i : Nat) : next + taken (item :: items) (i + 1) =
    (if item.takesNext then next + 1 else next) + taken items i := by
  rw [taken, List.take_succ_cons, List.countP_cons, taken]
  split <;> omega

theorem Written.valid_iff {w : Written} : w.Valid ↔ w.InBounds ∧ w.specifier ∈ specifiers :=
  ⟨fun h => ⟨⟨h.argument, h.width, h.precision⟩, h.specifier⟩,
    fun ⟨h, hs⟩ => ⟨h.argument, h.width, h.precision, hs⟩⟩

theorem mem_specifiers_iff (c : Char) : c ∈ specifiers ↔ (Specifier.ofChar? c).isSome = true := by
  constructor
  · have hall : ∀ c ∈ specifiers, (Specifier.ofChar? c).isSome = true := by decide
    exact hall c
  · intro h
    unfold Specifier.ofChar? at h
    split at h
    case h_15 => cases h
    all_goals decide

variable (shown) in
theorem exists_write_iff (c : Conversion) (v : Value τ) :
    (∃ piece, c.write shown v = .ok piece) ↔ c.specifier ∈ specifiers := by
  rw [mem_specifiers_iff, Conversion.write]
  cases Specifier.ofChar? c.specifier with
  | none => simp
  | some specifier => cases specifier <;> simp

/-- A number that is too large for a word is the number of no argument. -/
theorem getElem?_capped (hargs : args.length < maxNumber) (w : Written) (next : Nat) :
    args[w.conversion.capped.argument.elim next (· - 1)]? = args[w.place next]? := by
  obtain ⟨_ | n, flags, width, precision, specifier⟩ := w
  · rfl
  · show args[min n.value maxNumber - 1]? = args[n.value - 1]?
    by_cases hn : n.value ≤ maxNumber
    · rw [Nat.min_eq_left hn]
    · rw [List.getElem?_eq_none (by omega), List.getElem?_eq_none (by omega)]

theorem fill_cons_iff (hargs : args.length < maxNumber) :
    fill shown args next ((item :: items).map Item.directive) = .ok out ↔
      ∃ piece behind, item.Shows shown args next piece ∧
        fill shown args (if item.takesNext then next + 1 else next) (items.map Item.directive) = .ok behind ∧
        out = piece ++ behind := by
  rw [List.map_cons]
  cases item with
  | literal _ | percent =>
    simp only [Item.directive, fill, bind_eq_ok_iff, Item.Shows, Item.takesNext, Bool.false_eq_true, if_false]
    constructor
    · rintro ⟨behind, hbehind, ⟨⟩⟩
      exact ⟨_, behind, rfl, hbehind, rfl⟩
    · rintro ⟨_, behind, rfl, hbehind, rfl⟩
      exact ⟨behind, hbehind, rfl⟩
  | conversion w =>
    have htakes : (if w.conversion.capped.argument.isSome then next else next + 1) =
        if (Item.conversion w).takesNext then next + 1 else next := by
      obtain ⟨_ | n, flags, width, precision, specifier⟩ := w <;> rfl
    simp only [Item.directive, fill, getElem?_capped hargs, htakes, Item.Shows]
    cases args[w.place next]? with
    | none => simp [throw, throwThe, MonadExceptOf.throw]
    | some v =>
      simp only [bind_eq_ok_iff]
      constructor
      · rintro ⟨piece, hpiece, behind, hbehind, ⟨⟩⟩
        exact ⟨piece, behind, ⟨v, rfl, hpiece⟩, hbehind, rfl⟩
      · rintro ⟨piece, behind, ⟨_, ⟨⟩, hpiece⟩, hbehind, rfl⟩
        exact ⟨piece, hpiece, behind, hbehind, rfl⟩

theorem exists_pieces (hargs : args.length < maxNumber)
    (h : fill shown args next (items.map Item.directive) = .ok out) :
    ∃ pieces : List Text, out = pieces.flatten ∧ pieces.length = items.length ∧
      ∀ (i : Nat) (item : Item) (piece : Text), items[i]? = some item → pieces[i]? = some piece →
        item.Shows shown args (next + Item.taken items i) piece := by
  induction items generalizing next out with
  | nil =>
    cases h
    exact ⟨[], rfl, rfl, nofun⟩
  | cons item items ih =>
    obtain ⟨piece, behind, hpiece, hbehind, rfl⟩ := (fill_cons_iff hargs).1 h
    obtain ⟨pieces, rfl, hlength, hpieces⟩ := ih hbehind
    refine ⟨piece :: pieces, rfl, congrArg (· + 1) hlength, ?_⟩
    rintro (_ | i) item' piece' hitem hpiece'
    · cases hitem
      cases hpiece'
      exact hpiece
    · rw [Item.add_taken_succ]
      exact hpieces i item' piece' hitem hpiece'

theorem exists_fill (hargs : args.length < maxNumber)
    (h : ∀ (i : Nat) (item : Item), items[i]? = some item →
      ∃ piece, item.Shows shown args (next + Item.taken items i) piece) :
    ∃ out, fill shown args next (items.map Item.directive) = .ok out := by
  induction items generalizing next with
  | nil => exact ⟨[], rfl⟩
  | cons item items ih =>
    obtain ⟨piece, hpiece⟩ := h 0 item rfl
    obtain ⟨behind, hbehind⟩ := ih fun i item' hitem => by
      rw [← Item.add_taken_succ]
      exact h (i + 1) item' hitem
    exact ⟨piece ++ behind, (fill_cons_iff hargs).2 ⟨piece, behind, hpiece, hbehind, rfl⟩⟩

theorem Item.exists_shows_iff {taken : Nat} : (∃ piece, item.Shows shown args taken piece) ↔
    ∀ w, item = .conversion w → w.place taken < args.length ∧ w.specifier ∈ specifiers := by
  cases item with
  | literal _ | percent => exact ⟨nofun, fun _ => ⟨_, rfl⟩⟩
  | conversion w =>
    constructor
    · rintro ⟨piece, v, hv, hpiece⟩ _ ⟨⟩
      exact ⟨(List.getElem?_eq_some_iff.1 hv).1, (exists_write_iff shown _ v).1 ⟨piece, hpiece⟩⟩
    · intro h
      obtain ⟨hplace, hspecifier⟩ := h w rfl
      obtain ⟨piece, hpiece⟩ := (exists_write_iff shown w.conversion args[w.place taken]).2 hspecifier
      exact ⟨piece, _, List.getElem?_eq_getElem hplace, hpiece⟩

theorem format_eq_ok_iff {text : Text} : format shown text args = .ok out ↔
    (Directive.readAll text).2 = none ∧ fill shown args 0 (Directive.readAll text).1 = .ok out := by
  rw [format]
  obtain ⟨directives, fault⟩ := Directive.readAll text
  dsimp only
  cases fill shown args 0 directives <;> cases fault <;> simp

theorem Reads.format_eq_ok_iff {text : Text} (h : Reads text items) : format shown text args = .ok out ↔
    (∀ item ∈ items, item.InBounds) ∧ fill shown args 0 (items.map Item.directive) = .ok out := by
  rw [Sprintf.format_eq_ok_iff]
  constructor
  · rintro ⟨hend, hfill⟩
    have hbounds := h.inBounds hend
    rw [h.readAll_eq hbounds] at hfill
    exact ⟨hbounds, hfill⟩
  · rintro ⟨hbounds, hfill⟩
    rw [h.readAll_eq hbounds]
    exact ⟨rfl, hfill⟩

theorem Reads.exists_format_iff {text : Text} (h : Reads text items) (hargs : args.length < maxNumber) :
    (∃ out, format shown text args = .ok out) ↔
      ∀ (i : Nat) (w : Written), items[i]? = some (.conversion w) →
        w.Valid ∧ w.place (Item.taken items i) < args.length := by
  simp only [h.format_eq_ok_iff, Written.valid_iff]
  constructor
  · rintro ⟨out, hbounds, hfill⟩ i w hw
    obtain ⟨pieces, -, hlength, hpieces⟩ := exists_pieces hargs hfill
    have hi : i < pieces.length := hlength ▸ (List.getElem?_eq_some_iff.1 hw).1
    have hshows := hpieces i _ _ hw (List.getElem?_eq_getElem hi)
    rw [Nat.zero_add] at hshows
    obtain ⟨hplace, hspecifier⟩ := Item.exists_shows_iff.1 ⟨_, hshows⟩ w rfl
    exact ⟨⟨hbounds _ (List.mem_of_getElem? hw), hspecifier⟩, hplace⟩
  · intro hall
    obtain ⟨out, hfill⟩ : ∃ out, fill shown args 0 (items.map Item.directive) = .ok out := by
      refine exists_fill hargs fun i item hitem => Item.exists_shows_iff.2 ?_
      rintro w rfl
      obtain ⟨⟨-, hspecifier⟩, hplace⟩ := hall i w hitem
      exact ⟨by rwa [Nat.zero_add], hspecifier⟩
    refine ⟨out, fun item hitem => ?_, hfill⟩
    obtain ⟨i, hi⟩ := List.getElem?_of_mem hitem
    cases item with
    | literal _ | percent => trivial
    | conversion w => exact (hall i w hi).1.1

/-- A format is accepted exactly if it reads as items whose conversions are valid and have their arguments; it
answers with what the items show in a row, or with an error of a filter. A machine that reads by positions answers
the same, and no step of it leaves the words or the text. -/
theorem format_reads (shown : τ → Text) (text : Text) (args : List (Value τ)) (htext : text.length ≤ Machine.maxLength)
    (hargs : args.length ≤ Machine.maxLength) :
    ((∃ out, format shown text args = .ok out) ↔ ∃ items, Reads text items ∧
      ∀ (i : Nat) (w : Written), items[i]? = some (.conversion w) →
        w.Valid ∧ w.place (Item.taken items i) < args.length) ∧
    (∀ items out, Reads text items → format shown text args = .ok out →
      ∃ pieces : List Text, out = pieces.flatten ∧ pieces.length = items.length ∧
        ∀ (i : Nat) (item : Item) (piece : Text), items[i]? = some item → pieces[i]? = some piece →
          item.Shows shown args (Item.taken items i) piece) ∧
    (∀ e, format shown text args = .error e → e.kind = .filter) ∧
    ∃ answer : Except Fault Text, Machine.format shown text args = answer.mapError .fault ∧
      format shown text args = answer.mapError (.badFormat text) := by
  have hword : Machine.maxLength + 2 ≤ maxNumber := by decide
  have hargs : args.length < maxNumber := by omega
  obtain ⟨answer, hmachine, hanswer⟩ := Machine.format_eq (s := text) shown args (by omega)
  refine ⟨⟨?_, ?_⟩, ?_, ?_, answer, hmachine, hanswer⟩
  · rintro ⟨out, hout⟩
    obtain ⟨items, hitems⟩ := exists_reads (format_eq_ok_iff.1 hout).1
    exact ⟨items, hitems, (hitems.exists_format_iff hargs).1 ⟨out, hout⟩⟩
  · rintro ⟨items, hitems, hall⟩
    exact (hitems.exists_format_iff hargs).2 hall
  · intro items out hitems hout
    simpa using exists_pieces hargs (hitems.format_eq_ok_iff.1 hout).2
  · intro e he
    rw [he] at hanswer
    cases answer with
    | ok out => cases hanswer
    | error fault =>
      cases hanswer
      rfl

/-- The second argument, and then the first one behind stars. -/
theorem format_second_then_padded :
    let text : Text := ['%', '2', '$', 's', ' ', '%', '\'', '*', '5', 'd', '%', '%']
    let args : List (Value Empty) := [.int 7, .str ['a', 'b']]
    text.length ≤ Machine.maxLength ∧ args.length ≤ Machine.maxLength ∧
      format Empty.elim text args = .ok ['a', 'b', ' ', '*', '*', '*', '*', '7', '%'] ∧
      ∃ items, Reads text items ∧ ∀ (i : Nat) (w : Written), items[i]? = some (.conversion w) →
        w.Valid ∧ w.place (Item.taken items i) < args.length := by
  intro text args
  have hformat : format Empty.elim text args = .ok ['a', 'b', ' ', '*', '*', '*', '*', '7', '%'] := by decide +kernel
  have htext : text.length ≤ Machine.maxLength := by decide
  have hargs : args.length ≤ Machine.maxLength := by decide
  exact ⟨htext, hargs, hformat, (format_reads Empty.elim text args htext hargs).1.1 ⟨_, hformat⟩⟩

end Stencil.Sprintf
