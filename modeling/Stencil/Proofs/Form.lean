import Mathlib.Data.List.Basic
import Stencil.Filter.Call
import Stencil.Template.Substitute
import Stencil.Proofs.Default
import Stencil.Proofs.Loading
import Stencil.Proofs.Reading

/-! # Placeholders as they are written

A `Form` is a placeholder given by its parts: a key, an attribute, filter calls and a default. Laid out
with horizontal space between any two tokens, it is normalized to the row of its tokens
(`Form.normalize_of_laidOut`), and the parts are read back from that row (`Form.ofPlaceholder?_text`,
`Call.ofText?_text`, `Form.cut_defaulted_text`). -/

namespace Stencil
open Text Placeholder

/-- A word, a mark, or a quotation. -/
inductive Token where
  | signs (text : Text) (isSign : ∀ c ∈ text, isSign c = true)
  | quotation (d : Quotation)

namespace Token

def text : Token → Text
  | signs t _ => t
  | quotation d => d.text

def pieces : Token → List (Piece Unit)
  | signs t _ => t.map .plain
  | quotation d => [.hit () d.text]

/-- Tokens in a row, with horizontal space behind each of them. -/
inductive Layout : List Token → Text → Prop
  | nil : Layout [] []
  | cons (t : Token) {ts : List Token} {gap s : Text} (hgap : ∀ c ∈ gap, isGap c = true) (h : Layout ts s) :
    Layout (t :: ts) (t.text ++ gap ++ s)

theorem quotePieces_text (t : Token) (s : Text) : quotePieces (t.text ++ s) = t.pieces ++ quotePieces s := by
  cases t with
  | signs u hu => exact quotePieces_signs (fun c hc => (isSign_spec (hu c hc)).1) s
  | quotation d => exact quotePieces_quotation d s

theorem quotePieces_flatMap (ts : List Token) (s : Text) :
    quotePieces (ts.flatMap text ++ s) = ts.flatMap pieces ++ quotePieces s := by
  induction ts with
  | nil => rfl
  | cons t ts ih =>
    rw [List.flatMap_cons, List.append_assoc, quotePieces_text, ih, List.flatMap_cons, List.append_assoc]

theorem not_mem_text {c : Char} (hc : isSign c = false) (hquote : isQuote c = false)
    (hinner : ∀ d : Quotation, c ∉ d.inner) (t : Token) : c ∉ t.text := by
  cases t with
  | signs u hu =>
    exact fun hm => ne_of_holds (hu c hm) hc rfl
  | quotation d =>
    have hne : c ≠ d.quote := (ne_of_holds d.isQuote hquote).symm
    simp [text, Quotation.text, hne, hinner d]

theorem closing_not_mem_text (t : Token) : '}' ∉ t.text :=
  t.not_mem_text (by decide) (by decide) fun d => d.no_closing

theorem newline_not_mem_text (t : Token) : '\n' ∉ t.text :=
  t.not_mem_text (by decide) (by decide) fun d => d.one_line

end Token

theorem Token.compress_text (t : Token) (s : Text) : compress (t.text ++ s) = t.text ++ compress s := by
  rw [compress_append (t.quotePieces_text s)]
  cases t with
  | signs u hu => rw [pieces, flatMap_compressed_signs fun c hc => (isSign_spec (hu c hc)).2.1, text]
  | quotation d => simp [pieces, compressed, text]

theorem Token.Layout.compress_append {ts : List Token} {s : Text} (h : Layout ts s) (r : Text) :
    compress (s ++ r) = ts.flatMap Token.text ++ compress r := by
  induction h with
  | nil => rfl
  | cons t hgap _ ih =>
    rw [List.append_assoc, List.append_assoc, t.compress_text, compress_gap hgap, ih, List.flatMap_cons,
      List.append_assoc]

theorem Token.Layout.not_mem {ts : List Token} {s : Text} (h : Layout ts s) {c : Char} (hc : isGap c = false)
    (hts : ∀ t ∈ ts, c ∉ t.text) : c ∉ s := by
  induction h with
  | nil => simp
  | cons t hgap _ ih =>
    have hno : c ∉ _ := fun hm => ne_of_holds (hgap c hm) hc rfl
    simp only [List.mem_append, not_or]
    exact ⟨⟨hts t List.mem_cons_self, hno⟩, ih fun u hu => hts u (List.mem_cons_of_mem _ hu)⟩

theorem Token.Layout.tight (ts : List Token) : Layout ts (ts.flatMap Token.text) := by
  induction ts with
  | nil => exact .nil
  | cons t ts ih =>
    have h := Layout.cons t (show ∀ c ∈ ([] : Text), isGap c = true by simp) ih
    rwa [List.append_nil] at h

theorem Token.Layout.ne_nil {t : Token} {ts : List Token} {s : Text} (h : Layout (t :: ts) s) (ht : t.text ≠ []) :
    s ≠ [] := by
  cases h
  simp [ht]

theorem Token.texts_flatMap_pieces (ts : List Token) : Piece.texts (ts.flatMap pieces) = ts.flatMap text := by
  induction ts with
  | nil => rfl
  | cons t ts ih =>
    rw [List.flatMap_cons, Piece.texts_append, ih, List.flatMap_cons]
    cases t with
    | signs u hu => rw [pieces, Piece.texts_map_plain, text]
    | quotation d => simp [pieces, text]

/-! ### Forms -/

/-- A quoted argument, which loses nothing with its quotes. -/
structure Argument extends Quotation where
  ne_nil : inner ≠ []
  head : inner.head?.all (!Placeholder.isQuote ·) = true
  last : inner.getLast?.all (!Placeholder.isQuote ·) = true

/-- A filter call: a name, and an argument between parentheses. -/
structure Call where
  name : Text
  isKey : IsKey name
  arg : Option Argument

structure Attribute where
  text : Text
  ne_nil : text ≠ []
  chars : ∀ c ∈ text, Slot.isPathChar c = true

/-- The parts of a placeholder. -/
structure Form where
  key : Text
  isKey : IsKey key
  attr : Option Attribute
  calls : List Call
  default : Option Quotation

def Call.text (call : Call) : Text := call.name ++ call.arg.elim [] fun a => '(' :: a.text ++ [')']

def Call.tokens (call : Call) : List Token :=
  .signs call.name (fun c hc => isSign_of_isKeyChar (call.isKey.chars c hc)) ::
    call.arg.elim [] fun a => [.signs ['('] (by decide), .quotation a.toQuotation, .signs [')'] (by decide)]

namespace Call

theorem text_tokens (call : Call) : call.tokens.flatMap Token.text = call.text := by
  cases h : call.arg <;> simp [tokens, text, Token.text, h]

theorem quotePieces_text (call : Call) (s : Text) :
    quotePieces (call.text ++ s) = call.tokens.flatMap Token.pieces ++ quotePieces s := by
  rw [← call.text_tokens, Token.quotePieces_flatMap]

/-- Between quotations stand the characters of the name and two parentheses. -/
theorem plain_not_mem_pieces (call : Call) {c : Char} (hkey : isKeyChar c = false) (hc : c ∉ ['(', ')']) :
    .plain c ∉ call.tokens.flatMap Token.pieces := by
  have hname : c ∉ call.name := call.isKey.not_mem hkey
  simp only [List.mem_cons, List.not_mem_nil, or_false, not_or] at hc
  cases h : call.arg <;> simp [tokens, Token.pieces, h, hname, hc.1, hc.2]

theorem head_text (call : Call) : ∃ c rest, call.text = c :: rest ∧ isKeyChar c = true := by
  obtain ⟨c, rest, h⟩ := List.exists_cons_of_ne_nil call.isKey.ne_nil
  exact ⟨c, rest ++ _, by rw [text, h]; rfl, call.isKey.chars c (h ▸ List.mem_cons_self)⟩

theorem last_text (call : Call) : ∃ front c, call.text = front ++ [c] ∧ c ≠ '|' := by
  cases h : call.arg with
  | none =>
    have hne := call.isKey.ne_nil
    refine ⟨call.name.dropLast, call.name.getLast hne, ?_, ?_⟩
    · simp [text, h, List.dropLast_concat_getLast]
    · exact ne_of_holds (call.isKey.chars _ (List.getLast_mem hne)) (by decide)
  | some a => exact ⟨call.name ++ '(' :: a.text, ')', by simp [text, h], by decide⟩

end Call

namespace Form

def attrTokens (form : Form) : List Token :=
  form.attr.elim [] fun a =>
    [.signs ['.'] (by decide), .signs a.text fun c hc => isSign_of_isPathChar (a.chars c hc)]

def callTokens (form : Form) : List Token :=
  form.calls.flatMap fun call => .signs ['|'] (by decide) :: call.tokens

def defaultTokens (form : Form) : List Token :=
  form.default.elim [] fun d => [.signs ['?', '?'] (by decide), .quotation d]

/-- What stands between the braces. -/
def tokens (form : Form) : List Token :=
  .signs form.key (fun c hc => isSign_of_isKeyChar (form.isKey.chars c hc)) :: form.attrTokens ++
    form.callTokens ++ form.defaultTokens

/-- The placeholder without space between its tokens. -/
def text (form : Form) : Text := braced (form.tokens.flatMap Token.text)

/-- The placeholder with horizontal space between any two of its tokens. -/
def LaidOut (form : Form) (raw : Text) : Prop :=
  ∃ gap s, (∀ c ∈ gap, isGap c = true) ∧ Token.Layout form.tokens s ∧ raw = braced (gap ++ s)

/-- What a placeholder of this form asks for. -/
def slot (form : Form) : Slot where
  key := form.key
  attr := form.attr.map (·.text)
  filters := form.calls.map (·.text)
  default := form.default.map (·.inner)

theorem text_callTokens (form : Form) :
    form.callTokens.flatMap Token.text = form.calls.flatMap ('|' :: ·.text) := by
  rw [callTokens, List.flatMap_assoc]
  congr 1
  funext call
  rw [List.flatMap_cons, call.text_tokens]; rfl

theorem text_tokens (form : Form) :
    form.tokens.flatMap Token.text =
      form.slot.written ++ (form.calls.flatMap ('|' :: ·.text) ++ form.default.elim [] ('?' :: '?' :: ·.text)) := by
  rw [tokens, List.flatMap_append, List.cons_append, List.flatMap_cons, List.flatMap_append, text_callTokens,
    Slot.written]
  cases ha : form.attr <;> cases hd : form.default <;>
    simp [attrTokens, defaultTokens, slot, Token.text, ha, hd]

theorem key_head (form : Form) : ∃ c rest, form.key = c :: rest ∧ isKeyChar c = true := by
  obtain ⟨c, rest, h⟩ := List.exists_cons_of_ne_nil form.isKey.ne_nil
  exact ⟨c, rest, h, form.isKey.chars c (h ▸ List.mem_cons_self)⟩

theorem not_mem_body (form : Form) {c : Char} (h : ∀ t : Token, c ∉ t.text) :
    c ∉ form.tokens.flatMap Token.text := by
  rw [List.mem_flatMap]
  rintro ⟨t, -, ht⟩
  exact h t ht

theorem laidOut_text (form : Form) : form.LaidOut form.text :=
  ⟨[], _, by simp, .tight _, rfl⟩

theorem compress_of_laidOut {form : Form} {raw : Text} (h : form.LaidOut raw) : compress raw = form.text := by
  obtain ⟨gap, s, hgap, hs, rfl⟩ := h
  refine compress_braced ?_
  rw [List.append_assoc, compress_gap hgap, hs.compress_append]

theorem isWellFormed_text (form : Form) : isWellFormed form.text = true := by
  obtain ⟨c, rest, hkey, hc⟩ := form.key_head
  have hline : '\n' ∉ form.tokens.flatMap Token.text := form.not_mem_body Token.newline_not_mem_text
  obtain ⟨body, hbody⟩ : ∃ body, form.tokens.flatMap Token.text = c :: body := by
    rw [text_tokens, Slot.written, slot, hkey]; exact ⟨_, rfl⟩
  have hends : (strip? opening form.text).bind (stripEnd? closing) = some (c :: body) := by
    rw [text, braced, List.append_assoc, strip?_append, hbody]
    exact stripEnd?_eq_some_iff.2 rfl
  rw [hbody] at hline
  rw [isWellFormed, hends]
  simpa [isKeyChar] using And.intro hc hline

theorem normalize_of_laidOut {form : Form} {raw : Text} (h : form.LaidOut raw) :
    Placeholder.normalize raw = .ok form.text := by
  have hcompress := compress_of_laidOut h
  obtain ⟨gap, s, hgap, hs, rfl⟩ := h
  have hclosing : '}' ∉ gap ++ s := by
    have hno : '}' ∉ gap := fun hm => ne_of_holds (hgap _ hm) (by decide) rfl
    simpa [hno] using hs.not_mem (by decide) fun t _ => t.closing_not_mem_text
  have hne : gap ++ s ≠ [] := by
    have := Token.Layout.ne_nil hs form.isKey.ne_nil
    simp [this]
  rw [Placeholder.normalize, find_braced hclosing hne, normalizeEach, hcompress, if_pos form.isWellFormed_text,
    normalizeEach]
  split
  · next heq => rw [heq]
  · rw [replace_self (braced_ne_nil _)]

/-! ### Reading the parts -/

theorem splitOutside_calls (call : Call) (calls : List Call) :
    splitOutside '|' (quotePieces (call.text ++ calls.flatMap ('|' :: ·.text))) =
      call.text :: calls.map Call.text := by
  induction calls generalizing call with
  | nil =>
    rw [List.flatMap_nil, call.quotePieces_text, show quotePieces [] = [] from rfl, List.append_nil,
      splitOutside_of_not_mem (call.plain_not_mem_pieces (by decide) (by decide)), Token.texts_flatMap_pieces,
      call.text_tokens]
    rfl
  | cons d calls ih =>
    have hbar : quotePieces ('|' :: (d.text ++ calls.flatMap ('|' :: ·.text))) =
        .plain '|' :: quotePieces (d.text ++ calls.flatMap ('|' :: ·.text)) :=
      quotePieces_signs (u := ['|']) (by decide) _
    rw [List.flatMap_cons, List.cons_append, call.quotePieces_text, hbar,
      splitOutside_append_cons (call.plain_not_mem_pieces (by decide) (by decide)), Token.texts_flatMap_pieces,
      call.text_tokens, ih, List.map_cons]

theorem last_calls (call : Call) (calls : List Call) :
    ∀ c, (call.text ++ calls.flatMap ('|' :: ·.text)).getLast? = some c → (c == '|') = false := by
  induction calls generalizing call with
  | nil =>
    intro c hc
    obtain ⟨front, d, htext, hd⟩ := call.last_text
    rw [List.flatMap_nil, List.append_nil, htext, List.getLast?_concat] at hc
    obtain rfl := Option.some.inj hc
    simpa using hd
  | cons d calls ih =>
    intro c hc
    obtain ⟨e, rest, htext, -⟩ := d.head_text
    refine ih d c ?_
    have hne : d.text ++ calls.flatMap ('|' :: ·.text) ≠ [] := by simp [htext]
    rw [← hc, List.flatMap_cons, List.cons_append, List.append_cons, List.getLast?_append_of_ne_nil _ hne]

theorem filters?_calls (calls : List Call) :
    Slot.filters? (calls.flatMap ('|' :: ·.text)) = some (calls.map Call.text) := by
  cases calls with
  | nil => rfl
  | cons call calls =>
    obtain ⟨c, rest, htext, hc⟩ := call.head_text
    have hbar : (c == '|') = false := by
      rw [beq_eq_false_iff_ne]
      exact ne_of_holds hc (by decide)
    have hstart : trimStart (· == '|') ('|' :: (call.text ++ calls.flatMap ('|' :: ·.text))) =
        call.text ++ calls.flatMap ('|' :: ·.text) :=
      trimStart_run (u := ['|']) (by decide) fun d hd => by
        rw [htext] at hd
        obtain rfl := Option.some.inj hd
        exact hbar
    have hend := trimEnd_run (p := (· == '|')) (u := []) (by simp) (last_calls call calls)
    rw [List.append_nil] at hend
    have hne : ∀ t ∈ call.text :: calls.map Call.text, (!t.isEmpty) = true := by
      rintro t ht
      obtain ⟨d, -, rfl⟩ := List.mem_map.1 (List.map_cons (f := Call.text) ▸ ht)
      obtain ⟨e, u, hu, -⟩ := d.head_text
      rw [hu]; rfl
    have hfilters : Slot.filters? ('|' :: (call.text ++ calls.flatMap ('|' :: ·.text))) =
        some ((splitOutside '|' (quotePieces (trimBoth (· == '|')
          ('|' :: (call.text ++ calls.flatMap ('|' :: ·.text)))))).filter (!·.isEmpty)) := by
      rw [htext]; rfl
    rw [List.flatMap_cons, List.cons_append, hfilters, trimBoth, hstart, hend, splitOutside_calls,
      List.filter_eq_self.2 hne, List.map_cons]

theorem splitDefault_tail (form : Form) :
    splitDefault (quotePieces
        (form.calls.flatMap ('|' :: ·.text) ++ form.default.elim [] ('?' :: '?' :: ·.text))) =
      (form.calls.flatMap ('|' :: ·.text), form.default.map (·.text)) := by
  have hno : .plain '?' ∉ form.callTokens.flatMap Token.pieces := by
    rw [callTokens, List.flatMap_assoc, List.mem_flatMap]
    rintro ⟨call, -, hm⟩
    rw [List.flatMap_cons, List.mem_append] at hm
    rcases hm with hm | hm
    · simp [Token.pieces] at hm
    · exact call.plain_not_mem_pieces (by decide) (by decide) hm
  rw [← text_callTokens, Token.quotePieces_flatMap, splitDefault_append hno, Token.texts_flatMap_pieces]
  cases form.default with
  | none => simp [show quotePieces [] = [] from rfl, splitDefault]
  | some d =>
    have hd : splitDefault (quotePieces ('?' :: '?' :: d.text)) = ([], some d.text) := splitDefault_quotation d
    simp [hd]

theorem reads (form : Form) :
    Slot.Reads (form.tokens.flatMap Token.text)
      (form.calls.flatMap ('|' :: ·.text) ++ form.default.elim [] ('?' :: '?' :: ·.text)) form.slot where
  body_eq := form.text_tokens
  path_ne_nil := by simp [Slot.written, slot, form.isKey.ne_nil]
  path_chars c hc := by
    rcases List.mem_append.1 hc with hc | hc
    · exact isPathChar_of_isKeyChar (form.isKey.chars c hc)
    · cases ha : form.attr with
      | none => simp [slot, ha] at hc
      | some a =>
        simp only [slot, ha, Option.map_some, Option.elim_some, List.mem_cons] at hc
        rcases hc with rfl | hc
        · rfl
        · exact a.chars c hc
  no_dot := form.isKey.not_mem (by decide)
  tail_head c hc := by
    have hmark : c = '|' ∨ c = '?' := by
      cases hcalls : form.calls with
      | cons call calls => rw [hcalls] at hc; exact .inl (Option.some.inj hc).symm
      | nil =>
        rw [hcalls] at hc
        cases hd : form.default with
        | none => rw [hd] at hc; cases hc
        | some d => rw [hd] at hc; exact .inr (Option.some.inj hc).symm
    rcases hmark with rfl | rfl <;> rfl
  one_line := form.not_mem_body Token.newline_not_mem_text
  tail_eq := ⟨_, _, form.splitDefault_tail, filters?_calls form.calls, by
    show form.default.map (·.inner) = (form.default.map (·.text)).map stripQuotes
    cases form.default <;> simp [stripQuotes_quotation]⟩

theorem head_body (form : Form) : ∃ c rest, form.tokens.flatMap Token.text = c :: rest ∧ isKeyChar c = true := by
  obtain ⟨c, rest, hkey, hc⟩ := form.key_head
  rw [text_tokens, Slot.written, slot, hkey]
  exact ⟨c, _, rfl, hc⟩

theorem ofPlaceholder?_text (form : Form) : Slot.ofPlaceholder? form.text = some form.slot := by
  refine (Slot.ofPlaceholder?_braced_eq_some_iff (fun h => ?_) (fun h => ?_)).2 ⟨_, form.reads⟩
  · obtain ⟨c, rest, hbody, hc⟩ := form.head_body
    rw [hbody] at h
    exact ne_of_holds hc (by decide) (Option.some.inj h)
  · exact form.not_mem_body Token.closing_not_mem_text (List.mem_of_getLast? h)

end Form

theorem Call.ofText?_text (call : Call) :
    FilterCall.ofText? call.text = some ⟨call.name, call.arg.map (·.inner)⟩ := by
  have hname : call.text.takeWhile isWord = call.name := by
    refine takeWhile_run (fun c hc => isWord_of_isKeyChar (call.isKey.chars c hc)) fun c hc => ?_
    cases h : call.arg with
    | none => rw [h] at hc; cases hc
    | some a => rw [h] at hc; obtain rfl := Option.some.inj hc; decide
  have hne : ¬ call.name.isEmpty = true := by simpa using call.isKey.ne_nil
  have hrest : call.text.drop call.name.length = call.arg.elim [] fun a => '(' :: a.text ++ [')'] := by
    rw [text, List.drop_left]
  simp only [FilterCall.ofText?, hname, if_neg hne, hrest]
  cases h : call.arg with
  | none => rfl
  | some a =>
    have hline : '\n' ∉ a.text := (Token.quotation a.toQuotation).newline_not_mem_text
    have hopen : strip? ['('] ('(' :: (a.text ++ [')'])) = some (a.text ++ [')']) := strip?_append ['('] _
    have hclose : stripEnd? [')'] (a.text ++ [')']) = some a.text := stripEnd?_eq_some_iff.2 rfl
    have hquote : ∀ c ∈ [a.quote], isQuote c = true := by simpa using a.isQuote
    have hlast : trimEnd isQuote (a.inner ++ [a.quote]) = a.inner := trimEnd_run hquote fun c hc => by
      have := a.last; rw [hc] at this; simpa using this
    have htrim : trimBoth isQuote a.text = a.inner := by
      rw [trimBoth, show a.text = [a.quote] ++ (a.inner ++ [a.quote]) from rfl, trimStart_run hquote, hlast]
      intro c hc
      obtain ⟨d, rest, hinner⟩ := List.exists_cons_of_ne_nil a.ne_nil
      have := a.head
      rw [hinner] at hc this
      obtain rfl : d = c := Option.some.inj hc
      simpa using this
    simp [hopen, hclose, hline, htrim, a.ne_nil]

namespace Form

/-- What stands before the mark of the default. -/
def head (form : Form) : Text := form.slot.written ++ form.calls.flatMap ('|' :: ·.text)

/-- No argument holds a character that ends the search for a default. -/
def Unmarked (form : Form) : Prop :=
  ∀ call ∈ form.calls, ∀ a, call.arg = some a → '?' ∉ a.inner ∧ '{' ∉ a.inner

/-- The default that the pass for defaults sees; an empty one it does not. -/
def literal? (form : Form) : Option Text := form.slot.default.filter (!·.isEmpty)

theorem text_eq_braced {form : Form} (h : form.default = none) : form.text = braced form.head := by
  rw [text, text_tokens, h, head, Option.elim_none, List.append_nil]

theorem text_eq_withDefault {form : Form} {d : Quotation} (h : form.default = some d) :
    form.text = withDefault form.head d.quote d.inner := by
  rw [text, text_tokens, h, withDefault, head, ← List.append_assoc]; rfl

theorem head_ne_nil (form : Form) : form.head ≠ [] := by
  simp [head, Slot.written, slot, form.isKey.ne_nil]

theorem isHead_of_isPathChar {c : Char} (h : Slot.isPathChar c = true) : isHead c = true := by
  have hne : ∀ d, Slot.isPathChar d = false → c ≠ d := fun _ => ne_of_holds h
  simp [isHead, hne '?' (by decide), hne '{' (by decide), hne '}' (by decide)]

theorem isHead_head {form : Form} (h : form.Unmarked) : ∀ c ∈ form.head, isHead c = true := by
  intro c hc
  rcases List.mem_append.1 hc with hc | hc
  · exact isHead_of_isPathChar (form.reads.path_chars c hc)
  · obtain ⟨call, hcall, hc⟩ := List.mem_flatMap.1 hc
    rcases List.mem_cons.1 hc with rfl | hc
    · rfl
    rcases List.mem_append.1 hc with hc | hc
    · exact isHead_of_isPathChar (isPathChar_of_isKeyChar (call.isKey.chars c hc))
    · cases ha : call.arg with
      | none => rw [ha] at hc; cases hc
      | some a =>
        have hquote : isHead a.quote = true := by
          rcases isQuote_cases a.isQuote with hq | hq <;> rw [hq] <;> rfl
        have hinner : c ∈ a.inner → isHead c = true := fun hm => by
          obtain ⟨hmark, hopen⟩ := h call hcall a ha
          have hne : ∀ d, d ∉ a.inner → c ≠ d := fun d hd hcd => hd (hcd ▸ hm)
          simp [isHead, hne _ hmark, hne _ hopen, hne _ a.no_closing]
        simp only [ha, Option.elim_some, Quotation.text, List.mem_cons, List.mem_append, List.cons_append,
          List.not_mem_nil, or_false] at hc
        rcases hc with rfl | rfl | (hc | rfl) | rfl
        exacts [rfl, hquote, hinner hc, hquote, rfl]

theorem cut_defaulted_text {form : Form} (h : form.Unmarked) :
    cut defaulted form.text = form.literal?.elim (form.text.map .plain) fun l => [.hit l form.text] := by
  have hhead := isHead_head h
  have hopen : '{' ∉ form.head := fun hm => ne_of_holds (hhead _ hm) (by decide) rfl
  cases hd : form.default with
  | none =>
    rw [show form.literal? = none by simp [literal?, slot, hd], text_eq_braced hd]
    exact cut_defaulted_braced hopen (defaulted_braced hhead form.head_ne_nil)
  | some d =>
    rw [text_eq_withDefault hd]
    by_cases hinner : d.inner = []
    · rw [show form.literal? = none by simp [literal?, slot, hd, hinner], hinner]
      refine cut_defaulted_braced ?_ (defaulted_withDefault_nil hhead form.head_ne_nil d.isQuote)
      have hquote : '{' ≠ d.quote := (ne_of_holds d.isQuote (by decide)).symm
      simp [hopen, hquote]
    · rw [show form.literal? = some d.inner by simp [literal?, slot, hd, hinner]]
      exact cut_withDefault hhead form.head_ne_nil d.isQuote hinner d.no_quote d.one_line

theorem exists_not_isHead {form : Form} (h : ¬ form.Unmarked) : ∃ c ∈ form.head, isHead c = false := by
  simp only [Unmarked, not_forall, not_and_or, not_not] at h
  obtain ⟨call, hcall, a, ha, hmark⟩ := h
  have hmem : ∀ c ∈ a.inner, c ∈ form.head := fun c hc => by
    refine List.mem_append_right _ (List.mem_flatMap.2 ⟨call, hcall, ?_⟩)
    simp [Call.text, ha, Quotation.text, hc]
  rcases hmark with hm | hm
  · exact ⟨'?', hmem _ hm, rfl⟩
  · exact ⟨'{', hmem _ hm, rfl⟩

theorem unmarked_of_defaults {form : Form} {l : Text} (hl : form.literal? = some l)
    (h : defaults form.text = [(⟨0, utf8Size form.text⟩, l)]) : form.Unmarked := by
  obtain ⟨d, hd, rfl⟩ : ∃ d, form.default = some d ∧ d.inner = l :=
    Option.map_eq_some_iff.1 (Option.filter_eq_some_iff.1 hl).1
  obtain ⟨n, hmatch, hsize⟩ := match_of_spans h
  obtain ⟨-, -, hn, -⟩ := of_defaulted_eq_some hmatch
  have hle := length_le_of_utf8Size_take hsize
  by_contra hmark
  -- a head that ends early makes a match with this literal too short for the whole text
  obtain ⟨c, hc, hhead⟩ := exists_not_isHead hmark
  have hdrop : form.text.drop 2 =
      form.head ++ ('?' :: '?' :: d.quote :: (d.inner ++ [d.quote]) ++ closing) := by
    rw [text_eq_withDefault hd, withDefault, braced]; simp [opening]
  have hlength : form.text.length = form.head.length + d.inner.length + 8 := by
    rw [text_eq_withDefault hd, withDefault]; simp; omega
  rw [hdrop] at hn
  have hshort := length_takeWhile_lt hc hhead ('?' :: '?' :: d.quote :: (d.inner ++ [d.quote]) ++ closing)
  omega

end Form

/-- A placeholder laid out in any way is normalized to its tokens in a row, and what was written is read
back from these: the slot, each of its filter calls, and the default that is filled in. The pass for
defaults sees the default exactly if no argument ends its search. -/
theorem Form.readBack_of_laidOut {form : Form} {raw : Text} (h : form.LaidOut raw) :
    Placeholder.normalize raw = .ok form.text ∧
    Slot.ofPlaceholder? form.text = some form.slot ∧
    (∀ call ∈ form.calls, FilterCall.ofText? call.text = some ⟨call.name, call.arg.map (·.inner)⟩) ∧
    (form.Unmarked →
      defaults form.text = form.literal?.toList.map (fun l => (⟨0, utf8Size form.text⟩, l)) ∧
      Document.fillDefaults form.text = form.literal?.elim form.text Html.escape) ∧
    ∀ l, form.literal? = some l → defaults form.text = [(⟨0, utf8Size form.text⟩, l)] → form.Unmarked := by
  refine ⟨normalize_of_laidOut h, form.ofPlaceholder?_text, fun call _ => call.ofText?_text, fun hmark => ?_,
    fun l hl => unmarked_of_defaults hl⟩
  have hcut := cut_defaulted_text hmark
  rw [defaults, Document.fillDefaults, hcut]
  cases form.literal? with
  | none => simp [Piece.spans]
  | some l => simp [Piece.spans, Piece.spansFrom]

/-- An attribute, a filter with an argument, a default. -/
def Form.dated : Form where
  key := "user".toList
  isKey := by decide
  attr := some ⟨"born".toList, by decide, by decide⟩
  calls := [⟨"date".toList, by decide, some
    ⟨⟨'"', "Y | m".toList, by decide, by decide, by decide, by decide, by decide⟩, by decide, by decide,
      by decide⟩⟩]
  default := some ⟨'\'', "n/a".toList, by decide, by decide, by decide, by decide, by decide⟩

theorem Form.dated_read :
    Placeholder.normalize (braced " user.born | date ( \"Y | m\" ) ?? 'n/a' ".toList) =
        .ok (braced "user.born|date(\"Y | m\")??'n/a'".toList) ∧
      Slot.ofPlaceholder? (braced "user.born|date(\"Y | m\")??'n/a'".toList) =
        some ⟨"user".toList, some "born".toList, ["date(\"Y | m\")".toList], some "n/a".toList⟩ ∧
      Document.fillDefaults (braced "user.born|date(\"Y | m\")??'n/a'".toList) = "n/a".toList := by
  have tight : ∀ c ∈ ([] : Text), isGap c = true := by decide
  have blank : ∀ c ∈ [' '], isGap c = true := by decide
  have hlaid : dated.LaidOut (braced " user.born | date ( \"Y | m\" ) ?? 'n/a' ".toList) :=
    ⟨[' '], _, blank, .cons _ tight (.cons _ tight (.cons _ blank (.cons _ blank (.cons _ blank (.cons _ blank
      (.cons _ blank (.cons _ blank (.cons _ blank (.cons _ blank .nil))))))))), rfl⟩
  obtain ⟨hnormal, hslot, -, hdefault, -⟩ := readBack_of_laidOut hlaid
  refine ⟨hnormal, hslot, (hdefault fun call hcall a ha => ?_).2⟩
  obtain rfl := List.mem_singleton.1 hcall
  obtain rfl := Option.some.inj ha
  decide

end Stencil
