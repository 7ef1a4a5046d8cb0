import Stencil.Proofs.Binding

/-! # Substitution is simultaneous

`Simultaneous pass answer`: on tidy documents, as long as every answer succeeds with a text that opens no
placeholder, `pass` gives all placeholders their answers at once. Passes of this kind compose (`seq`), one
binding is one of them (`of_substituteKey`), and so is a whole list of bindings, in whatever order they stand
(`of_substitute`). -/

namespace Stencil
open Text Placeholder
variable {φ : Type}

namespace Document

/-- The texts among the answers. -/
def said (answer : Text → Option Outcome) (p : Text) : Option Text := (answer p).bind Except.toOption

/-- What is answered to the placeholders of a document are texts that open no placeholder. -/
def Answers (answer : Text → Option Outcome) (doc : Text) : Prop :=
  ∀ p ∈ Placeholder.find doc [], ∀ o, answer p = some o → ∃ t, o = .ok t ∧ '{' ∉ t

def Simultaneous (pass : Text → Outcome) (answer : Text → Option Outcome) : Prop :=
  ∀ doc, Tidy doc → Answers answer doc → pass doc = .ok (answered (said answer) doc)

theorem said_eq_some {answer : Text → Option Outcome} {p t : Text} (h : answer p = some (.ok t)) :
    said answer p = some t := by
  rw [said, h]; rfl

theorem said_eq_none {answer : Text → Option Outcome} {p : Text} (h : answer p = none) : said answer p = none := by
  rw [said, h]; rfl

namespace Answers
variable {answer : Text → Option Outcome} {doc : Text}

theorem of_said (h : Answers answer doc) :
    ∀ p ∈ Placeholder.find doc [], ∀ t, said answer p = some t → '{' ∉ t := by
  intro p hp t ht
  obtain ⟨o, ho, hot⟩ := Option.bind_eq_some_iff.1 ht
  obtain ⟨t', rfl, hbrace⟩ := h p hp o ho
  obtain rfl : t' = t := Option.some.inj hot
  exact hbrace

theorem answer_eq_none (h : Answers answer doc) {p : Text} (hp : p ∈ Placeholder.find doc [])
    (hsaid : said answer p = none) : answer p = none := by
  rw [Option.eq_none_iff_forall_ne_some]
  intro o ho
  obtain ⟨t, rfl, -⟩ := h p hp o ho
  rw [said_eq_some ho] at hsaid
  cases hsaid

end Answers

namespace Simultaneous
variable {f g : Text → Outcome} {a b : Text → Option Outcome}

theorem idle : Simultaneous .ok fun _ => none :=
  fun _ _ _ => congrArg Except.ok answered_none.symm

/-- Only answers to placeholders without braces inside matter. -/
theorem congr (hf : ∀ doc, f doc = g doc) (hab : ∀ body, Braceless body → a (braced body) = b (braced body))
    (h : Simultaneous f a) : Simultaneous g b := by
  intro doc hd hb
  have hsame : ∀ p ∈ Placeholder.find doc [], a p = b p := by
    intro p hp
    obtain ⟨body, rfl, hbody⟩ := hd.exists_braced hp
    exact hab body hbody
  rw [← hf, h doc hd fun p hp o ho => hb p hp o (hsame p hp ▸ ho)]
  exact congrArg Except.ok (answered_congr fun p hp => by rw [said, hsame p hp, said])

/-- One pass after another: what the first one has no answer to, the second one finds as it was. -/
theorem seq (hf : Simultaneous f a) (hg : Simultaneous g b) :
    Simultaneous (fun doc => f doc >>= g) fun p => a p <|> b p := by
  intro doc hd hab
  have ha : Answers a doc := fun p hp o ho => hab p hp o (by simp [ho])
  -- what is left for the second pass is what the first one did not answer
  have hb : Answers b (answered (said a) doc) := by
    intro p hp o ho
    obtain ⟨hpd, hnone⟩ := (hd.mem_find_answered ha.of_said).1 hp
    exact hab p hpd o (by simp [ha.answer_eq_none hpd hnone, ho])
  calc (f doc >>= g)
      = g (answered (said a) doc) := by rw [hf doc hd ha]; rfl
    _ = .ok (answered (said b) (answered (said a) doc)) := hg _ (hd.answered ha.of_said) hb
    _ = .ok (answered (fun p => said a p <|> said b p) doc) := by rw [hd.answered_answered ha.of_said]
    _ = .ok (answered (said fun p => a p <|> b p) doc) := by
      refine congrArg Except.ok (answered_congr fun p hp => ?_)
      cases hap : a p with
      | none => simp [said, hap]
      | some o =>
        obtain ⟨t, rfl, -⟩ := ha p hp o hap
        simp [said, hap, Except.toOption]

end Simultaneous

variable (host : Host φ) (user : Entries φ)

theorem foldlM_substituteOne {v : Value Outcome} {ps : List Text} {doc : Text}
    (hform : ∀ p ∈ ps, ∃ body, p = braced body ∧ '}' ∉ body)
    (hans : ∀ p ∈ ps, ∀ o, answer? host user v p = some o → ∃ t, o = .ok t ∧ '{' ∉ t) (hd : Tidy doc) :
    ps.foldlM (substituteOne host user false v) doc =
      .ok (answered (fun p => if p ∈ ps then said (answer? host user v) p else none) doc) := by
  induction ps generalizing doc with
  | nil =>
    have hnone : answered (fun p => if p ∈ [] then said (answer? host user v) p else none) doc = doc := by
      simpa using answered_none
    rw [hnone]; rfl
  | cons p ps ih =>
    obtain ⟨body, hp, hbody⟩ := hform p List.mem_cons_self
    have hps := fun doc => @ih doc (fun q hq => hform q (List.mem_cons_of_mem _ hq))
      (fun q hq => hans q (List.mem_cons_of_mem _ hq))
    rw [List.foldlM_cons, substituteOne]
    cases ho : answer? host user v p with
    | none =>
      rw [show (Except.ok doc >>= fun d => ps.foldlM (substituteOne host user false v) d) =
        ps.foldlM (substituteOne host user false v) doc from rfl, hps doc hd]
      refine congrArg Except.ok (answered_congr fun q _ => ?_)
      by_cases hq : q = p
      · subst hq; simp [said_eq_none ho]
      · simp [hq]
    | some o =>
      obtain ⟨t, rfl, ht⟩ := hans p List.mem_cons_self o ho
      have hreplace : replace p t doc = answered (fun q => if q = p then some t else none) doc := by
        rw [hp, hd.replace_eq hbody]
      have hone : ∀ q ∈ Placeholder.find doc [], ∀ u, (if q = p then some t else none) = some u → '{' ∉ u := by
        intro q _ u hu
        split at hu
        · exact Option.some.inj hu ▸ ht
        · cases hu
      -- the replacement is a round of answers of its own, and the rest is one more round
      show ps.foldlM (substituteOne host user false v) (replace p t doc) = _
      rw [hreplace, hps _ (hd.answered hone), hd.answered_answered hone]
      refine congrArg Except.ok (answered_congr fun q _ => ?_)
      by_cases hq : q = p
      · subst hq; simp [said_eq_some ho]
      · simp [hq]

end Document

/-- What bindings answer to a placeholder. -/
def Dict.answer? (host : Host φ) (user : Entries φ) (b : Dict Outcome) (p : Text) : Option Outcome :=
  (b.resolve? p).map fun r => Document.settled r.2 >>= Pipeline.run host user r.1.filters

namespace Dict
variable (host : Host φ) (user : Entries φ) {key : Text} {v : Value Outcome} {b : Dict Outcome}

theorem answer?_nil (p : Text) : answer? host user [] p = none := by
  simp [answer?, resolve?]

theorem answer?_cons (hk : key ∉ Entries.keys b) (p : Text) :
    answer? host user ((key, v) :: b) p = (answer? host user [(key, v)] p <|> answer? host user b p) := by
  simp only [answer?, resolve?]
  cases Slot.ofPlaceholder? p with
  | none => rfl
  | some slot =>
    simp only [Option.bind_eq_bind, Option.bind_some]
    by_cases hkey : key = slot.key
    · subst hkey
      simp [Entries.get?, Entries.get?_eq_none_iff.2 hk]
    · simp [Entries.get?, hkey]

theorem answer?_of_unread {p : Text} (h : Slot.ofPlaceholder? p = none) : answer? host user b p = none := by
  rw [answer?, resolve?, h]; rfl

theorem answer?_singleton_of_slot {p : Text} {slot : Slot} (h : Slot.ofPlaceholder? p = some slot) :
    answer? host user [(key, v)] p =
      if slot.key = key then if v.isEmptyCollection then none else Document.answer? host user v p else none := by
  simp only [answer?, resolve?, Document.answer?, h, Option.bind_eq_bind, Option.bind_some, Entries.get?,
    eq_comm (a := key)]
  by_cases hk : slot.key = key
  · simp only [if_pos hk, Option.bind_some]
    cases v.isEmptyCollection with
    | true => rfl
    | false =>
      simp only [Bool.false_eq_true, if_false]
      cases Document.resolve? slot v <;> rfl
  · simp [hk]

theorem answer?_singleton (hkey : IsKey key) {body : Text} (hbody : Braceless body) :
    answer? host user [(key, v)] (braced body) =
      if touches key (braced body) = true then
        if v.isEmptyCollection then none else Document.answer? host user v (braced body)
      else none := by
  cases hslot : Slot.ofPlaceholder? (braced body) with
  | none => simp [answer?_of_unread host user hslot, Document.answer?, hslot]
  | some slot => simp only [answer?_singleton_of_slot host user hslot, touches_iff hkey hbody hslot]

end Dict

namespace Document.Simultaneous
variable (host : Host φ) (user : Entries φ)

theorem of_substituteKey {key : Text} {v : Value Outcome} (hkey : IsKey key) (hv : v.isTemplate = false) :
    Simultaneous (fun doc => substituteKey host user false doc (key, v)) (Dict.answer? host user [(key, v)]) := by
  intro doc hd hans
  have hclosing : '}' ∉ key := hkey.not_mem (by decide)
  have hsingle : ∀ p ∈ Placeholder.find doc [], Dict.answer? host user [(key, v)] p =
      if touches key p = true then if v.isEmptyCollection then none else answer? host user v p else none := by
    intro p hp
    obtain ⟨body, rfl, hbody⟩ := hd.exists_braced hp
    exact Dict.answer?_singleton host user hkey hbody
  show substituteKey host user false doc (key, v) = _
  rw [substituteKey_eq host user hv]
  cases hempty : v.isEmptyCollection with
  | true =>
    have hnone : answered (said (Dict.answer? host user [(key, v)])) doc = doc := by
      have hall : ∀ p ∈ Placeholder.find doc [], said (Dict.answer? host user [(key, v)]) p = none :=
        fun p hp => said_eq_none (by rw [hsingle p hp]; simp [hempty])
      exact (answered_congr hall).trans answered_none
    simp [hnone]
  | false =>
    simp only [hempty, Bool.false_eq_true, if_false] at hsingle ⊢
    have hfind : ∀ p ∈ Placeholder.find doc key, p ∈ Placeholder.find doc [] ∧ touches key p = true :=
      fun p hp => (hd.mem_find hclosing).1 hp
    rw [foldlM_substituteOne host user (fun p hp => ?_) (fun p hp o ho => ?_) hd]
    · refine congrArg Except.ok (answered_congr fun p hp => ?_)
      by_cases ht : touches key p = true
      · rw [if_pos ((hd.mem_find hclosing).2 ⟨hp, ht⟩), said, said, hsingle p hp, if_pos ht]
      · rw [if_neg fun h => ht (hfind p h).2, said, hsingle p hp, if_neg ht]; rfl
    · obtain ⟨body, rfl, hbody⟩ := hd.exists_braced (hfind p hp).1
      exact ⟨body, rfl, hbody.no_closing⟩
    · obtain ⟨hpd, ht⟩ := hfind p hp
      exact hans p hpd o (by rw [hsingle p hpd, if_pos ht]; exact ho)

theorem of_substitute {b : Dict Outcome} (h : b.Plain) :
    Simultaneous (substitute host user false b) (Dict.answer? host user b) := by
  induction b with
  | nil => exact idle.congr (fun _ => rfl) fun body _ => (Dict.answer?_nil host user _).symm
  | cons e b ih =>
    obtain ⟨key, v⟩ := e
    have hone := of_substituteKey host user (h.isKey _ List.mem_cons_self) (h.no_template _ List.mem_cons_self)
    refine (hone.seq (ih h.tail)).congr (fun doc => ?_) fun body _ => ?_
    · rw [substitute, List.foldlM_cons]; rfl
    · exact (Dict.answer?_cons host user (List.nodup_cons.1 h.nodup).1 _).symm

end Document.Simultaneous

end Stencil
