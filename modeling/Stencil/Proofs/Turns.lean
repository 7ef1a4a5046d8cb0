import Mathlib.Data.List.Nodup
import Stencil.Proofs.Escaping
import Stencil.Proofs.Ownership
import Stencil.Proofs.Rewriting
import Stencil.Proofs.Simultaneous

/-! # The placeholders of a key take turns

One binding replaces its distinct placeholders one after the other, each wherever it then stands. Up to a
turn this is one replacement of all of them at once, each where the document had it, exactly if at every
turn the placeholder occurs only as often as the document had it (`turns_atOnce_iff`). Texts that were put
in can bring it in again, and so can placeholders that end with it. A key with a single placeholder is
safe from both, whatever its value holds (`unrevisited_of_find_eq`). -/

namespace Stencil
open Text Placeholder
variable {φ : Type}

namespace Text

/-- How often a text is found in another one, from left to right and without overlap. -/
def occurrences (p s : Text) : Nat := (Piece.hits (cut (literally p) s)).length

end Text

namespace Piece
variable {α : Type} {g : Text → Text} {p : Text}

theorem length_fill_update (new : Text) (hg : g p = p) (ps : List (Piece α)) :
    (fill (fun _ t => Function.update g p new t) ps).length + (hits ps).count p * p.length =
      (fill (fun _ t => g t) ps).length + (hits ps).count p * new.length := by
  induction ps with
  | nil => simp
  | cons q ps ih =>
    cases q with
    | plain c => simp only [fill_plain, hits_plain, List.length_cons]; omega
    | hit a t =>
      by_cases ht : t = p
      · subst ht
        simp only [fill_hit, hits_hit, List.length_append, Function.update_self, hg, List.count_cons_self,
          Nat.add_mul, Nat.one_mul]
        omega
      · simp only [fill_hit, hits_hit, List.length_append, Function.update_of_ne ht, List.count_cons_of_ne ht]
        omega

/-- Another text of the same length leaves no trace only where there are no hits. -/
theorem hits_eq_nil_of_fill_eq {new : Text} {ps : List (Piece α)} (hlen : new.length = p.length) (hne : new ≠ p)
    (hps : ∀ a t, hit a t ∈ ps → t = p) (h : fill (fun _ _ => new) ps = texts ps) : hits ps = [] := by
  induction ps with
  | nil => rfl
  | cons q ps ih =>
    cases q with
    | plain c => exact ih (fun a t ht => hps a t (List.mem_cons_of_mem _ ht)) (List.cons.inj h).2
    | hit a t =>
      obtain rfl := hps a t List.mem_cons_self
      exact absurd (List.append_inj h hlen).1 hne

end Piece

namespace Text
variable {p new s : Text}

theorem hits_cut_literally (p s : Text) :
    Piece.hits (cut (literally p) s) = List.replicate (occurrences p s) p := by
  refine List.eq_replicate_of_mem fun t ht => ?_
  obtain ⟨a, ha⟩ := Piece.mem_hits.1 ht
  exact eq_of_hit_mem_cut_literally ha

theorem length_replace (p new s : Text) :
    (replace p new s).length + occurrences p s * p.length = s.length + occurrences p s * new.length := by
  have h := Piece.length_fill_update (g := id) (p := p) new rfl (cut (literally p) s)
  rw [hits_cut_literally, List.count_replicate_self] at h
  have hfill : Piece.fill (fun _ t => Function.update id p new t) (cut (literally p) s) = replace p new s :=
    Piece.fill_congr fun a t ht => by rw [eq_of_hit_mem_cut_literally ht, Function.update_self]
  have htexts : Piece.fill (fun _ t => id t) (cut (literally p) s) = s := (Piece.fill_id _).trans (texts_cut _ s)
  rwa [hfill, htexts] at h

theorem replace_of_occurrences_eq_zero (h : occurrences p s = 0) : replace p new s = s := by
  have hnone : ∀ a t, .hit a t ∈ cut (literally p) s → new = t := fun a t ht => by
    have : t ∈ Piece.hits (cut (literally p) s) := Piece.mem_hits.2 ⟨a, ht⟩
    rw [hits_cut_literally, h] at this
    cases this
  rw [replace, Piece.fill_congr hnone, Piece.fill_id, texts_cut]

theorem occurrences_eq_zero_of_replace_eq (hlen : new.length = p.length) (hne : new ≠ p) (h : replace p new s = s) :
    occurrences p s = 0 := by
  have hfill : Piece.fill (fun _ _ => new) (cut (literally p) s) = Piece.texts (cut (literally p) s) := by
    rw [texts_cut]; exact h
  rw [occurrences, Piece.hits_eq_nil_of_fill_eq hlen hne (fun a t ht => eq_of_hit_mem_cut_literally ht) hfill,
    List.length_nil]

end Text

namespace Placeholder.IsPlaceholder
variable {α : Type} {g : Text → Text} {p new : Text} {ps : List (Piece α)}

theorem of_mem_find_key {key doc : Text} (hkey : IsKey key) (hp : p ∈ find doc key) : IsPlaceholder p := by
  obtain ⟨body, rfl, hb, tail, htail, -⟩ := exists_headed_of_mem_find hkey.ne_nil (hkey.not_mem (by decide)) hp
  refine ⟨body, rfl, hb, ?_⟩
  rintro rfl
  exact hkey.ne_nil (List.append_eq_nil_iff.1 htail.symm).1

/-- A placeholder is found wherever it stands, and nothing that reaches into it is. -/
theorem cut_literally_self (hp : IsPlaceholder p) (x s : Text) :
    cut (literally p) (x ++ (p ++ s)) = cut (literally p) x ++ .hit () p :: cut (literally p) s := by
  have hhere : cut (literally p) (p ++ s) = .hit () p :: cut (literally p) s :=
    cut_hit (literally_eq_some_iff.2 ⟨⟨s, rfl⟩, rfl⟩) hp.ne_nil
  rw [← hhere]
  refine cut_append fun v w hvw hw => ?_
  have hsplit : ∀ r, w ++ (p ++ s) = p ++ r → ∃ y, w = p ++ y := by
    intro r hr
    rcases List.append_eq_append_iff.1 hr with ⟨y, hy, hys⟩ | ⟨y, hy, -⟩
    · -- the end of a placeholder would begin one
      by_cases hynil : y = []
      · exact ⟨[], by rw [List.append_nil, hy, hynil, List.append_nil]⟩
      · have hyp : y = p := eq_of_suffix (hy ▸ hp) hynil hp hys.symm
        refine absurd ?_ hw
        have hself : w ++ p = p := by rw [← hyp, ← hy, hyp]
        exact List.append_left_eq_self.1 hself
    · exact ⟨y, hy⟩
  by_cases h : ∃ y, w = p ++ y
  · obtain ⟨y, rfl⟩ := h
    rw [List.append_assoc, literally_eq_some_iff.2 ⟨⟨_, rfl⟩, rfl⟩, literally_eq_some_iff.2 ⟨⟨_, rfl⟩, rfl⟩]
    refine ⟨rfl, fun a n hn => ?_⟩
    obtain ⟨-, rfl⟩ := Prod.mk.inj (Option.some.inj hn)
    rw [List.length_append]; omega
  · have hnone : literally p w = none := literally_eq_none_iff.2 fun r hr => h ⟨r, hr⟩
    rw [hnone, literally_eq_none_iff.2 fun r hr => h (hsplit r hr)]
    exact ⟨rfl, fun a n hn => by cases hn⟩

theorem occurrences_self (hp : IsPlaceholder p) (x s : Text) :
    occurrences p (x ++ (p ++ s)) = occurrences p x + (occurrences p s + 1) := by
  simp [occurrences, hp.cut_literally_self]

theorem replace_self (hp : IsPlaceholder p) (new x s : Text) :
    Text.replace p new (x ++ (p ++ s)) = Text.replace p new x ++ (new ++ Text.replace p new s) := by
  simp [Text.replace, hp.cut_literally_self]

/-- A placeholder that stays is found at least as often as it is a hit; if not more often, a replacement
goes to the hits (`replace_fill`), and only then (`occurrences_of_replace_fill`). -/
theorem count_le_occurrences (hp : IsPlaceholder p) (hg : g p = p) (x : Text) (ps : List (Piece α)) :
    (Piece.hits ps).count p ≤ occurrences p (x ++ Piece.fill (fun _ t => g t) ps) := by
  -- `x` is what was read since the last hit of `p`: an occurrence may begin in it and end behind it
  induction ps generalizing x with
  | nil => exact Nat.zero_le _
  | cons q ps ih =>
    cases q with
    | plain c => simpa using ih (x ++ [c])
    | hit a t =>
      by_cases ht : t = p
      · subst ht
        rw [Piece.fill_hit, hg, hp.occurrences_self, Piece.hits_hit, List.count_cons_self]
        have := ih []
        rw [List.nil_append] at this
        omega
      · simpa [List.count_cons_of_ne ht] using ih (x ++ g t)

theorem replace_fill (hp : IsPlaceholder p) (hg : g p = p) {x : Text}
    (h : occurrences p (x ++ Piece.fill (fun _ t => g t) ps) = (Piece.hits ps).count p) :
    Text.replace p new (x ++ Piece.fill (fun _ t => g t) ps) =
      x ++ Piece.fill (fun _ t => Function.update g p new t) ps := by
  induction ps generalizing x with
  | nil => exact replace_of_occurrences_eq_zero h
  | cons q ps ih =>
    cases q with
    | plain c => simpa using @ih (x ++ [c]) (by simpa using h)
    | hit a t =>
      by_cases ht : t = p
      · subst ht
        have hle := hp.count_le_occurrences hg [] ps
        rw [Piece.fill_hit, hg, hp.occurrences_self, Piece.hits_hit, List.count_cons_self] at h
        rw [List.nil_append] at hle
        have hx : occurrences t x = 0 := by omega
        have hps := @ih [] (by rw [List.nil_append]; omega)
        rw [List.nil_append, List.nil_append] at hps
        rw [Piece.fill_hit, hg, hp.replace_self, replace_of_occurrences_eq_zero hx, hps, Piece.fill_hit,
          Function.update_self]
      · have hx := @ih (x ++ g t) (by simpa [List.count_cons_of_ne ht] using h)
        simpa [Function.update_of_ne ht] using hx

theorem occurrences_of_replace_fill (hp : IsPlaceholder p) (hg : g p = p) (hne : new ≠ p) {x : Text}
    (h : Text.replace p new (x ++ Piece.fill (fun _ t => g t) ps) =
      x ++ Piece.fill (fun _ t => Function.update g p new t) ps) :
    occurrences p (x ++ Piece.fill (fun _ t => g t) ps) = (Piece.hits ps).count p := by
  by_cases hlen : new.length = p.length
  · induction ps generalizing x with
    | nil => exact occurrences_eq_zero_of_replace_eq hlen hne h
    | cons q ps ih =>
      cases q with
      | plain c => simpa using @ih (x ++ [c]) (by simpa using h)
      | hit a t =>
        by_cases ht : t = p
        · subst ht
          rw [Piece.fill_hit, hg, hp.replace_self, Piece.fill_hit, Function.update_self] at h
          -- both sides have the same lengths, part by part
          have hx : (Text.replace t new x).length = x.length := by
            have := length_replace t new x
            rw [hlen] at this
            omega
          obtain ⟨hfront, hrest⟩ := List.append_inj h hx
          have hps := @ih [] (List.append_cancel_left hrest)
          rw [List.nil_append] at hps
          rw [Piece.fill_hit, hg, hp.occurrences_self, occurrences_eq_zero_of_replace_eq hlen hne hfront, hps,
            Piece.hits_hit, List.count_cons_self, Nat.zero_add]
        · have hps := @ih (x ++ g t) (by simpa [Function.update_of_ne ht] using h)
          simpa [List.count_cons_of_ne ht] using hps
  · -- the lengths tell how often something was replaced
    have hfill := Piece.length_fill_update new hg ps
    have hreplace := length_replace p new (x ++ Piece.fill (fun _ t => g t) ps)
    rw [h, List.length_append, List.length_append] at hreplace
    obtain ⟨k, hk⟩ := Nat.exists_eq_add_of_le (hp.count_le_occurrences hg x ps)
    rw [hk, Nat.add_mul, Nat.add_mul] at hreplace
    have hsame : k * p.length = k * new.length := by omega
    rcases Nat.eq_zero_or_pos k with rfl | hpos
    · exact hk
    · exact absurd (Nat.eq_of_mul_eq_mul_left hpos hsame).symm hlen

end Placeholder.IsPlaceholder

/-! ### Turns -/

/-- What stands for a placeholder under bindings: the text that they answer, or itself. -/
def Dict.textFor (host : Host φ) (user : Entries φ) (b : Dict Outcome) (p : Text) : Text :=
  (Document.said (b.answer? host user) p).getD p

namespace Document

/-- A binding up to the turns of some placeholders. -/
def turns (host : Host φ) (user : Entries φ) (v : Value Outcome) (doc : Text) (done : List Text) : Outcome :=
  if v.isEmptyCollection then .ok doc else done.foldlM (substituteOne host user false v) doc

/-- The document with some placeholders of a key replaced where it has them, all at once. -/
def atOnce (key : Text) (text : Text → Text) (doc : Text) (done : List Text) : Text :=
  Piece.fill (fun _ p => if p ∈ done then text p else p) (cut (named key) doc)

/-- At its turn a placeholder of a key occurs as often as the document had it, unless its text is itself. -/
def Unrevisited (key : Text) (text : Text → Text) (doc : Text) : Prop :=
  ∀ i (h : i < (find doc key).length), text (find doc key)[i] = (find doc key)[i] ∨
    occurrences (find doc key)[i] (atOnce key text doc ((find doc key).take i)) =
      (Piece.hits (cut (named key) doc)).count (find doc key)[i]

instance (key : Text) (text : Text → Text) (doc : Text) : Decidable (Unrevisited key text doc) :=
  Nat.decidableBallLT _ _

variable {key doc : Text} {text : Text → Text}

theorem atOnce_nil : atOnce key text doc [] = doc := by
  simp [atOnce, Piece.fill_id, texts_cut]

theorem atOnce_find (hkey : key ≠ []) :
    atOnce key text doc (find doc key) = Piece.fill (fun _ p => text p) (cut (named key) doc) :=
  Piece.fill_congr fun a _ hp => if_pos ((mem_find_iff hkey).2 ⟨a, hp⟩)

theorem atOnce_concat {done : List Text} {p : Text} :
    atOnce key text doc (done ++ [p]) =
      Piece.fill (fun _ q => Function.update (fun q => if q ∈ done then text q else q) p (text p) q)
        (cut (named key) doc) := by
  refine Piece.fill_congr fun a q _ => ?_
  by_cases hq : q = p
  · subst hq; simp
  · simp [hq]

/-- One turn does what it should exactly if its placeholder occurs as often as the document had it. -/
theorem replace_atOnce_iff (hkey : IsKey key) {done : List Text} {p : Text} (hp : p ∈ find doc key) (hdone : p ∉ done) :
    replace p (text p) (atOnce key text doc done) = atOnce key text doc (done ++ [p]) ↔
      text p = p ∨ occurrences p (atOnce key text doc done) = (Piece.hits (cut (named key) doc)).count p := by
  have hplace := IsPlaceholder.of_mem_find_key hkey hp
  have hkept : (if p ∈ done then text p else p) = p := if_neg hdone
  rw [atOnce_concat]
  by_cases htext : text p = p
  · refine iff_of_true ?_ (.inl htext)
    rw [htext, replace_id]
    refine Piece.fill_congr fun a q _ => ?_
    by_cases hq : q = p
    · subst hq; rw [Function.update_self, hkept]
    · rw [Function.update_of_ne hq]
  · constructor
    · exact fun h => .inr (hplace.occurrences_of_replace_fill (g := fun q => if q ∈ done then text q else q) (x := [])
        hkept htext h)
    · exact fun h => hplace.replace_fill (g := fun q => if q ∈ done then text q else q) (x := []) hkept
        (h.resolve_left htext)

theorem getElem_find_not_mem_take (hkey : IsKey key) {i : Nat} (h : i < (find doc key).length) :
    (find doc key)[i] ∉ (find doc key).take i := by
  intro hmem
  have hnodup : (find doc key).Nodup := by
    rw [find_eq_of_ne_nil hkey.ne_nil]; exact nodup_distinct _
  obtain ⟨j, hj, hji⟩ := List.mem_take_iff_getElem.1 hmem
  have := (List.Nodup.getElem_inj_iff hnodup).1 hji
  omega

theorem foldl_replace_iff (hkey : IsKey key) :
    (∀ n, ((find doc key).take n).foldl (fun doc p => replace p (text p) doc) doc =
      atOnce key text doc ((find doc key).take n)) ↔ Unrevisited key text doc := by
  constructor
  · intro hall i h
    have hnext := hall (i + 1)
    rw [← List.take_append_getElem h, List.foldl_append, hall i] at hnext
    exact (replace_atOnce_iff hkey (List.getElem_mem h) (getElem_find_not_mem_take hkey h)).1 hnext
  · intro hturns n
    induction n with
    | zero => exact atOnce_nil.symm
    | succ n ih =>
      by_cases h : n < (find doc key).length
      · rw [← List.take_append_getElem h, List.foldl_append, ih]
        exact (replace_atOnce_iff hkey (List.getElem_mem h) (getElem_find_not_mem_take hkey h)).2 (hturns n h)
      · rw [List.take_of_length_le (by omega)] at ih ⊢
        exact ih

end Document

theorem Dict.answer?_of_mem_find (host : Host φ) (user : Entries φ) {key doc p : Text} {v : Value Outcome}
    (hkey : IsKey key) (hp : p ∈ find doc key) :
    Dict.answer? host user [(key, v)] p =
      if v.isEmptyCollection then none else Document.answer? host user v p := by
  cases hslot : Slot.ofPlaceholder? p with
  | none => simp [answer?_of_unread host user hslot, Document.answer?, hslot]
  | some slot => rw [answer?_singleton_of_slot host user hslot, if_pos (key_eq_of_mem_find hkey hp hslot)]

namespace Document
variable (host : Host φ) (user : Entries φ) {key doc out : Text} {v : Value Outcome}

theorem substitute_singleton_eq_turns (hv : v.isTemplate = false) :
    substitute host user false [(key, v)] doc = turns host user v doc (find doc key) := by
  rw [substitute_singleton, substituteKey_eq host user hv, turns]

/-- A pass that succeeds has a text for every placeholder that it answers. -/
theorem foldlM_substituteOne_of_ok {ps : List Text} (h : ps.foldlM (substituteOne host user false v) doc = .ok out) :
    ∀ p ∈ ps, ∀ d, substituteOne host user false v d p = .ok (replace p ((said (answer? host user v) p).getD p) d) := by
  induction ps generalizing doc with
  | nil => intro p hp; cases hp
  | cons q ps ih =>
    rw [List.foldlM_cons] at h
    obtain ⟨next, hq, h⟩ := bind_eq_ok h
    intro p hp d
    rcases List.mem_cons.1 hp with rfl | hp
    · rw [substituteOne] at hq ⊢
      cases hans : answer? host user v p with
      | none => rw [said_eq_none hans, Option.getD_none, replace_id]
      | some o =>
        rw [hans] at hq
        obtain ⟨t, rfl, -⟩ := bind_eq_ok hq
        rw [said_eq_some hans]; rfl
    · exact ih h p hp d

theorem foldlM_eq_ok {f : Text → Text → Outcome} {g : Text → Text → Text} {ps : List Text}
    (h : ∀ p ∈ ps, ∀ d, f d p = .ok (g d p)) (doc : Text) : ps.foldlM f doc = .ok (ps.foldl g doc) := by
  induction ps generalizing doc with
  | nil => rfl
  | cons p ps ih =>
    rw [List.foldlM_cons, h p List.mem_cons_self]
    exact ih (fun q hq => h q (List.mem_cons_of_mem _ hq)) (g doc p)

theorem turns_eq_ok (hkey : IsKey key) (h : turns host user v doc (find doc key) = .ok out) (n : Nat) :
    turns host user v doc ((find doc key).take n) =
      .ok (((find doc key).take n).foldl
        (fun doc p => replace p (Dict.textFor host user [(key, v)] p) doc) doc) := by
  have hanswer : ∀ p ∈ (find doc key).take n, Dict.answer? host user [(key, v)] p =
      if v.isEmptyCollection then none else answer? host user v p :=
    fun p hp => Dict.answer?_of_mem_find host user hkey (List.mem_of_mem_take hp)
  simp only [Dict.textFor, said]
  rw [turns] at h ⊢
  cases hempty : v.isEmptyCollection with
  | true =>
    -- nothing is answered, so every replacement puts in what was there
    simp only [hempty, if_true] at hanswer ⊢
    refine congrArg Except.ok (Eq.symm ?_)
    refine List.foldlRecOn _ _ rfl (motive := (· = doc)) ?_
    rintro d rfl p hp
    rw [hanswer p hp, Option.bind_none, Option.getD_none, replace_id]
  | false =>
    simp only [hempty, Bool.false_eq_true, if_false] at h hanswer ⊢
    refine foldlM_eq_ok (fun p hp d => ?_) doc
    rw [foldlM_substituteOne_of_ok host user h p (List.mem_of_mem_take hp), hanswer p hp, said]

/-- One binding of a word, if it succeeds, puts the texts in where the document had the placeholders, as
long as none of them is found again; and none is exactly if every turn leaves the document that all turns so
far would make of it at once. -/
theorem turns_atOnce_iff (hkey : IsKey key) (hv : v.isTemplate = false)
    (h : substitute host user false [(key, v)] doc = .ok out) :
    (Unrevisited key (Dict.textFor host user [(key, v)]) doc →
      out = Piece.fill (fun _ p => Dict.textFor host user [(key, v)] p) (cut (named key) doc)) ∧
    (Unrevisited key (Dict.textFor host user [(key, v)]) doc ↔
      ∀ n, turns host user v doc ((find doc key).take n) =
        .ok (atOnce key (Dict.textFor host user [(key, v)]) doc ((find doc key).take n))) := by
  rw [substitute_singleton_eq_turns host user hv] at h
  have hiff : Unrevisited key (Dict.textFor host user [(key, v)]) doc ↔
      ∀ n, turns host user v doc ((find doc key).take n) =
        .ok (atOnce key (Dict.textFor host user [(key, v)]) doc ((find doc key).take n)) := by
    rw [← foldl_replace_iff hkey]
    refine forall_congr' fun n => ?_
    rw [turns_eq_ok host user hkey h n, Except.ok.injEq]
  refine ⟨fun hun => ?_, hiff⟩
  have hall := hiff.1 hun (find doc key).length
  rw [List.take_length, h, atOnce_find hkey.ne_nil] at hall
  exact Except.ok.inj hall

/-- A value that holds a placeholder of its own key. -/
def ownPlaceholder : Value Outcome := .str (braced "k".toList ++ ['<'])

/-- Put in by `raw`, it stays as it is behind the plain placeholder; in front of it, it is taken for one. -/
theorem turns_of_ownPlaceholder :
    let text := Dict.textFor Host.bare [] [("k".toList, ownPlaceholder)]
    let behind := braced "k".toList ++ braced "k|raw".toList
    let before := braced "k|raw".toList ++ braced "k".toList
    Piece.fill (fun _ p => text p) (cut (named "k".toList) behind) =
      braced "k".toList ++ "&lt;".toList ++ braced "k".toList ++ "<".toList ∧
    substitute Host.bare [] false [("k".toList, ownPlaceholder)] before =
      .ok (braced "k".toList ++ "&lt;<".toList ++ braced "k".toList ++ "&lt;".toList) ∧
    ¬ Unrevisited "k".toList text before := by
  have hkey : IsKey "k".toList := by decide
  have hv : ownPlaceholder.isTemplate = false := rfl
  have hbehind : substitute Host.bare [] false [("k".toList, ownPlaceholder)]
      (braced "k".toList ++ braced "k|raw".toList) =
        .ok (braced "k".toList ++ "&lt;".toList ++ braced "k".toList ++ "<".toList) := rfl
  have hbefore : substitute Host.bare [] false [("k".toList, ownPlaceholder)]
      (braced "k|raw".toList ++ braced "k".toList) =
        .ok (braced "k".toList ++ "&lt;<".toList ++ braced "k".toList ++ "&lt;".toList) := rfl
  refine ⟨((turns_atOnce_iff Host.bare [] hkey hv hbehind).1 (by decide)).symm, hbefore, fun hun => ?_⟩
  have hout := (turns_atOnce_iff Host.bare [] hkey hv hbefore).1 hun
  exact absurd hout (by decide)

/-! ### Keys that find nothing again -/

theorem occurrences_of_find_eq (hkey : IsKey key) {p : Text} (h : find doc key = [p]) :
    occurrences p doc = (Piece.hits (cut (named key) doc)).count p := by
  obtain ⟨body, rfl, hb, hhead⟩ := exists_headed_of_mem_find hkey.ne_nil (hkey.not_mem (by decide))
    (h ▸ List.mem_singleton_self p : p ∈ find doc key)
  have hnamed : ∀ r, named key (braced body ++ r) = some ((), (braced body).length) := fun r => by
    rw [length_braced]; exact named_of_headed hb hhead r
  have hall : ∀ a t, .hit a t ∈ cut (named key) doc → t = braced body := by
    intro a t ht
    have hmem : t ∈ find doc key := (mem_find_iff hkey.ne_nil).2 ⟨a, ht⟩
    rw [h] at hmem
    exact List.mem_singleton.1 hmem
  revert hall
  refine cut_rec (P := fun s ps => (∀ a t, .hit a t ∈ ps → t = braced body) →
    occurrences (braced body) s = (Piece.hits ps).count (braced body)) ?_ ?_ ?_ doc
  · exact fun _ => rfl
  · intro c s hno ih hall
    -- it begins only where the search for the key finds something
    have hnone : literally (braced body) (c :: s) = none := literally_eq_none_iff.2 fun r hr => by
      have hmatch := hnamed r
      rw [← hr] at hmatch
      exact hno () (body.length + 3) (by rw [hmatch, length_braced])
    rw [occurrences, cut_plain_cons hnone]
    exact ih fun a t ht => hall a t (List.mem_cons_of_mem _ ht)
  · intro c s a n _ ih hall
    have ht := hall a _ List.mem_cons_self
    have hs : c :: s = [] ++ (braced body ++ s.drop n) := by
      rw [← ht, List.nil_append, List.cons_append, List.take_append_drop]
    have hplace : IsPlaceholder (braced body) := .of_mem_find_key hkey (h ▸ List.mem_singleton_self _)
    rw [hs, hplace.occurrences_self, ih fun a t ht => hall a t (List.mem_cons_of_mem _ ht), ht, Piece.hits_hit,
      List.count_cons_self]
    exact Nat.zero_add _

/-- A single placeholder is never found again, whatever its text brings in. -/
theorem unrevisited_of_find_eq (hkey : IsKey key) {p : Text} (h : find doc key = [p]) (text : Text → Text) :
    Unrevisited key text doc := by
  intro i hi
  have hlen : i < [p].length := h ▸ hi
  obtain rfl : i = 0 := Nat.lt_one_iff.1 hlen
  refine .inr ?_
  simp only [h, List.take_zero, atOnce_nil, List.getElem_cons_zero]
  exact occurrences_of_find_eq hkey h

section Tidy
variable {text : Text → Text} {done : List Text}

theorem isSome_named_of_mem_find (hkey : IsKey key) (hd : Tidy doc) {p : Text} (hp : p ∈ find doc key) :
    (named key p).isSome = true := by
  have htouches := ((hd.mem_find (hkey.not_mem (by decide))).1 hp).2
  rwa [touches, List.isEmpty_eq_false_iff.2 hkey.ne_nil, Bool.false_or] at htouches

/-- The texts of those placeholders that had their turn and changed. -/
def changed (text : Text → Text) (done : List Text) (p : Text) : Option Text :=
  if p ∈ done ∧ text p ≠ p then some (text p) else none

theorem atOnce_eq_answered (hkey : IsKey key) (hd : Tidy doc) (hdone : ∀ q ∈ done, q ∈ find doc key) :
    atOnce key text doc done = answered (changed text done) doc := by
  rw [atOnce, hd.cut_eq (atOpenings_named (hkey.not_mem (by decide))), Piece.fill_flatMap_under, answered]
  refine Piece.fill_congr fun a q _ => ?_
  by_cases hq : q ∈ done
  · obtain ⟨r, hr⟩ := Option.isSome_iff_exists.1 (isSome_named_of_mem_find hkey hd (hdone q hq))
    by_cases hne : text q = q <;> simp [changed, hq, hr, hne]
  · cases named key q <;> simp [changed, hq]

theorem occurrences_answered {answer : Text → Option Text} {body : Text} (hd : Tidy doc)
    (h : ∀ p ∈ find doc [], ∀ t, answer p = some t → '{' ∉ t) (hb : '}' ∉ body) (hnone : answer (braced body) = none) :
    occurrences (braced body) (answered answer doc) = (Piece.hits (cut anywhere doc)).count (braced body) := by
  have hself : literally (braced body) (braced body) = some ((), (braced body).length) :=
    literally_eq_some_iff.2 ⟨⟨[], (List.append_nil _).symm⟩, rfl⟩
  calc occurrences (braced body) (answered answer doc)
      = (Piece.hits (cut (literally (braced body)) (answered answer doc))).count (braced body) := by
        rw [hits_cut_literally, List.count_replicate_self]
    _ = (((Piece.hits (cut anywhere doc)).filter fun p => (answer p).isNone).filter
          fun p => (literally (braced body) p).isSome).count (braced body) := by
        rw [(hd.answered h).cut_eq (atOpenings_literally hb), Piece.hits_flatMap_under, (hd.answered_spec h).2,
          Piece.hits_flatMap_after]
    _ = (Piece.hits (cut anywhere doc)).count (braced body) := by
        rw [List.count_filter (by simp [hself]), List.count_filter (by simp [hnone])]

/-- Nor is any found again in a tidy document whose texts open no placeholder. -/
theorem unrevisited_of_tidy (hkey : IsKey key) (hd : Tidy doc)
    (htext : ∀ p ∈ find doc key, text p = p ∨ '{' ∉ text p) : Unrevisited key text doc := by
  intro i hi
  have hp : (find doc key)[i] ∈ find doc key := List.getElem_mem hi
  have hturn := getElem_find_not_mem_take hkey hi
  have hdone : ∀ q ∈ (find doc key).take i, q ∈ find doc key := fun q hq => List.mem_of_mem_take hq
  obtain ⟨body, hbody, hb, -⟩ := IsPlaceholder.of_mem_find_key hkey hp
  have hnamed : (named key (braced body)).isSome = true := isSome_named_of_mem_find hkey hd (hbody ▸ hp)
  have hanswer : ∀ q ∈ find doc [], ∀ t, changed text ((find doc key).take i) q = some t → '{' ∉ t := by
    intro q _ t ht
    rw [changed] at ht
    split at ht
    · next h =>
      obtain rfl := Option.some.inj ht
      exact (htext q (hdone q h.1)).resolve_left h.2
    · cases ht
  have hwaits : changed text ((find doc key).take i) (braced body) = none := if_neg fun h => hturn (hbody ▸ h.1)
  refine .inr ?_
  rw [atOnce_eq_answered hkey hd hdone, hbody, occurrences_answered hd hanswer hb hwaits,
    hd.cut_eq (atOpenings_named (hkey.not_mem (by decide))), Piece.hits_flatMap_under,
    List.count_filter (by exact hnamed)]

end Tidy

end Document

end Stencil
