import Stencil.Proofs.Reassigning
import Stencil.Settings.Overlay

/-! # Documents in layers

What an overlay holds under a path of keys (`at?_overlay`): where the document on top holds something, that, over
what the base holds there; where it leaves the path open, what the base holds; and nothing where a value on top
stands in the way. `Overrides` says this for any three documents. Entries change their places in an overlay, so that
laying a document on a second time changes nothing but the order of keys (`overlay_overlay`). -/

namespace Stencil

namespace Entries
variable {α : Type} {key : Text} {new : Option α → α} {es : Entries α}

theorem pull_of_not_mem (h : key ∉ keys es) : pull key es = es := by
  induction es with
  | nil => rfl
  | cons e es ih =>
    obtain ⟨hne, h⟩ := not_or.1 (mt List.mem_cons.2 h)
    rw [pull, if_neg (Ne.symm hne), ih h]

theorem perm_rotate (es : Entries α) : (es.getLast?.toList ++ es.dropLast).Perm es := by
  rcases List.eq_nil_or_concat es with rfl | ⟨front, last, rfl⟩
  · exact .refl _
  · rw [List.concat_eq_append, List.getLast?_concat, List.dropLast_concat]
    exact List.perm_append_comm

theorem perm_pull (old : α) (back : Entries α) {front : Entries α} (h : key ∉ keys front) :
    (pull key (front ++ (key, old) :: back)).Perm (front ++ back) := by
  induction front with
  | nil =>
    rw [List.nil_append, pull, if_pos rfl]
    exact perm_rotate back
  | cons e es ih =>
    obtain ⟨hne, h⟩ := not_or.1 (mt List.mem_cons.2 h)
    rw [List.cons_append, pull, if_neg (Ne.symm hne)]
    exact (ih h).cons e

/-- Renewing an entry alters it, but for its place. -/
theorem perm_renew (key : Text) (new : Option α → α) (es : Entries α) : (renew key new es).Perm (alter key new es) := by
  by_cases hm : key ∈ keys es
  · obtain ⟨front, old, back, rfl, hfront⟩ := exists_append_of_mem_keys hm
    rw [renew, get?_append_cons old back hfront, alter_append new old back hfront]
    refine ((perm_pull old back hfront).append_right _).trans ?_
    rw [List.append_assoc]
    exact .append_left front List.perm_append_comm
  · rw [renew, pull_of_not_mem hm, get?_eq_none_iff.2 hm, alter_of_not_mem new hm]

theorem nodup_keys_renew (h : (keys es).Nodup) : (keys (renew key new es)).Nodup :=
  (((perm_renew key new es).map Prod.fst).nodup_iff).2 (nodup_keys_alter h)

theorem get?_renew (h : (keys es).Nodup) (key' : Text) :
    get? key' (renew key new es) = if key = key' then some (new (get? key es)) else get? key' es := by
  rw [get?_perm (nodup_keys_alter h) (perm_renew key new es), get?_alter]

end Entries

namespace Value
variable {τ : Type} {a b v : Value τ} {path : List Text} {key : Text}

def isDict : Value τ → Bool
  | dict _ => true
  | _ => false

theorem isDict_iff : v.isDict = true ↔ ∃ es, v = .dict es := by
  cases v <;> simp [isDict]

theorem overlay_of_not_isDict (a : Value τ) (h : b.isDict = false) : a.overlay b = b := by
  cases b <;> first | (cases h; done) | rw [overlay]

theorem overlay_dict_of_not_isDict (h : a.isDict = false) (es : Dict τ) : a.overlay (.dict es) = .dict es := by
  cases a <;> first | (cases h; done) | (rw [overlay]; intros; contradiction)

/-- Nothing is left of what is no dict under another value. -/
theorem overlay_over_not_isDict (h : a.isDict = false) (b : Value τ) : a.overlay b = b := by
  cases hb : b.isDict with
  | false => exact overlay_of_not_isDict a hb
  | true =>
    obtain ⟨es, rfl⟩ := isDict_iff.1 hb
    exact overlay_dict_of_not_isDict h es

theorem nodup_keys_overlayEntries {base : Dict τ} (h : base.keys.Nodup) (top : Dict τ) :
    (Entries.keys (overlayEntries base top)).Nodup := by
  induction top generalizing base with
  | nil => rwa [overlayEntries]
  | cons e top ih =>
    rw [overlayEntries]
    exact ih (Entries.nodup_keys_renew h)

theorem get?_overlayEntries {base top : Dict τ} (hbase : base.keys.Nodup) (htop : top.keys.Nodup) (key : Text) :
    Entries.get? key (overlayEntries base top) = match top.get? key with
      | none => base.get? key
      | some v => some ((base.get? key).elim v (·.overlay v)) := by
  induction top generalizing base with
  | nil => rw [overlayEntries]; rfl
  | cons e top ih =>
    obtain ⟨k, v⟩ := e
    obtain ⟨hk, htop⟩ := List.nodup_cons.1 htop
    rw [overlayEntries, ih (Entries.nodup_keys_renew hbase) htop, Entries.get?_renew hbase, Entries.get?]
    by_cases hkey : k = key
    · subst hkey
      rw [Entries.get?_eq_none_iff.2 hk, if_pos rfl, if_pos rfl]
    · rw [if_neg hkey, if_neg hkey]

/-! ### Path by path -/

@[simp] theorem at?_nil (v : Value τ) : v.at? [] = some v := rfl

theorem at?_cons_dict (key : Text) (path : List Text) (es : Dict τ) :
    (dict es).at? (key :: path) = (es.get? key).bind (at? path) := rfl

theorem at?_cons_of_not_isDict (h : v.isDict = false) (key : Text) (path : List Text) : v.at? (key :: path) = none := by
  cases v <;> first | cases h; done | rfl

/-- Whether a document says nothing about a path: it ends on the way, and at a dict. -/
def leavesOpen : (path : List Text) → Value τ → Bool
  | key :: path, .dict es => (Entries.get? key es).elim true (leavesOpen path)
  | _, _ => false

theorem leavesOpen_cons_dict (key : Text) (path : List Text) (es : Dict τ) :
    (dict es).leavesOpen (key :: path) = (es.get? key).elim true (leavesOpen path) := rfl

theorem leavesOpen_of_not_isDict (h : v.isDict = false) (path : List Text) : v.leavesOpen path = false := by
  cases path <;> cases v <;> first | (cases h; done) | rfl

/-- A path is left open exactly if there is nothing under it and nothing but dicts on the way. -/
theorem leavesOpen_iff : b.leavesOpen path = true ↔
    b.at? path = none ∧ ∀ q, q <+: path → ∀ v, b.at? q = some v → v.isDict = true := by
  induction path generalizing b with
  | nil => simp [leavesOpen]
  | cons key path ih =>
    cases hb : b.isDict with
    | false =>
      rw [leavesOpen_of_not_isDict hb]
      exact iff_of_false Bool.false_ne_true fun h =>
        absurd (h.2 [] (List.nil_prefix) b rfl) (by rw [hb]; exact Bool.false_ne_true)
    | true =>
      obtain ⟨es, rfl⟩ := isDict_iff.1 hb
      have hway : (∀ q, q <+: key :: path → ∀ v, (dict es).at? q = some v → v.isDict = true) ↔
          ∀ q, q <+: path → ∀ v, (Entries.get? key es).bind (at? q) = some v → v.isDict = true := by
        constructor
        · exact fun h q hq v hv => h (key :: q) (List.cons_prefix_cons.2 ⟨rfl, hq⟩) v hv
        · intro h q hq v hv
          cases q with
          | nil => exact Option.some.inj hv ▸ rfl
          | cons k q =>
            obtain ⟨rfl, hway⟩ := List.cons_prefix_cons.1 hq
            exact h q hway v hv
      rw [hway, leavesOpen_cons_dict, at?_cons_dict]
      cases Entries.get? key es with
      | none => simp
      | some w => exact ih

theorem DistinctKeys.dict_iff {es : Dict τ} :
    DistinctKeys (.dict es) ↔ es.keys.Nodup ∧ ∀ e ∈ es, e.2.DistinctKeys := inherited_distinctKeys.dict es

theorem DistinctKeys.get? {es : Dict τ} (h : DistinctKeys (.dict es)) (hv : es.get? key = some v) : v.DistinctKeys :=
  (dict_iff.1 h).2 _ (Entries.mem_of_get?_eq_some hv)

theorem at?_overlay (ha : a.DistinctKeys) (hb : b.DistinctKeys) (path : List Text) :
    (a.overlay b).at? path = match b.at? path with
      | some v => some ((a.at? path).elim v (·.overlay v))
      | none => if b.leavesOpen path then a.at? path else none := by
  induction path generalizing a b with
  | nil => rfl
  | cons key path ih =>
    cases hdict : b.isDict with
    | false =>
      rw [overlay_of_not_isDict a hdict, at?_cons_of_not_isDict hdict, leavesOpen_of_not_isDict hdict]
      rfl
    | true =>
      obtain ⟨top, rfl⟩ := isDict_iff.1 hdict
      rw [at?_cons_dict, leavesOpen_cons_dict]
      cases hbase : a.isDict with
      | false =>
        -- the document on top stands there alone
        rw [overlay_dict_of_not_isDict hbase, at?_cons_of_not_isDict hbase, at?_cons_dict, ite_self]
        cases (Entries.get? key top).bind (at? path) <;> rfl
      | true =>
        obtain ⟨base, rfl⟩ := isDict_iff.1 hbase
        have hentry := get?_overlayEntries (DistinctKeys.dict_iff.1 ha).1 (DistinctKeys.dict_iff.1 hb).1 key
        rw [overlay, at?_cons_dict, at?_cons_dict, hentry]
        cases htop : Entries.get? key top with
        | none => rfl
        | some v =>
          cases hold : Entries.get? key base with
          | none =>
            -- nothing is there to lay the value over, nor to be left open
            show v.at? path = match v.at? path with
              | some w => some w
              | none => if v.leavesOpen path then none else none
            rw [ite_self]
            cases v.at? path <;> rfl
          | some old => exact ih (ha.get? hold) (hb.get? htop)

/-- `c` holds, path by path, what `b` says, and what `a` says where `b` says nothing. -/
structure Overrides (a b c : Value τ) : Prop where
  /-- A value that is no dict counts as it is. -/
  plain : ∀ path v, b.at? path = some v → v.isDict = false → c.at? path = some v
  /-- A dict goes over what stands there, if anything does. -/
  dict : ∀ path top, b.at? path = some (.dict top) →
    c.at? path = some ((a.at? path).elim (.dict top) (·.overlay (.dict top)))
  /-- Where `b` ends on the way, at a dict, `a` counts. -/
  left : ∀ path, b.at? path = none → (∀ q, q <+: path → ∀ v, b.at? q = some v → v.isDict = true) →
    c.at? path = a.at? path
  /-- There is nothing below a value of `b` that is no dict. -/
  hidden : ∀ path q v, q <+: path → q ≠ path → b.at? q = some v → v.isDict = false → c.at? path = none

theorem at?_append (path rest : List Text) (v : Value τ) : v.at? (path ++ rest) = (v.at? path).bind (at? rest) := by
  induction path generalizing v with
  | nil => rfl
  | cons key path ih =>
    cases hv : v.isDict with
    | false => rw [List.cons_append, at?_cons_of_not_isDict hv, at?_cons_of_not_isDict hv, Option.bind_none]
    | true =>
      obtain ⟨es, rfl⟩ := isDict_iff.1 hv
      rw [List.cons_append, at?_cons_dict, at?_cons_dict, Option.bind_assoc]
      exact congrArg _ (funext ih)

theorem at?_of_hidden {path q : List Text} (hq : q <+: path) (hne : q ≠ path) (hv : b.at? q = some v)
    (hdict : v.isDict = false) : b.at? path = none := by
  obtain ⟨rest, rfl⟩ := hq
  rw [at?_append, hv, Option.bind_some]
  cases rest with
  | nil => exact absurd (List.append_nil q).symm hne
  | cons key rest => exact at?_cons_of_not_isDict hdict key rest

theorem overrides_overlay (ha : a.DistinctKeys) (hb : b.DistinctKeys) : a.Overrides b (a.overlay b) where
  plain path v hv hdict := by
    rw [at?_overlay ha hb, hv]
    cases a.at? path with
    | none => rfl
    | some old => exact congrArg some (overlay_of_not_isDict old hdict)
  dict path top htop := by rw [at?_overlay ha hb, htop]
  left path hnone hway := by rw [at?_overlay ha hb, hnone, leavesOpen_iff.2 ⟨hnone, hway⟩, if_pos rfl]
  hidden path q v hq hne hv hdict := by
    have hopen : b.leavesOpen path = false :=
      Bool.eq_false_iff.2 fun h => Bool.false_ne_true (hdict ▸ (leavesOpen_iff.1 h).2 q hq v hv)
    rw [at?_overlay ha hb, at?_of_hidden hq hne hv hdict, hopen]
    rfl

/-- One document with the entries of its dicts in another order. -/
inductive Reordered : Value τ → Value τ → Prop
  | refl (v : Value τ) : Reordered v v
  | dict {es fs} (hkeys : (Entries.keys es).Perm (Entries.keys fs))
    (h : ∀ key v w, Entries.get? key es = some v → Entries.get? key fs = some w → Reordered v w) :
    Reordered (.dict es) (.dict fs)

theorem mem_keys_overlayEntries {base top : Dict τ} (hbase : base.keys.Nodup) (htop : top.keys.Nodup) :
    key ∈ Entries.keys (overlayEntries base top) ↔ key ∈ base.keys ∨ key ∈ top.keys := by
  rw [← Entries.get?_isSome_iff, get?_overlayEntries hbase htop, ← Entries.get?_isSome_iff, ← Entries.get?_isSome_iff]
  cases top.get? key <;> simp

/-- Under every key of a dict on top stands an overlay of the value there, over nothing in particular. -/
theorem exists_overlay_dict (ha : a.DistinctKeys) {top : Dict τ} (htop : top.keys.Nodup) :
    ∃ es : Dict τ, es.keys.Nodup ∧ a.overlay (.dict top) = .dict es ∧
      ∀ key v, top.get? key = some v → ∃ old : Value τ, old.DistinctKeys ∧ es.get? key = some (old.overlay v) := by
  have hnull : (null : Value τ).DistinctKeys := .plain rfl
  cases hbase : a.isDict with
  | false =>
    refine ⟨top, htop, overlay_dict_of_not_isDict hbase top, fun key v hv => ⟨null, hnull, ?_⟩⟩
    rw [overlay_over_not_isDict rfl, hv]
  | true =>
    obtain ⟨base, rfl⟩ := isDict_iff.1 hbase
    have hkeys := (DistinctKeys.dict_iff.1 ha).1
    refine ⟨overlayEntries base top, nodup_keys_overlayEntries hkeys top, by rw [overlay], fun key v hv => ?_⟩
    rw [get?_overlayEntries hkeys htop, hv]
    cases hold : Entries.get? key base with
    | none => exact ⟨null, hnull, by rw [overlay_over_not_isDict rfl]; rfl⟩
    | some old => exact ⟨old, ha.get? hold, rfl⟩

theorem overlay_overlay_of_not_isDict (a : Value τ) (h : b.isDict = false) :
    Reordered ((a.overlay b).overlay b) (a.overlay b) := by
  rw [overlay_of_not_isDict _ h, overlay_of_not_isDict _ h]
  exact .refl b

theorem overlay_overlay (ha : a.DistinctKeys) (hb : b.DistinctKeys) :
    Reordered ((a.overlay b).overlay b) (a.overlay b) := by
  induction b using memberInduction generalizing a with
  | plain b hplain => exact overlay_overlay_of_not_isDict a (by cases b <;> first | rfl | cases hplain)
  | list items => exact overlay_overlay_of_not_isDict a rfl
  | dict top ih =>
    have htop := (DistinctKeys.dict_iff.1 hb).1
    obtain ⟨es, hes, heq, hunder⟩ := exists_overlay_dict ha htop
    rw [heq, overlay]
    refine .dict ((List.perm_ext_iff_of_nodup (nodup_keys_overlayEntries hes top) hes).2 fun key => ?_) ?_
    · rw [mem_keys_overlayEntries hes htop]
      refine or_iff_left_of_imp fun hm => ?_
      obtain ⟨v, hv⟩ := Option.isSome_iff_exists.1 (Entries.get?_isSome_iff.2 hm)
      obtain ⟨old, -, hold⟩ := hunder key v hv
      exact Entries.get?_isSome_iff.1 (by rw [hold]; rfl)
    · intro key v w hv hw
      rw [get?_overlayEntries hes htop] at hv
      cases hkey : Entries.get? key top with
      | none =>
        rw [hkey, hw] at hv
        exact Option.some.inj hv ▸ .refl v
      | some x =>
        -- what stands there was laid over before
        obtain ⟨old, hdistinct, hold⟩ := hunder key x hkey
        rw [hkey, hw] at hv
        obtain rfl := Option.some.inj (hold.symm.trans hw)
        obtain rfl := Option.some.inj hv
        exact ih _ (Entries.mem_of_get?_eq_some hkey) hdistinct (hb.get? hkey)

end Value
end Stencil
