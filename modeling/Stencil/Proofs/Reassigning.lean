import Stencil.Proofs.Ordered

/-! # Assigning once more

What has been merged in can be merged in again and nothing changes (`Absorbed`). The base may have
changed its kind in between, so that the second merge goes another way than the first; the member lemmas
are about the incoming side alone (`Inherited.absorbed`), and hold of any base, also of one that has a key
twice. A value that meets itself is the case of a base that is no collection (`Absorbed.merge_self`). For
templates: the same bindings assigned twice are kept as if assigned once (`Template.assign_again`). -/

namespace Stencil

namespace Entries
variable {α : Type} {key key' : Text} {f g : Option α → α} {base es : Entries α} {combine : α → α → α}

theorem alter_comm (hne : key ≠ key') (hkey : key ∈ keys es) :
    alter key f (alter key' g es) = alter key' g (alter key f es) := by
  induction es with
  | nil => cases hkey
  | cons e es ih =>
    obtain ⟨k, a⟩ := e
    by_cases hk : k = key
    · subst hk
      simp [alter, hne]
    · have hkey : key ∈ keys es := (List.mem_cons.1 hkey).resolve_left (Ne.symm hk)
      by_cases hk' : k = key' <;> simp [alter, hk, hk', ih hkey, Ne.symm hne]

theorem alter_alter (h : ∀ old, f (some (f old)) = f old) (es : Entries α) :
    alter key f (alter key f es) = alter key f es := by
  induction es with
  | nil => simp [alter, h]
  | cons e es ih =>
    obtain ⟨k, a⟩ := e
    by_cases hk : k = key <;> simp [alter, hk, h, ih]

theorem alter_absorb (hkey : key ∈ keys base) (hnew : key ∉ keys es) :
    alter key f (absorb combine base es) = absorb combine (alter key f base) es := by
  induction es generalizing base with
  | nil => rfl
  | cons e es ih =>
    obtain ⟨k, a⟩ := e
    obtain ⟨hne, hnew⟩ := not_or.1 (mt List.mem_cons.2 hnew)
    have hkey' : key ∈ keys (alter k (·.elim a (combine · a)) base) := by
      rw [keys_alter]
      split
      · exact hkey
      · exact List.mem_append_left _ hkey
    rw [absorb, ih hkey' hnew, alter_comm hne hkey, absorb]

theorem mem_keys_alter (key : Text) (f : Option α → α) (es : Entries α) : key ∈ keys (alter key f es) := by
  rw [keys_alter]
  split
  · assumption
  · exact List.mem_append_right _ List.mem_cons_self

/-- Entries that come in a second time change nothing, if combining with one of them a second time
changes nothing. -/
theorem absorb_absorb (hes : (keys es).Nodup) (hself : ∀ e ∈ es, combine e.2 e.2 = e.2)
    (hagain : ∀ e ∈ es, ∀ old, combine (combine old e.2) e.2 = combine old e.2) (base : Entries α) :
    absorb combine (absorb combine base es) es = absorb combine base es := by
  induction es generalizing base with
  | nil => rfl
  | cons e es ih =>
    obtain ⟨key, a⟩ := e
    obtain ⟨hkey, hes⟩ := List.nodup_cons.1 hes
    obtain ⟨hselfa, hself⟩ := List.forall_mem_cons.1 hself
    obtain ⟨hagaina, hagain⟩ := List.forall_mem_cons.1 hagain
    have hstep : ∀ old : Option α, combine (old.elim a (combine · a)) a = old.elim a (combine · a) := by
      rintro (_ | old)
      · exact hselfa
      · exact hagaina old
    -- the second `a` is brought forward to the first one, over the entries between them
    rw [absorb, absorb, alter_absorb (mem_keys_alter ..) hkey, alter_alter hstep, ih hes hself hagain]

end Entries

namespace Value
variable {τ : Type}

/-- Merged in a second time, the value changes nothing. -/
def Absorbed (v : Value τ) : Prop := ∀ old : Value τ, (old.merge v).merge v = old.merge v

theorem Absorbed.merge_self {v : Value τ} (h : v.Absorbed) : v.merge v = v := by
  have hnull : null.merge v = v := merge_eq_incoming fun hboth => nomatch hboth.1
  have hself := h null
  rwa [hnull] at hself

theorem mergeItems_nil (items : List (Value τ)) : mergeItems [] items = items := by
  induction items with
  | nil => rw [mergeItems]
  | cons v items ih => rw [mergeItems, ih]

theorem mergeItems_mergeItems {items : List (Value τ)} (h : ∀ v ∈ items, v.Absorbed) (base : List (Value τ)) :
    mergeItems (mergeItems base items) items = mergeItems base items := by
  induction items generalizing base with
  | nil => simp only [mergeItems]
  | cons v items ih =>
    obtain ⟨hv, hitems⟩ := List.forall_mem_cons.1 h
    cases base with
    | nil => rw [mergeItems, mergeItems, hv.merge_self, ih hitems]
    | cons old base => rw [mergeItems, mergeItems, hv old, ih hitems]

theorem mergeEntries_mergeEntries {es : Dict τ} (hkeys : es.keys.Nodup) (h : ∀ e ∈ es, e.2.Absorbed)
    (base : Dict τ) : mergeEntries (mergeEntries base es) es = mergeEntries base es := by
  simp only [mergeEntries_eq_absorb]
  exact Entries.absorb_absorb hkeys (fun e he => (h e he).merge_self) (fun e he => h e he) base

theorem mergeEntries_nil {es : Dict τ} (hkeys : es.keys.Nodup) : mergeEntries [] es = es := by
  have hnil : (Entries.keys ([] : Dict τ)).Nodup := List.nodup_nil
  rw [mergeEntries_eq_absorb, Entries.absorb_eq_joined _ hnil hkeys, Entries.joined_nil]

/-- A value is absorbed if every collection keeps what it left there, and an empty one becomes the value. -/
theorem absorbed_of_collections {v : Value τ} (empty : Value τ) (hempty : empty.isCollection = true)
    (hfill : empty.merge v = v) (h : ∀ old : Value τ, old.isCollection = true → (old.merge v).merge v = old.merge v) : v.Absorbed := by
  intro old
  by_cases hold : old.isCollection = true
  · exact h old hold
  · -- the value stands there alone, as it does in the empty collection
    rw [merge_eq_incoming fun hboth => hold hboth.1]
    have hself := h empty hempty
    rwa [hfill] at hself

theorem Inherited.absorbed {P : Value τ → Prop} (hP : Inherited List.Nodup P) {v : Value τ} (h : P v) :
    v.Absorbed := by
  induction v using memberInduction with
  | plain v hv =>
    have hreplaced : ∀ old : Value τ, old.merge v = v := fun old =>
      merge_eq_incoming fun hboth => by rw [hv] at hboth; cases hboth.2
    exact fun old => by rw [hreplaced, hreplaced]
  | list items ih =>
    have hitems : ∀ v ∈ items, v.Absorbed := fun v hv => ih v hv ((hP.list items).1 h v hv)
    refine absorbed_of_collections (.list []) rfl (by rw [Value.merge, mergeItems_nil]) fun old hold => ?_
    cases old with
    | list base => rw [Value.merge, Value.merge, mergeItems_mergeItems hitems]
    | dict base =>
      rw [Value.merge, Value.merge, mergeIndexed_eq, mergeIndexed_eq]
      exact congrArg Value.dict <| mergeEntries_mergeEntries (Entries.nodup_keys_indexedFrom 0 items)
        (fun e he => hitems _ (Entries.snd_mem_of_mem_indexedFrom he)) base
    | _ => cases hold
  | dict es ih =>
    obtain ⟨hkeys, hes⟩ := (hP.dict es).1 h
    have hes : ∀ e ∈ es, e.2.Absorbed := fun e he => ih e he (hes e he)
    refine absorbed_of_collections (.dict []) rfl (by rw [Value.merge, mergeEntries_nil hkeys]) fun old hold => ?_
    cases old with
    | list base => rw [Value.merge, Value.merge, mergeEntries_mergeEntries hkeys hes]
    | dict base => rw [Value.merge, Value.merge, mergeEntries_mergeEntries hkeys hes]
    | _ => cases hold

/-- No dict in a value has a key twice; its templates are not looked into. -/
inductive DistinctKeys : Value τ → Prop
  | plain {v} (h : v.isCollection = false) : DistinctKeys v
  | list {items} (h : ∀ v ∈ items, DistinctKeys v) : DistinctKeys (.list items)
  | dict {es} (hkeys : (Entries.keys es).Nodup) (h : ∀ e ∈ es, DistinctKeys e.2) : DistinctKeys (.dict es)

theorem inherited_distinctKeys : Inherited List.Nodup (DistinctKeys (τ := τ)) where
  list items := ⟨fun h => by cases h <;> first | assumption | contradiction, .list⟩
  dict es := ⟨fun h => by cases h <;> first | exact ⟨‹_›, ‹_›⟩ | contradiction, fun h => .dict h.1 h.2⟩
  indexed items := Entries.nodup_keys_indexedFrom 0 items
  concat hkeys hnew := Entries.nodup_concat hkeys hnew

end Value

namespace Template
variable {φ : Type} {t once : Template φ} {b : Value (Template φ)}

theorem ofBindings_eq_ok_iff {τ : Type} {use : BindingUse} {v : Value τ} {es : Dict τ} :
    Dict.ofBindings use v = .ok es ↔ (v = .null ∧ es = []) ∨ v.entries? = some es := by
  cases v <;> simp [Dict.ofBindings, Value.entries?, eq_comm]

/-- Null clears the bindings that a template keeps, and a collection is merged into them by its entries. -/
theorem assign_eq_ok_iff : t.assign b = .ok once ↔
    (b = .null ∧ once = t.clearAssigned) ∨
      ∃ es, b.entries? = some es ∧ once = { t with assigned := Dict.merge t.assigned es } := by
  by_cases hb : b = .null
  · subst hb
    simp [assign, Value.entries?, eq_comm]
  · have hassign : t.assign b = Dict.ofBindings .assign b >>= fun es =>
        .ok { t with assigned := Dict.merge t.assigned es } := by
      cases b <;> first | exact absurd rfl hb | rfl
    rw [hassign, bind_eq_ok_iff]
    simp only [ofBindings_eq_ok_iff, hb, false_and, false_or, Except.ok.injEq]
    exact exists_congr fun es => and_congr_right fun _ => eq_comm

/-- What was merged in, at any depth, is merged in again without effect: no variant, key, order or element
changes. So bindings that a template accepts (a dict, a list or null) leave it as it is when they are
assigned a second time. -/
theorem assign_again (hb : b.DistinctKeys) :
    (∀ a : Value (Template φ), (a.merge b).merge b = a.merge b) ∧
      ∀ t : Template φ, ((∃ once, t.assign b = .ok once) ↔ b.isNull = true ∨ b.isCollection = true) ∧
        ∀ once, t.assign b = .ok once → once.assign b = .ok once := by
  refine ⟨Value.inherited_distinctKeys.absorbed hb, fun t => ⟨?_, fun once honce => ?_⟩⟩
  · cases b <;> simp [assign_eq_ok_iff, Value.entries?, Value.isNull, Value.isCollection]
  · rcases assign_eq_ok_iff.1 honce with ⟨rfl, rfl⟩ | ⟨es, hes, rfl⟩
    · rfl
    · refine assign_eq_ok_iff.2 (.inr ⟨es, hes, ?_⟩)
      have hentries := Value.inherited_distinctKeys.entries? hb hes
      have hmerge := Value.inherited_distinctKeys.absorbed hentries (.dict t.assigned)
      rw [Value.merge, Value.merge] at hmerge
      exact congrArg (fun assigned => { t with assigned }) (Value.dict.inj hmerge).symm

/-- A number gives way to a list, and a list turns into a dict under a template that is merged in. -/
theorem assign_again_over_list :
    let b : Value (Template Empty) :=
      .dict [(['a'], .dict [(['1'], .list [.null]), (['x'], .template ⟨[], [], [], []⟩)]), (['b'], .list [.int 2])]
    let t : Template Empty := ⟨[], [], [(['b'], .int 1), (['a'], .list [.bool true, .int 1])], []⟩
    let once : Template Empty := ⟨[], [], [(['b'], .list [.int 2]), (['a'], .dict [(['0'], .bool true),
      (['1'], .list [.null]), (['x'], .template ⟨[], [], [], []⟩)])], []⟩
    b.DistinctKeys ∧ t.assign b = .ok once ∧ once.assign b = .ok once := by
  intro b t once
  have hb : b.DistinctKeys := by
    refine .dict (by decide) (List.forall_mem_cons.2 ⟨.dict (by decide) (List.forall_mem_cons.2 ⟨?_, ?_⟩), ?_⟩)
    · exact .list (List.forall_mem_singleton.2 (.plain rfl))
    · exact List.forall_mem_singleton.2 (.plain rfl)
    · exact List.forall_mem_singleton.2 (.list (List.forall_mem_singleton.2 (.plain rfl)))
  have honce : t.assign b = .ok once := by
    refine assign_eq_ok_iff.2 (.inr ⟨_, rfl, ?_⟩)
    have hdigits : Nat.toDigits 10 0 = ['0'] ∧ Nat.toDigits 10 1 = ['1'] := by decide
    simp [t, once, Dict.merge, Value.mergeEntries, Value.merge, Entries.alter, Entries.indexed,
      Entries.indexedFrom, hdigits]
  exact ⟨hb, honce, ((assign_again hb).2 t).2 once honce⟩

end Template
end Stencil
