import Stencil.Proofs.Merging
import Stencil.Proofs.Chars
import Stencil.Template.Basic
import Stencil.Value.Edit

/-! # Dicts are maps in order

Entries whose keys are distinct are a map in the order of insertion (`isOrderedMap_of_nodup`), and
however a dict was built its keys are distinct, at every depth (`Dict.ordered_map`). The step lemma is
`UniqueKeys.apply`: an edit with values that have distinct keys keeps the keys of a dict distinct. -/

namespace Stencil
open Text

namespace Entries
variable {α : Type}

/-- A map in the order of insertion. A present key keeps its place and nothing else changes, a new one
goes to the end, and the entry of a removed one goes without the others moving. -/
structure IsOrderedMap (es : Entries α) : Prop where
  get?_iff : ∀ key a, es.get? key = some a ↔ (key, a) ∈ es
  contains_iff : ∀ key, es.contains key = true ↔ ∃ a, (key, a) ∈ es
  slot?_present : ∀ front key old back, es = front ++ (key, old) :: back →
    ∃ set, es.slot? key = some (old, set) ∧ ∀ a, set a = front ++ (key, a) :: back
  put_present : ∀ front key old back a, es = front ++ (key, old) :: back →
    es.put key a = (some old, front ++ (key, a) :: back)
  put_absent : ∀ key a, es.contains key = false → es.put key a = (none, es ++ [(key, a)])
  take_present : ∀ front key old back, es = front ++ (key, old) :: back →
    es.take key = (some old, front ++ back)
  take_absent : ∀ key, es.contains key = false → es.take key = (none, es)

theorem put_eq (key : Text) (a : α) (es : Entries α) : es.put key a = (es.get? key, es.insert key a) := by
  rw [put, slot?_eq]
  cases h : get? key es with
  | some old => rfl
  | none => exact congrArg (Prod.mk none) (insert_of_not_mem a (get?_eq_none_iff.1 h)).symm

theorem take_eq (key : Text) (es : Entries α) : es.take key = (es.get? key, es.erase key) := by
  induction es with
  | nil => rfl
  | cons e es ih =>
    obtain ⟨k, a⟩ := e
    by_cases hk : k = key
    · simp [take, get?, erase, hk]
    · simp [take, get?, erase, hk, ih]

theorem erase_of_not_mem {key : Text} {es : Entries α} (h : key ∉ keys es) : erase key es = es := by
  induction es with
  | nil => rfl
  | cons e es ih =>
    obtain ⟨hne, h⟩ := not_or.1 (mt List.mem_cons.2 h)
    rw [erase, if_neg (Ne.symm hne), ih h]

theorem erase_append {key : Text} {front : Entries α} (old : α) (back : Entries α) (h : key ∉ keys front) :
    erase key (front ++ (key, old) :: back) = front ++ back := by
  induction front with
  | nil => exact if_pos rfl
  | cons e es ih =>
    obtain ⟨hne, h⟩ := not_or.1 (mt List.mem_cons.2 h)
    rw [List.cons_append, erase, if_neg (Ne.symm hne), ih h, List.cons_append]

theorem get?_append_cons {key : Text} {front : Entries α} (old : α) (back : Entries α) (h : key ∉ keys front) :
    get? key (front ++ (key, old) :: back) = some old := by
  rw [get?_append, get?_eq_none_iff.2 h, Option.none_or, get?, if_pos rfl]

theorem isOrderedMap_of_nodup {es : Entries α} (h : es.keys.Nodup) : IsOrderedMap es where
  get?_iff key a := get?_eq_some_iff h
  contains_iff key := contains_iff.trans mem_keys
  slot?_present := by
    rintro front key old back rfl
    have hfront := not_mem_front h
    refine ⟨_, by rw [slot?_eq, get?_append_cons old back hfront]; rfl, fun a => ?_⟩
    rw [insert, alter_append _ old back hfront]
  put_present := by
    rintro front key old back a rfl
    have hfront := not_mem_front h
    rw [put_eq, get?_append_cons old back hfront, insert, alter_append _ old back hfront]
  put_absent key a hnone := by
    have hm := contains_eq_false_iff.1 hnone
    rw [put_eq, get?_eq_none_iff.2 hm, insert_of_not_mem a hm]
  take_present := by
    rintro front key old back rfl
    have hfront := not_mem_front h
    rw [take_eq, get?_append_cons old back hfront, erase_append old back hfront]
  take_absent key hnone := by
    have hm := contains_eq_false_iff.1 hnone
    rw [take_eq, get?_eq_none_iff.2 hm, erase_of_not_mem hm]

/-- What pairs do to entries, one after the other. -/
def collect (es pairs : Entries α) : Entries α := pairs.foldl (fun es (k, a) => insert k a es) es

theorem ofPairs_eq_collect (pairs : Entries α) : ofPairs pairs = collect [] pairs := rfl

theorem collect_cons (es : Entries α) (k : Text) (a : α) (pairs : Entries α) :
    collect es ((k, a) :: pairs) = collect (insert k a es) pairs := rfl

theorem keys_insert (key : Text) (a : α) (es : Entries α) :
    keys (insert key a es) = if key ∈ keys es then keys es else keys es ++ [key] :=
  keys_alter ..

theorem keys_collect (es pairs : Entries α) :
    keys (collect es pairs) = keys es ++ (distinct (keys pairs)).filter (fun k => k ∉ keys es) := by
  induction pairs generalizing es with
  | nil => simp [collect, keys, distinct]
  | cons p pairs ih =>
    obtain ⟨k, a⟩ := p
    have hcons : keys ((k, a) :: pairs) = k :: keys pairs := rfl
    rw [collect_cons, ih, keys_insert, hcons, distinct]
    by_cases hk : k ∈ keys es
    · rw [if_pos hk, List.filter_cons_of_neg (by simpa using hk), List.filter_filter]
      refine congrArg _ (List.filter_congr fun j _ => ?_)
      by_cases hj : j = k <;> simp [hj, hk]
    · rw [if_neg hk, List.filter_cons_of_pos (by simpa using hk), List.filter_filter, List.append_assoc,
        List.singleton_append]
      refine congrArg (_ ++ k :: ·) (List.filter_congr fun j _ => ?_)
      by_cases hj : j = k <;> simp [hj, hk]

theorem get?_collect (key : Text) (es pairs : Entries α) :
    get? key (collect es pairs) = (get? key pairs.reverse).or (get? key es) := by
  induction pairs generalizing es with
  | nil => rfl
  | cons p pairs ih =>
    obtain ⟨k, a⟩ := p
    rw [collect_cons, ih, get?_insert, List.reverse_cons, get?_append, Option.or_assoc]
    by_cases hk : k = key <;> simp [hk, get?]

end Entries

variable {φ : Type}

namespace Value

/-- No dict in a value has a key twice, nor has one in the bindings that a template in it keeps. -/
inductive UniqueKeys : Value (Template φ) → Prop
  | plain {v} (hc : v.isCollection = false) (ht : v.isTemplate = false) : UniqueKeys v
  | list {items} (h : ∀ v ∈ items, UniqueKeys v) : UniqueKeys (.list items)
  | dict {es} (hkeys : (Entries.keys es).Nodup) (h : ∀ e ∈ es, UniqueKeys e.2) : UniqueKeys (.dict es)
  | template {t} (h : UniqueKeys (.dict t.assigned)) : UniqueKeys (.template t)

theorem inherited_uniqueKeys : Inherited List.Nodup (UniqueKeys (φ := φ)) where
  list items := ⟨fun h => by cases h <;> first | assumption | contradiction, .list⟩
  dict es := ⟨fun h => by cases h <;> first | exact ⟨‹_›, ‹_›⟩ | contradiction, fun h => .dict h.1 h.2⟩
  indexed items := Entries.nodup_keys_indexedFrom 0 items
  concat hkeys hnew := Entries.nodup_concat hkeys hnew

theorem UniqueKeys.nil : UniqueKeys (φ := φ) (.dict []) := .dict List.nodup_nil fun _ he => nomatch he

theorem UniqueKeys.insert {d : Dict (Template φ)} {v : Value (Template φ)} (hd : UniqueKeys (.dict d))
    (hv : v.UniqueKeys) (key : Text) : UniqueKeys (.dict (d.insert key v)) :=
  inherited_uniqueKeys.alter hd hv

theorem UniqueKeys.erase {d : Dict (Template φ)} (hd : UniqueKeys (.dict d)) (key : Text) :
    UniqueKeys (.dict (d.erase key)) := by
  obtain ⟨hkeys, hmembers⟩ := (inherited_uniqueKeys.dict d).1 hd
  exact .dict (Entries.nodup_keys_erase hkeys) fun e he => hmembers e ((Entries.erase_sublist key d).subset he)

theorem UniqueKeys.ofValue {v : Value (Template φ)} (hv : v.UniqueKeys) : UniqueKeys (.dict (Dict.ofValue v)) := by
  rw [Dict.ofValue]
  cases hes : v.entries? with
  | some es => exact inherited_uniqueKeys.entries? hv hes
  | none => exact .nil

theorem UniqueKeys.collect {pairs : List (Text × Value (Template φ))} (h : ∀ e ∈ pairs, UniqueKeys e.2)
    {d : Dict (Template φ)} (hd : UniqueKeys (.dict d)) : UniqueKeys (.dict (d.collect pairs)) := by
  induction pairs generalizing d with
  | nil => exact hd
  | cons e pairs ih =>
    exact ih (fun e he => h e (List.mem_cons_of_mem _ he)) (hd.insert (h e List.mem_cons_self) e.1)

/-- No edit brings a key in twice, at any depth, unless its values have it twice. -/
theorem UniqueKeys.apply {d : Dict (Template φ)} (hd : UniqueKeys (.dict d)) (e : Dict.Edit (Template φ))
    (he : ∀ v ∈ e.values, v.UniqueKeys) : UniqueKeys (.dict (e.apply d)) := by
  cases e with
  | clear => exact .nil
  | insert key v =>
    rw [Dict.Edit.apply, Entries.put_eq]
    exact hd.insert (he v List.mem_cons_self) key
  | remove key =>
    rw [Dict.Edit.apply, Entries.take_eq]
    exact hd.erase key
  | merge incoming =>
    have hmerge := inherited_uniqueKeys.merge hd (he _ List.mem_cons_self)
    rwa [Value.merge] at hmerge
  | update key v =>
    rw [Dict.Edit.apply, Entries.slot?_eq]
    cases hold : Entries.get? key d with
    | none => exact hd
    | some old =>
      have hmember := ((inherited_uniqueKeys.dict d).1 hd).2 _ (Entries.mem_of_get?_eq_some hold)
      exact hd.insert (inherited_uniqueKeys.merge hmember (he v List.mem_cons_self)) key

end Value

mutual

/-- Values whose dicts were built by edits, at every depth. -/
inductive Value.Built : Value (Template φ) → Prop
  | plain {v} (hc : v.isCollection = false) (ht : v.isTemplate = false) : Value.Built v
  | list {items} (h : ∀ v ∈ items, Value.Built v) : Value.Built (.list items)
  | dict {d} (h : Dict.Built d) : Value.Built (.dict d)
  | template {t : Template φ} (h : Dict.Built t.assigned) : Value.Built (.template t)
  | merge {base incoming} (hbase : Value.Built base) (hincoming : Value.Built incoming) :
    Value.Built (base.merge incoming)

/-- Dicts that were made empty, of pairs or of a collection, and then edited any number of times, with
values that were built in the same way. -/
inductive Dict.Built : Dict (Template φ) → Prop
  | new : Dict.Built []
  | collect {pairs} (h : ∀ e ∈ pairs, Value.Built e.2) : Dict.Built (Entries.ofPairs pairs)
  | ofValue {v} (h : Value.Built v) : Dict.Built (Dict.ofValue v)
  | edit {d} (e : Dict.Edit (Template φ)) (hd : Dict.Built d) (he : ∀ v ∈ e.values, Value.Built v) :
    Dict.Built (e.apply d)

end

mutual

theorem Value.Built.uniqueKeys {v : Value (Template φ)} (h : v.Built) : v.UniqueKeys := by
  match h with
  | .plain hc ht => exact .plain hc ht
  | .list h => exact .list fun v hv => (h v hv).uniqueKeys
  | .dict h => exact h.uniqueKeys
  | .template h => exact .template h.uniqueKeys
  | .merge hbase hincoming => exact Value.inherited_uniqueKeys.merge hbase.uniqueKeys hincoming.uniqueKeys

theorem Dict.Built.uniqueKeys {d : Dict (Template φ)} (h : d.Built) : (Value.dict d).UniqueKeys := by
  match h with
  | .new => exact .nil
  | .collect h => exact Value.UniqueKeys.collect (fun e he => (h e he).uniqueKeys) .nil
  | .ofValue h => exact h.uniqueKeys.ofValue
  | .edit e hd he => exact hd.uniqueKeys.apply e fun v hv => (he v hv).uniqueKeys

end

/-- A dict is a map in order, however it was built: its keys are distinct at every depth, and edits answer
for the entries that they change and leave the others. Pairs that are collected keep the first place and
the last value of a key, and a list is collected by its positions. -/
theorem Dict.ordered_map {d : Dict (Template φ)} (h : d.Built) :
    (Value.dict d).UniqueKeys ∧ Entries.IsOrderedMap d ∧
      (∀ pairs : List (Text × Value (Template φ)),
        (Entries.ofPairs pairs).keys = distinct (Entries.keys pairs) ∧
          ∀ key, (Entries.ofPairs pairs).get? key = Entries.get? key pairs.reverse) ∧
      ∀ items : List (Value (Template φ)),
        Dict.ofValue (.list items) = Entries.ofPairs (Entries.indexed items) := by
  have hunique := h.uniqueKeys
  refine ⟨hunique, Entries.isOrderedMap_of_nodup ((Value.inherited_uniqueKeys.dict d).1 hunique).1,
    fun pairs => ⟨?_, fun key => ?_⟩,
    fun items => (Entries.ofPairs_eq_self (Entries.nodup_keys_indexedFrom 0 items)).symm⟩
  · rw [Entries.ofPairs_eq_collect, Entries.keys_collect]
    exact List.filter_eq_self.2 fun _ _ => rfl
  · rw [Entries.ofPairs_eq_collect, Entries.get?_collect, Entries.get?_nil, Option.or_none]

/-- A list under a repeated key, which a dict is merged into. -/
theorem Dict.list_under_repeated_key :
    let items : Value (Template Empty) := .list [.int 1, .dict [(['x'], .null)]]
    let pairs := [(['a'], .null), (['b'], .int 2), (['a'], items)]
    let d := (Edit.update ['a'] (.dict [(['1'], .dict [(['y'], .int 3)])])).apply (Entries.ofPairs pairs)
    d.Built ∧ (Value.dict d).UniqueKeys ∧ d.take ['b'] = (some (.int 2), d.dropLast) ∧
      (Entries.ofPairs pairs).keys = [['a'], ['b']] ∧ (Entries.ofPairs pairs).get? ['a'] = some items := by
  intro items pairs d
  have hone : ∀ (k : Text) {v : Value (Template Empty)}, v.Built → (Value.dict [(k, v)]).Built :=
    fun k v hv => .dict (.collect (List.forall_mem_singleton.2 hv : ∀ e ∈ [(k, v)], e.2.Built))
  have hitems : items.Built := .list fun v hv => by
    rcases List.mem_cons.1 hv with rfl | hv
    · exact .plain rfl rfl
    · exact List.mem_singleton.1 hv ▸ hone _ (.plain rfl rfl)
  have hpairs : ∀ e ∈ pairs, e.2.Built := by
    simp only [pairs, List.forall_mem_cons]
    exact ⟨.plain rfl rfl, .plain rfl rfl, hitems, fun _ h => nomatch h⟩
  have hd : d.Built := .edit _ (.collect hpairs) fun v hv =>
    List.mem_singleton.1 hv ▸ hone _ (hone _ (.plain rfl rfl))
  obtain ⟨hunique, hmap, hcollect, -⟩ := ordered_map hd
  exact ⟨hd, hunique, hmap.take_present [_] ['b'] (.int 2) [] rfl, (hcollect pairs).1, (hcollect pairs).2 ['a']⟩

end Stencil
