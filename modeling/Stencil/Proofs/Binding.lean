import Stencil.Template.Render
import Stencil.Proofs.Reading
import Stencil.Proofs.Tidy

/-! # What bindings hold for a placeholder

`Dict.resolve?` is the value that bindings give to a placeholder, read off the placeholder alone. It
goes through the resolving of templates (`Dict.resolve?_map`), and a binding looks at the placeholders
that read as slots of its key and at no others (`touches_iff`). -/

namespace Stencil
open Text Placeholder
variable {τ σ φ : Type}

/-- A host without user filters, at the epoch. -/
def Host.bare : Host Empty := ⟨⟨none, 0⟩, Empty.elim⟩

namespace Entries
variable {α β : Type}

theorem get?_map (g : α → β) (key : Text) (es : Entries α) :
    get? key (es.map fun e => (e.1, g e.2)) = (get? key es).map g := by
  induction es with
  | nil => rfl
  | cons e es ih =>
    obtain ⟨k, a⟩ := e
    by_cases h : k = key
    · simp [get?, h]
    · simpa [get?, h] using ih

theorem get?_eq_some_iff {key : Text} {a : α} {es : Entries α} (h : (keys es).Nodup) :
    get? key es = some a ↔ (key, a) ∈ es := by
  induction es with
  | nil => simp
  | cons e es ih =>
    obtain ⟨k, b⟩ := e
    obtain ⟨hk, h⟩ := List.nodup_cons.1 h
    by_cases hkey : k = key
    · subst hkey
      have hno : (k, a) ∉ es := fun hm => hk (List.mem_map.2 ⟨_, hm, rfl⟩)
      simp [get?, hno, eq_comm]
    · simp [get?, hkey, Ne.symm hkey, ih h]

theorem get?_perm {es es' : Entries α} (h : (keys es).Nodup) (hp : es'.Perm es) (key : Text) :
    get? key es' = get? key es := by
  have h' : (keys es').Nodup := ((hp.map Prod.fst).nodup_iff).2 h
  refine Option.ext fun a => ?_
  rw [get?_eq_some_iff h, get?_eq_some_iff h', hp.mem_iff]

end Entries

namespace Value
variable (f : τ → σ)

theorem mapItems_eq_map (vs : List (Value τ)) : mapItems f vs = vs.map (Value.map f) := by
  induction vs with
  | nil => rfl
  | cons v vs ih => rw [mapItems, ih, List.map_cons]

theorem mapEntries_eq_map (es : List (Text × Value τ)) :
    mapEntries f es = es.map fun e => (e.1, e.2.map f) := by
  induction es with
  | nil => rfl
  | cons e es ih =>
    obtain ⟨k, v⟩ := e
    rw [mapEntries, ih, List.map_cons]

/-- Whether a value is a template; the parts of a collection do not count. -/
def isTemplate : Value τ → Bool
  | template _ => true
  | _ => false

@[simp] theorem isTemplate_map (v : Value τ) : (v.map f).isTemplate = v.isTemplate := by
  cases v <;> rfl

@[simp] theorem isNull_map (v : Value τ) : (v.map f).isNull = v.isNull := by
  cases v <;> rfl

@[simp] theorem isEmptyCollection_map (v : Value τ) : (v.map f).isEmptyCollection = v.isEmptyCollection := by
  cases v with
  | list items => simp [map, isEmptyCollection, mapItems_eq_map]
  | dict es => simp [map, isEmptyCollection, mapEntries_eq_map]
  | _ => rfl

theorem attr?_map (name : Text) (v : Value τ) : (v.map f).attr? name = (v.attr? name).map (Value.map f) := by
  cases v with
  | list items =>
    simp only [map, attr?, mapItems_eq_map, List.getElem?_map]
    cases Decimal.index? name <;> rfl
  | dict es => simp only [map, attr?, mapEntries_eq_map, Entries.get?_map]
  | _ => rfl

end Value

theorem Document.resolve?_map (f : τ → σ) (slot : Slot) (v : Value τ) :
    resolve? slot (v.map f) = (resolve? slot v).map (Value.map f) := by
  have hpart : ∀ o : Option (Value τ),
      ((o.map (Value.map f)).bind fun part => if part.isNull then none else some part) =
        (o.bind fun part => if part.isNull then none else some part).map (Value.map f) := by
    rintro (_ | part)
    · rfl
    · cases h : part.isNull <;> simp [h]
  cases h : slot.attr with
  | none => simp only [resolve?, h]; exact hpart (some v)
  | some name => simp only [resolve?, h, Value.attr?_map]; exact hpart (v.attr? name)

theorem Document.substituteKey_eq (host : Host φ) (user : Entries φ) {keep : Bool} {key doc : Text}
    {v : Value Outcome} (hv : v.isTemplate = false) :
    substituteKey host user keep doc (key, v) =
      if v.isEmptyCollection then .ok doc
      else (Placeholder.find doc key).foldlM (substituteOne host user keep v) doc := by
  cases v with
  | template t => cases hv
  | _ => rfl

theorem Document.substitute_singleton (host : Host φ) (user : Entries φ) {keep : Bool} {doc : Text}
    (e : Text × Value Outcome) : substitute host user keep [e] doc = substituteKey host user keep doc e := by
  simp only [substitute, List.foldlM_cons, List.foldlM_nil, bind_pure]

theorem Document.settled_map_resolved (host : Host φ) (v : Value (Template φ)) :
    settled (v.map (Template.resolved host)) = v.rendered host :=
  Value.settle_map _ _ v

theorem Template.resolvedEntries_eq_map (host : Host φ) (b : Dict (Template φ)) :
    resolvedEntries host b = b.map fun e => (e.1, e.2.map (resolved host)) := by
  rw [resolvedEntries_eq_mapEntries, Value.mapEntries_eq_map]

/-- The document once both bindings are applied, before defaults are filled in. -/
def Document.bound (host : Host φ) (user : Entries φ) (once kept : Dict (Template φ)) (doc : Text) : Outcome :=
  substitute host user false (Template.resolvedEntries host once) doc >>=
    substitute host user false (Template.resolvedEntries host kept)

theorem Template.renderWith_dict (host : Host φ) (once : Dict (Template φ)) (t : Template φ) :
    t.renderWith host (.dict once) =
      (Document.bound host t.filters once t.assigned t.source).map Document.fillDefaults := by
  rw [Document.bound]
  show (Document.substitute host t.filters false (resolvedEntries host once) t.source >>= fun doc =>
    Document.substitute host t.filters false (resolvedEntries host t.assigned) doc >>= fun doc =>
      pure (Document.fillDefaults doc)) = _
  cases Document.substitute host t.filters false (resolvedEntries host once) t.source with
  | error e => rfl
  | ok doc =>
    show (Document.substitute host t.filters false (resolvedEntries host t.assigned) doc >>= _) =
      (Document.substitute host t.filters false (resolvedEntries host t.assigned) doc).map _
    cases Document.substitute host t.filters false (resolvedEntries host t.assigned) doc <;> rfl

theorem Template.renderWith_of_assigned_eq_nil (host : Host φ) (once : Dict (Template φ)) {t : Template φ}
    (h : t.assigned = []) :
    t.renderWith host (.dict once) =
      (Document.substitute host t.filters false (resolvedEntries host once) t.source).map
        Document.fillDefaults := by
  rw [renderWith_dict, Document.bound, h]
  cases Document.substitute host t.filters false (resolvedEntries host once) t.source <;> rfl

namespace Dict

/-- The value that bindings give to a placeholder, and the slot that it fills. -/
def resolve? (b : Dict τ) (placeholder : Text) : Option (Slot × Value τ) := do
  let slot ← Slot.ofPlaceholder? placeholder
  let v ← Entries.get? slot.key b
  if v.isEmptyCollection then none else return (slot, ← Document.resolve? slot v)

/-- Bindings of words to values other than templates. -/
structure Plain (b : Dict τ) : Prop where
  nodup : (Entries.keys b).Nodup
  isKey : ∀ e ∈ b, IsKey e.1
  no_template : ∀ e ∈ b, e.2.isTemplate = false

instance (b : Dict τ) : Decidable (Plain b) :=
  decidable_of_iff ((Entries.keys b).Nodup ∧ (∀ e ∈ b, IsKey e.1) ∧ ∀ e ∈ b, e.2.isTemplate = false)
    ⟨fun h => ⟨h.1, h.2.1, h.2.2⟩, fun h => ⟨h.1, h.2, h.3⟩⟩

namespace Plain
variable {b b' : Dict τ}

theorem tail {e : Text × Value τ} (h : Plain (e :: b)) : Plain b :=
  ⟨(List.nodup_cons.1 h.nodup).2, fun d hd => h.isKey d (List.mem_cons_of_mem _ hd),
    fun d hd => h.no_template d (List.mem_cons_of_mem _ hd)⟩

theorem perm (h : Plain b) (hp : b'.Perm b) : Plain b' :=
  ⟨((hp.map Prod.fst).nodup_iff).2 h.nodup, fun e he => h.isKey e (hp.mem_iff.1 he),
    fun e he => h.no_template e (hp.mem_iff.1 he)⟩

theorem map (f : τ → σ) (h : Plain b) : Plain (b.map fun e => (e.1, e.2.map f)) where
  nodup := by
    have : Entries.keys (b.map fun e => (e.1, e.2.map f)) = Entries.keys b := by simp [Entries.keys]
    rw [this]; exact h.nodup
  isKey e he := by
    obtain ⟨d, hd, rfl⟩ := List.mem_map.1 he
    exact h.isKey d hd
  no_template e he := by
    obtain ⟨d, hd, rfl⟩ := List.mem_map.1 he
    rw [Value.isTemplate_map]; exact h.no_template d hd

end Plain

theorem resolve?_map (f : τ → σ) (b : Dict τ) (p : Text) :
    resolve? (b.map fun e => (e.1, e.2.map f)) p = (b.resolve? p).map fun r => (r.1, r.2.map f) := by
  simp only [resolve?]
  cases Slot.ofPlaceholder? p with
  | none => rfl
  | some slot =>
    simp only [Option.bind_eq_bind, Option.bind_some, Entries.get?_map]
    cases Entries.get? slot.key b with
    | none => rfl
    | some v =>
      simp only [Option.map_some, Option.bind_some, Value.isEmptyCollection_map, Document.resolve?_map]
      cases v.isEmptyCollection with
      | true => rfl
      | false => cases Document.resolve? slot v <;> rfl

end Dict

theorem Dict.resolve?_perm {b b' : Dict τ} (h : b.Plain) (hp : b'.Perm b) (p : Text) :
    b'.resolve? p = b.resolve? p := by
  simp only [resolve?, Entries.get?_perm h.nodup hp]

/-- A binding looks at a placeholder exactly when it reads as a slot of its key. -/
theorem touches_iff {name body : Text} {slot : Slot} (hname : IsKey name) (hb : Braceless body)
    (h : Slot.ofPlaceholder? (braced body) = some slot) :
    touches name (braced body) = true ↔ slot.key = name := by
  have hfirst : body.head? ≠ some '{' := fun h => hb.no_opening (List.mem_of_mem_head? h)
  have hlast : body.getLast? ≠ some '}' := fun h => hb.no_closing (List.mem_of_getLast? h)
  obtain ⟨tail, hreads⟩ := (Slot.ofPlaceholder?_braced_eq_some_iff hfirst hlast).1 h
  have hclosing : '}' ∉ name := hname.not_mem (by decide)
  obtain ⟨c, rest, rfl⟩ := List.exists_cons_of_ne_nil hname.ne_nil
  have htouches : touches (c :: rest) (braced body) = true ↔ Headed (c :: rest) body := by
    rw [touches, List.isEmpty_cons, Bool.false_or, Option.isSome_iff_exists]
    constructor
    · rintro ⟨⟨⟨⟩, n⟩, hn⟩
      obtain ⟨body', s, hs, hb', hhead, -⟩ := (named_eq_some_iff hclosing).1 hn
      rw [← List.append_nil (braced body)] at hs
      exact (braced_append_inj hb.no_closing hb' hs).1 ▸ hhead
    · intro hhead
      exact ⟨_, by simpa using named_of_headed hb.no_closing hhead []⟩
  rw [htouches]
  constructor
  · exact hreads.key_eq_of_headed hname
  · intro hkey
    exact hkey ▸ hreads.headed

end Stencil
