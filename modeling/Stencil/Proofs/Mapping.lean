import Stencil.Filter.Pipeline
import Stencil.Proofs.Binding

/-! # Filters and maps over templates

The built-in filters look at templates through what is shown for them and pass them on as they are:
`Builtin.apply_map` takes a map over the templates of a value to the other side of a filter. Data are the
values with templates of no kind, so every fact about a map is one about `Value.ofData`. -/

namespace Stencil
open Text
variable {τ σ : Type}

theorem comp_elim {α : Type} (g : τ → α) : g ∘ Empty.elim = Empty.elim := funext fun t => t.elim

namespace Value

mutual

theorem ofData_eq_map (d : Data) : (ofData d : Value τ) = d.map Empty.elim := by
  match d with
  | .null | .bool _ | .int _ | .float _ | .str _ => rfl
  | .list items => rw [ofData, map, ofDataItems_eq_mapItems items]
  | .dict es => rw [ofData, map, ofDataEntries_eq_mapEntries es]
  | .template t => exact t.elim

theorem ofDataItems_eq_mapItems (ds : List Data) :
    (ofDataItems ds : List (Value τ)) = mapItems Empty.elim ds := by
  match ds with
  | [] => rfl
  | d :: ds => rw [ofDataItems, mapItems, ofData_eq_map d, ofDataItems_eq_mapItems ds]

theorem ofDataEntries_eq_mapEntries (es : List (Text × Data)) :
    (ofDataEntries es : List (Text × Value τ)) = mapEntries Empty.elim es := by
  match es with
  | [] => rfl
  | (k, d) :: es => rw [ofDataEntries, mapEntries, ofData_eq_map d, ofDataEntries_eq_mapEntries es]

end

variable (f : τ → σ)

@[simp] theorem kind_map (v : Value τ) : (v.map f).kind = v.kind := by
  cases v <;> rfl

@[simp] theorem isCollection_map (v : Value τ) : (v.map f).isCollection = v.isCollection := by
  cases v <;> rfl

@[simp] theorem float?_map (v : Value τ) : (v.map f).float? = v.float? := by
  cases v <;> rfl

@[simp] theorem int?_map (v : Value τ) : (v.map f).int? = v.int? := by
  cases v <;> rfl

@[simp] theorem intOf_map (v : Value τ) : (v.map f).intOf = v.intOf := by
  cases v with
  | list items => simp [map, intOf, mapItems_eq_map]
  | dict es => simp [map, intOf, mapEntries_eq_map]
  | _ => rfl

@[simp] theorem floatOf_map (v : Value τ) : (v.map f).floatOf = v.floatOf := by
  cases v with
  | list items => exact congrArg Int64.toFloat (intOf_map f (.list items))
  | dict es => exact congrArg Int64.toFloat (intOf_map f (.dict es))
  | _ => rfl

@[simp] theorem date?_map (o : Calendar.Observer) (format : Text) (v : Value τ) :
    (v.map f).date? o format = v.date? o format := by
  cases v <;> rfl

theorem indexedFrom_map {α β : Type} (g : α → β) (n : Nat) (as : List α) :
    Entries.indexedFrom n (as.map g) = (Entries.indexedFrom n as).map fun e => (e.1, g e.2) := by
  induction as generalizing n with
  | nil => rfl
  | cons a as ih => rw [List.map_cons, Entries.indexedFrom, Entries.indexedFrom, ih, List.map_cons]

theorem entries?_map (v : Value τ) :
    (v.map f).entries? = v.entries?.map fun es => es.map fun e => (e.1, e.2.map f) := by
  cases v with
  | list items =>
    simp only [map, entries?, mapItems_eq_map, Option.map_some, Entries.indexed, indexedFrom_map]
  | dict es => simp only [map, entries?, mapEntries_eq_map, Option.map_some]
  | _ => rfl

variable (shown : σ → Text)

mutual

theorem json_map (v : Value τ) : (v.map f).json shown = v.json (shown ∘ f) := by
  match v with
  | .null | .int _ | .float _ | .str _ | .template _ => rfl
  | .bool true | .bool false => rfl
  | .list items => rw [map, json, json, jsonItems_mapItems items]
  | .dict es => rw [map, json, json, jsonEntries_mapEntries es]

theorem jsonItems_mapItems (vs : List (Value τ)) :
    jsonItems shown (mapItems f vs) = jsonItems (shown ∘ f) vs := by
  match vs with
  | [] => rfl
  | [v] => simp only [mapItems, jsonItems, json_map v]
  | v :: w :: vs =>
    have h := jsonItems_mapItems (w :: vs)
    simp only [mapItems] at h
    simp only [mapItems, jsonItems, json_map v, h]

theorem jsonEntries_mapEntries (es : List (Text × Value τ)) :
    jsonEntries shown (mapEntries f es) = jsonEntries (shown ∘ f) es := by
  match es with
  | [] => rfl
  | [(k, v)] => simp only [mapEntries, jsonEntries, json_map v]
  | (k, v) :: (l, w) :: es =>
    have h := jsonEntries_mapEntries ((l, w) :: es)
    simp only [mapEntries] at h
    simp only [mapEntries, jsonEntries, json_map v, h]

end

@[simp] theorem text_map (v : Value τ) : (v.map f).text shown = v.text (shown ∘ f) := by
  cases v with
  | list items => exact json_map f shown (.list items)
  | dict es => exact json_map f shown (.dict es)
  | bool b => cases b <;> rfl
  | _ => rfl

theorem text_ofData (shown : τ → Text) (d : Data) : (ofData d : Value τ).text shown = d.text := by
  rw [ofData_eq_map, text_map, comp_elim, Data.text]

mutual

theorem pairs_map (path : Text) (v : Value τ) : (v.map f).pairs shown path = v.pairs (shown ∘ f) path := by
  match v with
  | .null | .bool _ | .int _ | .float _ | .str _ | .template _ => rfl
  | .list items => rw [map, pairs, pairs, pairsOfItems_mapItems path 0 items]
  | .dict es => rw [map, pairs, pairs, pairsOfEntries_mapEntries path es]

theorem pairsOfItems_mapItems (path : Text) (n : Nat) (vs : List (Value τ)) :
    pairsOfItems shown path n (mapItems f vs) = pairsOfItems (shown ∘ f) path n vs := by
  match vs with
  | [] => rfl
  | v :: vs => rw [mapItems, pairsOfItems, pairsOfItems, pairs_map _ v, pairsOfItems_mapItems path (n + 1) vs]

theorem pairsOfEntries_mapEntries (path : Text) (es : List (Text × Value τ)) :
    pairsOfEntries shown path (mapEntries f es) = pairsOfEntries (shown ∘ f) path es := by
  match es with
  | [] => rfl
  | (k, v) :: es =>
    rw [mapEntries, pairsOfEntries, pairsOfEntries, pairs_map _ v, pairsOfEntries_mapEntries path es]

end

end Value

theorem Dict.ofValue_map (f : τ → σ) (v : Value τ) :
    ofValue (v.map f) = (ofValue v).map fun e => (e.1, e.2.map f) := by
  rw [ofValue, ofValue, Value.entries?_map]
  cases v.entries? <;> rfl

theorem Dict.query_map (f : τ → σ) (shown : σ → Text) (d : Dict τ) :
    query shown (d.map fun e => (e.1, e.2.map f)) = query (shown ∘ f) d := by
  simp only [query, List.flatMap_map, Value.pairs_map]

namespace Sprintf
variable (f : τ → σ) (shown : σ → Text)

theorem Conversion.body_map (c : Conversion) (specifier : Specifier) (v : Value τ) :
    c.body specifier shown (v.map f) = c.body specifier (shown ∘ f) v := by
  simp only [body, Value.text_map, Value.intOf_map, Value.floatOf_map]

theorem Conversion.write_map (c : Conversion) (v : Value τ) :
    c.write shown (v.map f) = c.write (shown ∘ f) v := by
  simp only [write, body_map]

theorem fill_map (args : List (Value τ)) (next : Nat) (ds : List Directive) :
    fill shown (args.map (Value.map f)) next ds = fill (shown ∘ f) args next ds := by
  induction ds generalizing next with
  | nil => rfl
  | cons d ds ih =>
    cases d with
    | literal c => rw [fill, fill, ih]
    | convert c =>
      simp only [fill, List.getElem?_map, List.length_map]
      cases args[c.argument.elim next (· - 1)]? with
      | none => rfl
      | some v => simp only [Option.map_some, Conversion.write_map, ih]

theorem format_map (text : Text) (args : List (Value τ)) :
    format shown text (args.map (Value.map f)) = format (shown ∘ f) text args := by
  simp only [format, fill_map]

end Sprintf

namespace Builtin
variable (f : τ → σ) (shown : σ → Text)

theorem absolute_map (v : Value τ) : absolute (v.map f) = (absolute v).map f := by
  have hint : ∀ n, (absInt n : Value σ) = (absInt n : Value τ).map f := fun n => by
    rw [absInt, absInt]; split <;> rfl
  cases v with
  | int n => exact hint n
  | str s =>
    simp only [absolute, Value.map, Value.float?]
    cases Value.numeral? s with
    | none => rfl
    | some x =>
      cases Decimal.int64? (trim s) with
      | none => rfl
      | some n => exact hint n
  | _ => rfl

theorem rows_map (row : Text) (es : Dict τ) :
    rows shown row (es.map fun e => (e.1, e.2.map f)) = rows (shown ∘ f) row es := by
  simp only [rows, List.map_map, Function.comp_def, Value.text_map]

/-- A filter sees of templates what is shown for them, and answers with no other ones. -/
theorem apply_map (observer : Calendar.Observer) (b : Builtin) (v : Value τ) (arg : Option Text) :
    b.apply observer shown (v.map f) arg = (b.apply observer (shown ∘ f) v arg).map (Value.map f) := by
  cases b with
  | html | raw | blank => rfl
  | url =>
    simp only [apply, Value.isCollection_map, Dict.ofValue_map, Dict.query_map, Value.text_map]
    rfl
  | abs => exact congrArg Except.ok (absolute_map f v)
  | selected | checked => simp only [apply, Value.text_map]; rfl
  | format =>
    cases arg with
    | none => rfl
    | some text =>
      have hargs : ((v.map f).entries?.elim [v.map f] fun es => es.map Prod.snd) =
          (v.entries?.elim [v] fun es => es.map Prod.snd).map (Value.map f) := by
        rw [Value.entries?_map]
        cases v.entries? with
        | none => rfl
        | some es => simp [Function.comp_def]
      simp only [apply, hargs, Sprintf.format_map]
      cases Sprintf.format (shown ∘ f) text (v.entries?.elim [v] fun es => es.map Prod.snd) <;> rfl
  | date =>
    cases arg with
    | none => rfl
    | some layout =>
      simp only [apply, Value.date?_map]
      cases v.date? observer layout <;> rfl
  | set => cases arg <;> simp only [apply, Value.text_map] <;> rfl
  | case => cases arg <;> simp only [apply, Value.int?_map] <;> rfl
  | sign => cases arg <;> simp only [apply, Value.float?_map] <;> rfl
  | each =>
    cases arg with
    | none => rfl
    | some row =>
      simp only [apply, Value.entries?_map, Value.kind_map]
      cases v.entries? with
      | none => rfl
      | some es => simp only [Option.map_some, rows_map]; rfl

theorem apply_ofData (observer : Calendar.Observer) (shown : τ → Text) (b : Builtin) (d : Data)
    (arg : Option Text) :
    b.apply observer shown (.ofData d) arg = (b.apply observer Empty.elim d arg).map Value.ofData := by
  rw [Value.ofData_eq_map, apply_map, comp_elim]
  exact congrArg (Except.map · _) (funext fun e => (Value.ofData_eq_map e).symm)

end Builtin
end Stencil
