import Stencil.Proofs.Layers
import Stencil.Settings.Basic

/-! # Keys of documents

In what the readers of documents return, every key of the outermost dict stands once: a repeated key of JSON
keeps its first place and takes its last value (`Json.nodup_keys_of_read?`), and a table of TOML takes no key
twice, whatever headers and dotted keys it is put together from (`Toml.nodup_keys_of_read?`). -/

namespace Stencil
open Text

namespace Toml.Table
variable {table table' : Table} {fill : Table → Option Table}

/-- Every change to a table ends in one insert, behind whatever made the item. -/
theorem nodup_keys_of_insert {β : Type} {x : Option β} {k : Text} {f : β → Item} (h : table.keys.Nodup)
    (hx : (x.bind fun b => some (table.insert k (f b))) = some table') : table'.keys.Nodup := by
  obtain ⟨b, -, hb⟩ := Option.bind_eq_some_iff.1 hx
  obtain rfl := Option.some.inj hb
  exact Entries.nodup_keys_alter h

theorem nodup_keys_addItem {item : Item} {key : List Text} (h : table.keys.Nodup)
    (hadd : addItem item key table = some table') : table'.keys.Nodup := by
  rw [addItem.eq_def] at hadd
  split at hadd
  · cases hadd
  · split at hadd
    · cases hadd
    · exact nodup_keys_of_insert (x := some ()) (f := fun _ => item) h hadd
  · split at hadd
    · exact nodup_keys_of_insert h hadd
    · split at hadd
      · exact nodup_keys_of_insert h hadd
      · cases hadd
    · split at hadd
      · cases hadd
      · exact nodup_keys_of_insert h hadd
    · cases hadd

theorem nodup_keys_below {k : Text} {go : Table → Option Table} (h : table.keys.Nodup)
    (hbelow : openTable.below k go table = some table') : table'.keys.Nodup := by
  rw [openTable.below] at hbelow
  split at hbelow
  · exact nodup_keys_of_insert h hbelow
  · split at hbelow
    · cases hbelow
    · exact nodup_keys_of_insert h hbelow
  · exact nodup_keys_of_insert h hbelow
  · cases hbelow

theorem nodup_keys_openTable {path : List Text} (h : table.keys.Nodup)
    (hopen : openTable fill path table = some table') : table'.keys.Nodup := by
  rw [openTable.eq_def] at hopen
  split at hopen
  · cases hopen
  · split at hopen
    · exact nodup_keys_of_insert h hopen
    · exact nodup_keys_of_insert (Entries.nodup_keys_erase h) hopen
    · cases hopen
  · exact nodup_keys_below h hopen

theorem nodup_keys_openInArray {path : List Text} (h : table.keys.Nodup)
    (hopen : openInArray fill path table = some table') : table'.keys.Nodup := by
  rw [openInArray.eq_def] at hopen
  split at hopen
  · cases hopen
  · split at hopen
    · exact nodup_keys_of_insert h hopen
    · exact nodup_keys_of_insert h hopen
    · cases hopen
  · exact nodup_keys_below h hopen

theorem nodup_keys_addAll {pairs : List (List Text × Item)} (h : table.keys.Nodup)
    (hadd : addAll pairs table = some table') : table'.keys.Nodup := by
  induction pairs generalizing table with
  | nil => exact Option.some.inj hadd ▸ h
  | cons p pairs ih =>
    obtain ⟨next, hnext, hrest⟩ := Option.bind_eq_some_iff.1 ((List.foldlM_cons ..).symm.trans hadd)
    exact ih (nodup_keys_addItem h hnext) hrest

end Toml.Table

namespace Toml

theorem nodup_keys_addSections {ls : List Line} {table table' : Table} (h : table.keys.Nodup)
    (hadd : addSections table ls = some table') : table'.keys.Nodup := by
  fun_induction addSections table ls with
  | case1 => exact Option.some.inj hadd ▸ h
  | case2 table path ls ih =>
    obtain ⟨next, hnext, hrest⟩ := Option.bind_eq_some_iff.1 hadd
    exact ih next (Table.nodup_keys_openTable h hnext) hrest
  | case3 table path ls ih =>
    obtain ⟨next, hnext, hrest⟩ := Option.bind_eq_some_iff.1 hadd
    exact ih next (Table.nodup_keys_openInArray h hnext) hrest
  | case4 table ls ih => exact ih h hadd
  | case5 table key item ls ih => exact ih h hadd

theorem keys_entriesToData? {es : List (Text × Item)} {fs : List (Text × Data)} (h : entriesToData? es = some fs) :
    Entries.keys fs = Entries.keys es := by
  induction es generalizing fs with
  | nil =>
    rw [entriesToData?] at h
    exact Option.some.inj h ▸ rfl
  | cons e es ih =>
    obtain ⟨k, item⟩ := e
    rw [entriesToData?] at h
    obtain ⟨v, -, h⟩ := Option.bind_eq_some_iff.1 h
    obtain ⟨rest, hrest, h⟩ := Option.bind_eq_some_iff.1 h
    obtain rfl := Option.some.inj h
    exact congrArg (k :: ·) (ih hrest)

theorem nodup_keys_tableToData? {es : List (Text × Item)} {fs : List (Text × Data)} (hes : (Entries.keys es).Nodup)
    (h : tableToData? es = some (.dict fs)) : (Entries.keys fs).Nodup := by
  cases es with
  | nil =>
    rw [tableToData?] at h
    obtain rfl := Value.dict.inj (Option.some.inj h)
    exact hes
  | cons e es =>
    obtain ⟨k, item⟩ := e
    rw [tableToData?] at h
    split at h
    · -- a date is a text
      rw [Item.quotedDate?.eq_def] at h
      split at h
      · obtain ⟨t, -, ht⟩ := Option.map_eq_some_iff.1 h
        cases ht
      · cases h
    · obtain ⟨v, -, h⟩ := Option.bind_eq_some_iff.1 h
      obtain ⟨rest, hrest, h⟩ := Option.bind_eq_some_iff.1 h
      obtain rfl := Value.dict.inj (Option.some.inj h)
      have hkeys : Entries.keys ((k, v) :: rest) = Entries.keys ((k, item) :: es) :=
        congrArg (k :: ·) (keys_entriesToData? hrest)
      rwa [hkeys]

theorem nodup_keys_of_read? {s : Text} {es : List (Text × Data)} (h : read? s = some (.dict es)) :
    (Entries.keys es).Nodup := by
  rw [read?] at h
  obtain ⟨ls, -, h⟩ := Option.bind_eq_some_iff.1 h
  obtain ⟨leading, hleading, h⟩ := Option.bind_eq_some_iff.1 h
  obtain ⟨table, htable, h⟩ := Option.bind_eq_some_iff.1 h
  have hempty : (Entries.keys ([] : Table)).Nodup := List.nodup_nil
  have hkeys := Table.nodup_keys_addAll hempty hleading
  exact nodup_keys_tableToData? (nodup_keys_addSections hkeys htable) h

end Toml

namespace Json

theorem not_isDict_of_ofDigits? {negative : Bool} {whole : Text} {v : Data} (h : ofDigits? negative whole = some v) :
    v.isDict = false := by
  rw [ofDigits?] at h
  split at h
  · split at h
    · split at h <;> exact Option.some.inj h ▸ rfl
    · obtain ⟨x, -, rfl⟩ := Option.map_eq_some_iff.1 h
      rfl
  · split at h
    · exact Option.some.inj h ▸ rfl
    · obtain ⟨x, -, rfl⟩ := Option.map_eq_some_iff.1 h
      rfl

theorem not_isDict_of_map {α : Type} {o : Option α} {f : α → Data × Text} {v : Data} {rest : Text}
    (hf : ∀ a, (f a).1.isDict = false) (h : o.map f = some (v, rest)) : v.isDict = false := by
  obtain ⟨a, -, ha⟩ := Option.map_eq_some_iff.1 h
  have hplain := hf a
  rwa [ha] at hplain

theorem not_isDict_of_number? {s rest : Text} {v : Data} (h : number? s = some (v, rest)) : v.isDict = false := by
  have hdigits : ∀ {negative whole r}, (ofDigits? negative whole).map (·, r) = some (v, rest) → v.isDict = false := by
    intro negative whole r h
    obtain ⟨w, hw, hv⟩ := Option.map_eq_some_iff.1 h
    exact (Prod.mk.inj hv).1 ▸ not_isDict_of_ofDigits? hw
  rw [number?.eq_def] at h
  split at h
  obtain ⟨⟨whole, r⟩, -, h⟩ := Option.bind_eq_some_iff.1 h
  replace h := (Option.ite_none_left_eq_some.1 h).2
  dsimp only at h
  split at h
  · -- with places, an exponent may follow or not
    obtain ⟨⟨places, r⟩, -, h⟩ := Option.bind_eq_some_iff.1 h
    dsimp only at h
    split at h
    · split at h
      · obtain ⟨_, -, h⟩ := Option.bind_eq_some_iff.1 h
        exact not_isDict_of_map (fun _ => rfl) ((Option.map_eq_bind ..).trans h)
      · split at h
        · exact hdigits h
        · exact not_isDict_of_map (fun _ => rfl) h
    · split at h
      · exact hdigits h
      · exact not_isDict_of_map (fun _ => rfl) h
  · split at h
    · split at h
      · obtain ⟨_, -, h⟩ := Option.bind_eq_some_iff.1 h
        exact not_isDict_of_map (fun _ => rfl) ((Option.map_eq_bind ..).trans h)
      · exact hdigits h
    · exact hdigits h

theorem not_isDict_of_scalar? {s rest : Text} {v : Data} (h : value?.scalar? s = some (v, rest)) :
    v.isDict = false := by
  rw [value?.scalar?.eq_def] at h
  split at h
  · exact not_isDict_of_map (fun _ => rfl) h
  · exact not_isDict_of_map (fun _ => rfl) h
  · exact not_isDict_of_map (fun _ => rfl) h
  · exact not_isDict_of_map (fun _ => rfl) h
  · exact not_isDict_of_number? h

theorem nodup_keys_of_value? {depth : Nat} {s rest : Text} {es : List (Text × Data)}
    (h : value? depth s = some (.dict es, rest)) : (Entries.keys es).Nodup := by
  rw [value?.eq_def] at h
  split at h
  · cases not_isDict_of_scalar? h
  · split at h
    · obtain ⟨a, -, ha⟩ := Option.bind_eq_some_iff.1 h
      cases ha
    · obtain ⟨a, -, ha⟩ := Option.bind_eq_some_iff.1 h
      cases ha
      exact Entries.nodup_keys_ofPairs _
    · cases not_isDict_of_scalar? h

theorem nodup_keys_of_read? {s : Text} {es : List (Text × Data)} (h : read? s = some (.dict es)) :
    (Entries.keys es).Nodup := by
  obtain ⟨⟨v, rest⟩, hv, h⟩ := Option.bind_eq_some_iff.1 h
  obtain ⟨-, h⟩ := Option.ite_none_right_eq_some.1 h
  obtain rfl := Option.some.inj h
  exact nodup_keys_of_value? hv

end Json

namespace Settings

theorem nodup_keys_of_parse? {language : SettingsSyntax} {text : Text} {entries : List (Text × Data)}
    (h : parse? language text = some (.dict entries)) : (Entries.keys entries).Nodup :=
  match language with
  | .toml => Toml.nodup_keys_of_read? h
  | .json => Json.nodup_keys_of_read? h

end Settings
end Stencil
