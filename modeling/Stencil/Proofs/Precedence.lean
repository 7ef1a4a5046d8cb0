import Stencil.Proofs.Documents

/-! # Where settings come from

Settings field by field. Reading settings of a dict is reading each field under its key (`ofData?_dict_iff`), the
defaults give a field only where the document leaves its key out (`ofText_eq_ok_iff`), and a variable gives the
field that it is named for, whatever the document says (`value_override`). `precedence` puts these together with
the laws of overlays. -/

namespace Stencil
open Text

namespace Settings

/-- What settings are made of. -/
inductive Field where
  | templatePath | logLevel | debug

namespace Field

/-- The key of a field in a document. -/
def key : Field → Text
  | templatePath => "template_path".toList
  | logLevel => "log_level".toList
  | debug => "debug".toList

/-- The variable of the environment that sets a field. -/
def setBy : Field → Text
  | templatePath => "CURLY_TEMPLATE_PATH".toList
  | logLevel => "CURLY_LOG_LEVEL".toList
  | debug => "CURLY_DEBUG".toList

/-- What a word in its variable makes of a field. -/
def ofWord : Field → Text → Data
  | debug, word => .bool (isOn word)
  | _, word => .str word

/-- Whether a value has the type of a field. -/
def Takes : Field → Data → Prop
  | debug, v => ∃ b, v = .bool b
  | _, v => ∃ t, v = .str t

end Field

/-- The value of a field, as documents have it. -/
def value (s : Settings) : Field → Data
  | .templatePath => .str s.templatePath
  | .logLevel => .str s.logLevel
  | .debug => .bool s.debug

variable {language : SettingsSyntax} {text : Text} {entries : List (Text × Data)} {s : Settings}

theorem takes_value (s : Settings) (f : Field) : f.Takes (s.value f) := by
  cases f <;> exact ⟨_, rfl⟩

theorem value_override (lookup : Text → Option Text) (s : Settings) (f : Field) :
    (override lookup s).value f = match lookup f.setBy with
      | some word => f.ofWord word
      | none => s.value f := by
  have htext : ∀ (word : Option Text) (old : Text), (.str (word.getD old) : Data) = match word with
      | some word => .str word
      | none => .str old := fun word old => by cases word <;> rfl
  cases f with
  | templatePath => exact htext (lookup (Field.setBy .templatePath)) s.templatePath
  | logLevel => exact htext (lookup (Field.setBy .logLevel)) s.logLevel
  | debug =>
    show Value.bool (((lookup (Field.setBy .debug)).map isOn).getD s.debug) = _
    cases lookup (Field.setBy .debug) <;> rfl

theorem exists_value_iff {g : Field → Data} : (∃ s : Settings, s.value = g) ↔ ∀ f : Field, f.Takes (g f) := by
  constructor
  · rintro ⟨s, rfl⟩
    exact takes_value s
  · intro h
    obtain ⟨templatePath, hpath⟩ := h .templatePath
    obtain ⟨logLevel, hlevel⟩ := h .logLevel
    obtain ⟨debug, hdebug⟩ := h .debug
    refine ⟨{ templatePath, logLevel, debug }, funext fun f => ?_⟩
    cases f with
    | templatePath => exact hpath.symm
    | logLevel => exact hlevel.symm
    | debug => exact hdebug.symm

theorem ofFields?_eq_some_iff {templatePath logLevel debug : Data} :
    ofFields? templatePath logLevel debug = some s ↔
      templatePath = s.value .templatePath ∧ logLevel = s.value .logLevel ∧ debug = s.value .debug := by
  constructor
  · intro h
    rw [ofFields?.eq_def] at h
    split at h
    · obtain rfl := Option.some.inj h
      exact ⟨rfl, rfl, rfl⟩
    · cases h
  · rintro ⟨rfl, rfl, rfl⟩
    rfl

theorem ofData?_dict_iff :
    ofData? (.dict entries) = some s ↔ ∀ f : Field, Entries.get? f.key entries = some (s.value f) := by
  rw [ofData?]
  constructor
  · intro h
    obtain ⟨v, hv, h⟩ := Option.bind_eq_some_iff.1 h
    obtain ⟨w, hw, h⟩ := Option.bind_eq_some_iff.1 h
    obtain ⟨x, hx, h⟩ := Option.bind_eq_some_iff.1 h
    obtain ⟨rfl, rfl, rfl⟩ := ofFields?_eq_some_iff.1 h
    intro f
    cases f with
    | templatePath => exact hv
    | logLevel => exact hw
    | debug => exact hx
  · intro h
    refine Option.bind_eq_some_iff.2 ⟨_, h .templatePath, Option.bind_eq_some_iff.2 ⟨_, h .logLevel, ?_⟩⟩
    exact Option.bind_eq_some_iff.2 ⟨_, h .debug, rfl⟩

/-- What the fields come to by a document: its values, and the defaults where it leaves a key out. -/
def fieldsOf (entries : List (Text × Data)) (f : Field) : Data :=
  (Entries.get? f.key entries).getD (value {} f)

theorem isDict_value (s : Settings) (f : Field) : (s.value f).isDict = false := by
  cases f <;> rfl

theorem exists_toData (s : Settings) : ∃ es, s.toData = .dict es ∧ (Entries.keys es).Nodup ∧
    ∀ f : Field, Entries.get? f.key es = some (s.value f) := by
  have hkeys : ["template_path".toList, "log_level".toList, "debug".toList].Nodup := by decide
  exact ⟨_, rfl, hkeys, fun f => by cases f <;> rfl⟩

theorem ofData?_over_defaults (hkeys : (Entries.keys entries).Nodup) :
    ofData? ((toData {}).overlay (.dict entries)) = some s ↔ s.value = fieldsOf entries := by
  obtain ⟨defaults, heq, hnodup, hget⟩ := exists_toData {}
  have hfield : ∀ f : Field,
      Entries.get? f.key (Value.overlayEntries defaults entries) = some (fieldsOf entries f) := by
    intro f
    rw [Value.get?_overlayEntries hnodup hkeys, hget, fieldsOf]
    cases hv : Entries.get? f.key entries with
    | none => rfl
    | some v => exact congrArg some (Value.overlay_over_not_isDict (isDict_value {} f) v)
  rw [heq, Value.overlay, ofData?_dict_iff, funext_iff]
  refine forall_congr' fun f => ?_
  rw [hfield, Option.some.injEq, eq_comm]

theorem ofText_of_parsed {document : Data} (h : parse? language text = some document) : ofText language text =
    (ofData? ((toData {}).overlay document)).elim (.error (.settingsMistyped language)) .ok := by
  rw [ofText, h]
  dsimp only
  generalize ofData? _ = settings
  cases settings <;> rfl

theorem ofText_eq_ok_iff (h : parse? language text = some (.dict entries)) :
    ofText language text = .ok s ↔ s.value = fieldsOf entries := by
  rw [← ofData?_over_defaults (nodup_keys_of_parse? h), ofText_of_parsed h]
  generalize ofData? _ = settings
  cases settings <;> simp

theorem eq_of_ofText_eq_error {e : Error} {document : Data} (h : parse? language text = some document)
    (he : ofText language text = .error e) : e = .settingsMistyped language := by
  rw [ofText_of_parsed h] at he
  generalize ofData? _ = settings at he
  cases settings with
  | none => exact (Except.error.inj he).symm
  | some s => cases he

theorem takes_fieldsOf_iff : (∀ f : Field, f.Takes (fieldsOf entries f)) ↔
    ∀ (f : Field) v, Entries.get? f.key entries = some v → f.Takes v := by
  refine forall_congr' fun f => ?_
  rw [fieldsOf]
  cases Entries.get? f.key entries with
  | none => exact iff_of_true (takes_value {} f) (fun v hv => nomatch hv)
  | some w => exact ⟨fun h v hv => Option.some.inj hv ▸ h, fun h => h w rfl⟩

/-- Settings come field by field from the environment, else from the document, else from the defaults, and loading
fails exactly where the document has a value of another type for a field. Documents combine path by path, and laying
one over another twice does what laying it over once does. -/
theorem precedence (h : parse? language text = some (.dict entries)) (lookup : Text → Option Text) {a b : Data}
    (ha : a.DistinctKeys) (hb : b.DistinctKeys) :
    ((∃ s, ofText language text = .ok s) ↔ ∀ (f : Field) v, Entries.get? f.key entries = some v → f.Takes v) ∧
    (∀ e, ofText language text = .error e → e = .settingsMistyped language) ∧
    (∀ s, ofText language text = .ok s → ∀ f : Field,
      s.value f = (Entries.get? f.key entries).getD (value {} f)) ∧
    (∀ (s : Settings) (f : Field), (s.override lookup).value f = match lookup f.setBy with
      | some word => f.ofWord word
      | none => s.value f) ∧
    a.Overrides b (a.overlay b) ∧ ((a.overlay b).overlay b).Reordered (a.overlay b) := by
  refine ⟨?_, fun e => eq_of_ofText_eq_error h, fun s hs f => ?_, value_override lookup, Value.overrides_overlay ha hb,
    Value.overlay_overlay ha hb⟩
  · rw [← takes_fieldsOf_iff, ← exists_value_iff]
    exact exists_congr fun s => ofText_eq_ok_iff h
  · exact congrFun ((ofText_eq_ok_iff h).1 hs) f

/-- A document with keys that are no fields, under a variable for the level. In the overlay an entry is nulled, one
is left, and a number gives way to a dict. -/
theorem precedence_of_unknown_keys :
    let text := "\x7b\"debug\":true,\"other\":\x7b\"debug\":\"no\"\x7d,\"log_level\":\"warn\"\x7d".toList
    let entries := [("debug".toList, .bool true), ("other".toList, .dict [("debug".toList, .str "no".toList)]),
      ("log_level".toList, .str "warn".toList)]
    let lookup := fun name => if name = "CURLY_LOG_LEVEL".toList then some "error".toList else none
    let a : Data := .dict [(['a'], .dict [(['b'], .int 1), (['c'], .int 2)]), (['d'], .int 3)]
    let b : Data := .dict [(['a'], .dict [(['b'], .null)]), (['d'], .dict [])]
    parse? .json text = some (.dict entries) ∧
      (∃ s, ofText .json text = .ok s ∧ s.value .templatePath = .str [] ∧ s.value .logLevel = .str "warn".toList ∧
        (s.override lookup).value .logLevel = .str "error".toList ∧ (s.override lookup).value .debug = .bool true) ∧
      a.DistinctKeys ∧ b.DistinctKeys ∧ (a.overlay b).at? [['a'], ['b']] = some .null ∧
      (a.overlay b).at? [['a'], ['c']] = some (.int 2) ∧ (a.overlay b).at? [['d']] = some (.dict []) ∧
      ((a.overlay b).overlay b).Reordered (a.overlay b) := by
  intro text entries lookup a b
  have hparse : parse? .json text = some (.dict entries) := rfl
  have ha : a.DistinctKeys := by
    refine .dict (by decide) (List.forall_mem_cons.2 ⟨.dict (by decide) ?_, List.forall_mem_singleton.2 (.plain rfl)⟩)
    exact List.forall_mem_cons.2 ⟨.plain rfl, List.forall_mem_singleton.2 (.plain rfl)⟩
  have hb : b.DistinctKeys := by
    refine .dict (by decide) (List.forall_mem_cons.2 ⟨.dict (by decide) ?_, List.forall_mem_singleton.2 ?_⟩)
    · exact List.forall_mem_singleton.2 (.plain rfl)
    · exact .dict List.nodup_nil (fun e he => nomatch he)
  obtain ⟨hloads, -, hfields, hvariables, hpaths, hagain⟩ := precedence hparse lookup ha hb
  have htakes : ∀ (f : Field) v, Entries.get? f.key entries = some v → f.Takes v := by
    intro f v hv
    cases f with
    | templatePath => cases hv
    | logLevel => exact Option.some.inj hv ▸ ⟨_, rfl⟩
    | debug => exact Option.some.inj hv ▸ ⟨_, rfl⟩
  obtain ⟨s, hs⟩ := hloads.2 htakes
  have hopen : b.leavesOpen [['a'], ['c']] = true := rfl
  have hleft := Value.leavesOpen_iff.1 hopen
  refine ⟨hparse, ⟨s, hs, hfields s hs .templatePath, hfields s hs .logLevel, hvariables s .logLevel, ?_⟩,
    ha, hb, hpaths.plain _ _ rfl rfl, hpaths.left _ hleft.1 hleft.2, hpaths.dict _ _ rfl, hagain⟩
  exact (hvariables s .debug).trans (hfields s hs .debug)

end Settings
end Stencil
