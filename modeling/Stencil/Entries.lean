import Stencil.Text.Basic

/-! # Ordered entries

Values under text keys, in the order in which the keys came in. Main statements: what every operation
does to the view `get?` and to the list of keys; `insert` on a present key keeps its place. -/

namespace Stencil

abbrev Entries (α : Type) := List (Text × α)

namespace Entries
variable {α : Type}

def keys (es : Entries α) : List Text := es.map Prod.fst

/-- The value under a key, the first one if the key stands there more than once. -/
def get? (key : Text) : Entries α → Option α
  | [] => none
  | (k, a) :: es => if k = key then some a else get? key es

def contains (key : Text) (es : Entries α) : Bool := (get? key es).isSome

/-- Puts `new` in place of the value under `key`, given what was there; a new key goes to the end. -/
def alter (key : Text) (new : Option α → α) : Entries α → Entries α
  | [] => [(key, new none)]
  | (k, a) :: es => if k = key then (k, new (some a)) :: es else (k, a) :: alter key new es

def insert (key : Text) (a : α) (es : Entries α) : Entries α := alter key (fun _ => a) es

/-- Takes the entry of a key out; the others keep their order. -/
def erase (key : Text) : Entries α → Entries α
  | [] => []
  | (k, a) :: es => if k = key then es else (k, a) :: erase key es

/-- Takes entries in one after the other; what comes in under a present key is combined with what
stands there. -/
def absorb (combine : α → α → α) (base : Entries α) : Entries α → Entries α
  | [] => base
  | (key, a) :: es =>
    absorb combine (alter key (·.elim a (combine · a)) base) es

/-- Inserts pairs one after the other: a repeated key keeps its first place and its last value. -/
def ofPairs (pairs : List (Text × α)) : Entries α :=
  pairs.foldl (fun es (k, a) => insert k a es) []

/-- The elements of a list under their positions in decimal, counted from `n`. -/
def indexedFrom : (n : Nat) → List α → Entries α
  | _, [] => []
  | n, a :: as => (Nat.toDigits 10 n, a) :: indexedFrom (n + 1) as

def indexed (as : List α) : Entries α := indexedFrom 0 as

@[simp] theorem get?_nil (key : Text) : get? key ([] : Entries α) = none := rfl

theorem get?_alter (key key' : Text) (new : Option α → α) (es : Entries α) :
    get? key' (alter key new es) = if key = key' then some (new (get? key es)) else get? key' es := by
  induction es with
  | nil => simp [alter, get?]
  | cons e es ih =>
    obtain ⟨k, a⟩ := e
    by_cases hk : k = key
    · subst hk
      by_cases hk' : k = key' <;> simp [alter, get?, hk']
    · by_cases hk' : k = key'
      · subst hk'
        simp [alter, get?, hk, Ne.symm hk]
      · simp [alter, get?, hk, hk', ih]

theorem get?_insert (key key' : Text) (a : α) (es : Entries α) :
    get? key' (insert key a es) = if key = key' then some a else get? key' es :=
  get?_alter ..

theorem get?_eq_none_iff {key : Text} {es : Entries α} : get? key es = none ↔ key ∉ keys es := by
  induction es with
  | nil => simp [keys]
  | cons e es ih =>
    obtain ⟨k, a⟩ := e
    by_cases hk : k = key
    · simp [get?, keys, hk]
    · simp only [get?, hk, if_false, ih]
      simp [keys, Ne.symm hk]

theorem get?_isSome_iff {key : Text} {es : Entries α} : (get? key es).isSome ↔ key ∈ keys es := by
  rw [Option.isSome_iff_ne_none, ne_eq, get?_eq_none_iff, Decidable.not_not]

theorem get?_absorb (combine : α → α → α) (key : Text) (base : Entries α) {es : Entries α}
    (h : (keys es).Nodup) :
    get? key (absorb combine base es) =
      match get? key es with
      | none => get? key base
      | some a => match get? key base with
        | none => some a
        | some old => some (combine old a) := by
  induction es generalizing base with
  | nil => simp [absorb]
  | cons e es ih =>
    obtain ⟨k, a⟩ := e
    obtain ⟨hk, h⟩ := List.nodup_cons.1 h
    rw [absorb, ih _ h, get?_alter, get?]
    by_cases hkey : k = key
    · subst hkey
      rw [get?_eq_none_iff.2 hk]
      cases get? k base <;> simp
    · simp [hkey]

/-! ### The keys -/

theorem keys_alter (key : Text) (new : Option α → α) (es : Entries α) :
    keys (alter key new es) = if key ∈ keys es then keys es else keys es ++ [key] := by
  induction es with
  | nil => simp [alter, keys]
  | cons e es ih =>
    obtain ⟨k, a⟩ := e
    by_cases hk : k = key
    · simp [alter, keys, hk]
    · simp only [keys] at ih
      simp only [alter, hk, if_false, keys, List.map_cons, ih]
      by_cases hm : key ∈ es.map Prod.fst <;> simp_all [Ne.symm hk]

theorem nodup_concat {keys : List Text} {key : Text} (h : keys.Nodup) (hnew : key ∉ keys) :
    (keys ++ [key]).Nodup :=
  List.nodup_append.2 ⟨h, by simp, fun a ha b hb hab => hnew (List.mem_singleton.1 hb ▸ hab ▸ ha)⟩

theorem nodup_keys_alter {key : Text} {new : Option α → α} {es : Entries α} (h : (keys es).Nodup) :
    (keys (alter key new es)).Nodup := by
  rw [keys_alter]
  split
  · exact h
  · next hm => exact nodup_concat h hm

theorem nodup_keys_absorb (combine : α → α → α) {base : Entries α} (h : (keys base).Nodup)
    (es : Entries α) : (keys (absorb combine base es)).Nodup := by
  induction es generalizing base with
  | nil => exact h
  | cons e es ih => exact ih (nodup_keys_alter h)

theorem erase_sublist (key : Text) (es : Entries α) : (erase key es).Sublist es := by
  induction es with
  | nil => exact .slnil
  | cons e es ih =>
    rw [erase]
    split
    · exact .cons _ (List.Sublist.refl _)
    · exact .cons_cons _ ih

theorem nodup_keys_erase {key : Text} {es : Entries α} (h : (keys es).Nodup) :
    (keys (erase key es)).Nodup :=
  ((erase_sublist key es).map Prod.fst).nodup h

theorem nodup_keys_ofPairs (pairs : List (Text × α)) : (keys (ofPairs pairs)).Nodup := by
  suffices ∀ es : Entries α, (keys es).Nodup →
      (keys (pairs.foldl (fun es (k, a) => insert k a es) es)).Nodup from this [] List.nodup_nil
  induction pairs with
  | nil => exact fun _ h => h
  | cons p ps ih => exact fun es h => ih _ (nodup_keys_alter h)

theorem insert_of_not_mem {key : Text} {es : Entries α} (a : α) (h : key ∉ keys es) :
    insert key a es = es ++ [(key, a)] := by
  induction es with
  | nil => rfl
  | cons e es ih =>
    obtain ⟨hne, h⟩ := not_or.1 (mt List.mem_cons.2 h)
    rw [insert, alter, if_neg (Ne.symm hne)]
    exact congrArg (e :: ·) (ih h)

theorem ofPairs_eq_self {pairs : List (Text × α)} (h : (keys pairs).Nodup) : ofPairs pairs = pairs := by
  suffices ∀ es : Entries α, (keys (es ++ pairs)).Nodup →
      pairs.foldl (fun es (k, a) => insert k a es) es = es ++ pairs from this [] h
  clear h
  induction pairs with
  | nil => exact fun es _ => (List.append_nil es).symm
  | cons p pairs ih =>
    obtain ⟨k, a⟩ := p
    intro es h
    have hnew : k ∉ keys es := by
      rw [keys, List.map_append, List.map_cons] at h
      exact fun hm => (List.nodup_append.1 h).2.2 _ hm _ List.mem_cons_self rfl
    have hrest := ih (es ++ [(k, a)]) (by rwa [List.append_assoc])
    rw [← insert_of_not_mem a hnew] at hrest
    rw [List.foldl_cons]
    exact hrest.trans (by rw [insert_of_not_mem a hnew, List.append_assoc]; rfl)

end Entries
end Stencil
