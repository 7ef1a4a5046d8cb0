import Mathlib.Data.List.Forall2
import Stencil.Proofs.Merging
import Stencil.Proofs.PercentBytes
import Stencil.Filter.Builtin

/-! # Queries and the leaves of a value

The leaves of a value stand under paths of keys (`Value.leaves`). The query of a collection has one part for
each of them in the same order: what the form writes for the path, an equals sign, and what it writes for the
leaf (`query_eq`). Separators cannot come from keys or leaves, so that the parts are found again at the
separators and read back (`Builtin.url_decodes`). -/

namespace Stencil
open Text
variable {τ : Type}

/-- A leaf seen from one level above. -/
def Value.under (key : Text) (leaf : List Text × Value τ) : List Text × Value τ := (key :: leaf.1, leaf.2)

mutual

/-- What is neither null nor a collection, with its path of keys, in the order of the entries. -/
def Value.leaves : Value τ → List (List Text × Value τ)
  | .null => []
  | .bool b => [([], .bool b)]
  | .int n => [([], .int n)]
  | .float x => [([], .float x)]
  | .str s => [([], .str s)]
  | .template t => [([], .template t)]
  | .list items => Value.leavesOfItems 0 items
  | .dict entries => Value.leavesOfEntries entries

def Value.leavesOfItems : (n : Nat) → List (Value τ) → List (List Text × Value τ)
  | _, [] => []
  | n, v :: vs => v.leaves.map (Value.under (Nat.toDigits 10 n)) ++ Value.leavesOfItems (n + 1) vs

def Value.leavesOfEntries : List (Text × Value τ) → List (List Text × Value τ)
  | [] => []
  | (k, v) :: es => v.leaves.map (Value.under k) ++ Value.leavesOfEntries es

end

/-- The text of a leaf in a query. -/
def Value.leafText (shown : τ → Text) : Value τ → Text
  | .bool b => if b then ['1'] else ['0']
  | v => v.text shown

namespace Query

/-- Keys below the first one stand between brackets. -/
def brackets (keys : List Text) : Text := keys.flatMap fun key => '[' :: key ++ [']']

/-- A path as it is written: `key[key][key]`. -/
def pathText : List Text → Text
  | [] => []
  | key :: keys => key ++ brackets keys

/-- The parts of a query; the empty text has none. -/
def parts (s : Text) : List Text := if s.isEmpty then [] else s.splitOn '&'

/-- The part of a leaf whose path has this text. -/
def part (shown : τ → Text) (path : Text) (leaf : Value τ) : Text :=
  pair (Percent.form path) (Percent.form (leaf.leafText shown))

/-- A part with one equals sign, whose sides read back as a path and a text. -/
structure Reads (part path text : Text) : Prop where
  count : part.count '=' = 1
  sides : ∃ left right, part = left ++ '=' :: right ∧ Percent.ofForm? left = some path ∧
    Percent.ofForm? right = some text

theorem below_form (path key : Text) :
    below (Percent.form path) key = Percent.form (path ++ '[' :: key ++ [']']) := by
  have hopen : Percent.form ['['] = "%5B".toList := by decide
  have hclose : Percent.form [']'] = "%5D".toList := by decide
  rw [below, ← hopen, ← hclose, ← Percent.form_append, ← Percent.form_append, ← Percent.form_append]
  simp

theorem part_under (shown : τ → Text) (path key : Text) (leaf : List Text × Value τ) :
    part shown (path ++ brackets (Value.under key leaf).1) (Value.under key leaf).2 =
      part shown (path ++ '[' :: key ++ [']'] ++ brackets leaf.1) leaf.2 := by
  simp [Value.under, brackets]

end Query

open Query

mutual

/-- Under an encoded path, a value leaves a pair for each of its leaves. -/
theorem Value.pairs_form (shown : τ → Text) (path : Text) (v : Value τ) :
    v.pairs shown (Percent.form path) = v.leaves.map fun leaf => part shown (path ++ brackets leaf.1) leaf.2 := by
  match v with
  | .null => simp [Value.pairs, Value.leaves]
  | .bool b =>
    have hdigit : Percent.form (if b then ['1'] else ['0']) = if b then ['1'] else ['0'] := by
      cases b <;> decide
    simp [Value.pairs, Value.leaves, part, brackets, Value.leafText, hdigit]
  | .int _ | .float _ | .str _ | .template _ =>
    simp [Value.pairs, Value.leaves, part, brackets, Value.leafText, Value.text]
  | .list items => rw [Value.pairs, Value.leaves, Value.pairsOfItems_form shown path 0 items]
  | .dict entries => rw [Value.pairs, Value.leaves, Value.pairsOfEntries_form shown path entries]

theorem Value.pairsOfItems_form (shown : τ → Text) (path : Text) (n : Nat) (vs : List (Value τ)) :
    Value.pairsOfItems shown (Percent.form path) n vs =
      (Value.leavesOfItems n vs).map fun leaf => part shown (path ++ brackets leaf.1) leaf.2 := by
  match vs with
  | [] => rw [Value.pairsOfItems, Value.leavesOfItems]; rfl
  | v :: vs =>
    rw [Value.pairsOfItems, Value.leavesOfItems, below_form, Value.pairs_form, Value.pairsOfItems_form,
      List.map_append, List.map_map]
    simp only [Function.comp_def, part_under]

theorem Value.pairsOfEntries_form (shown : τ → Text) (path : Text) (es : List (Text × Value τ)) :
    Value.pairsOfEntries shown (Percent.form path) es =
      (Value.leavesOfEntries es).map fun leaf => part shown (path ++ brackets leaf.1) leaf.2 := by
  match es with
  | [] => rw [Value.pairsOfEntries, Value.leavesOfEntries]; rfl
  | (k, v) :: es =>
    rw [Value.pairsOfEntries, Value.leavesOfEntries, below_form, Value.pairs_form, Value.pairsOfEntries_form,
      List.map_append, List.map_map]
    simp only [Function.comp_def, part_under]

end

theorem Value.leavesOfItems_eq (n : Nat) (vs : List (Value τ)) :
    Value.leavesOfItems n vs = Value.leavesOfEntries (Entries.indexedFrom n vs) := by
  induction vs generalizing n with
  | nil => rw [Value.leavesOfItems, Entries.indexedFrom, Value.leavesOfEntries]
  | cons v vs ih => rw [Value.leavesOfItems, Entries.indexedFrom, Value.leavesOfEntries, ih]

theorem Value.leaves_of_entries? {v : Value τ} {es : Dict τ} (h : v.entries? = some es) :
    v.leaves = Value.leavesOfEntries es := by
  cases v <;> cases h
  · rw [Value.leaves, Value.leavesOfItems_eq]; rfl
  · rw [Value.leaves]

theorem Dict.query_eq (shown : τ → Text) (d : Dict τ) :
    d.query shown = join ['&'] ((Value.leavesOfEntries d).map fun leaf => part shown (pathText leaf.1) leaf.2) := by
  rw [Dict.query]
  congr 1
  induction d with
  | nil => rw [Value.leavesOfEntries]; rfl
  | cons e es ih =>
    obtain ⟨k, v⟩ := e
    rw [List.flatMap_cons, ih, Value.leavesOfEntries, List.map_append, List.map_map]
    exact congrArg (· ++ _) (Value.pairs_form shown k v)

namespace Query

theorem not_mem_form {c : Char} (hc : c = '&' ∨ c = '=') (s : Text) : c ∉ Percent.form s := by
  intro hm
  have hform := Percent.mem_form hm
  rcases hc with rfl | rfl <;> exact absurd hform (by decide)

theorem not_mem_part (shown : τ → Text) (path : Text) (leaf : Value τ) : '&' ∉ part shown path leaf := by
  rw [part, pair, List.mem_append, List.mem_cons]
  rintro (h | h | h)
  · exact not_mem_form (.inl rfl) _ h
  · exact absurd h (by decide)
  · exact not_mem_form (.inl rfl) _ h

theorem part_reads (shown : τ → Text) (path : Text) (leaf : Value τ) :
    Reads (part shown path leaf) path (leaf.leafText shown) := by
  refine ⟨?_, _, _, rfl, Percent.ofForm?_form path, Percent.ofForm?_form _⟩
  have hnone : ∀ s : Text, (Percent.form s).count '=' = 0 := fun s =>
    List.count_eq_zero.2 (not_mem_form (.inr rfl) s)
  rw [part, pair, List.count_append, List.count_cons_self, hnone, hnone]

theorem parts_join {ps : List Text} (hsep : ∀ p ∈ ps, '&' ∉ p) (hne : ∀ p ∈ ps, p ≠ []) :
    parts (join ['&'] ps) = ps := by
  cases ps with
  | nil => rfl
  | cons p ps =>
    have hjoin : join ['&'] (p :: ps) ≠ [] := by
      have hp := hne p List.mem_cons_self
      cases ps <;> simp [join, hp]
    rw [parts, if_neg (by simpa using hjoin), join]
    exact List.splitOn_intercalate '&' hsep (List.cons_ne_nil p ps)

end Query

/-- The filter for URLs writes a string in unreserved characters and percent signs, from which it is read back,
and a collection as a query: split at its separators, it has one part for each leaf, in order and no others,
which reads back as the path and the text of the leaf. -/
theorem Builtin.url_decodes (observer : Calendar.Observer) (shown : τ → Text) (arg : Option Text) :
    (∀ s : Text, ∃ out, apply observer shown url (.str s) arg = .ok (.str out) ∧
      (∀ c ∈ out, c.isAlphanum = true ∨ c ∈ ['-', '_', '.', '~', '%']) ∧ Percent.decode? out = some s) ∧
    ∀ v : Value τ, v.isCollection = true → ∃ out, apply observer shown url v arg = .ok (.str out) ∧
      List.Forall₂ (fun part leaf => Query.Reads part (pathText leaf.1) (leaf.2.leafText shown))
        (parts out) v.leaves := by
  refine ⟨fun s => ⟨Percent.raw s, rfl, fun c hc => Percent.mem_raw hc, Percent.decode?_raw s⟩, fun v hv => ?_⟩
  obtain ⟨es, hes⟩ : ∃ es, v.entries? = some es := by
    cases v <;> first | exact ⟨_, rfl⟩ | cases hv
  refine ⟨(Dict.ofValue v).query shown, ?_, ?_⟩
  · cases v <;> first | rfl | cases hv
  · rw [Dict.ofValue, hes, Option.getD_some, Dict.query_eq, Value.leaves_of_entries? hes, parts_join]
    · rw [List.forall₂_map_left_iff, List.forall₂_same]
      exact fun leaf _ => part_reads shown _ leaf.2
    · exact List.forall_mem_map.2 fun leaf _ => not_mem_part shown _ leaf.2
    · exact List.forall_mem_map.2 fun leaf _ => by simp [part, pair]

/-- Separators, brackets and pluses in the keys and the text stay apart from those of the query; null, a list
without items and the entry that holds them leave nothing. -/
theorem Builtin.url_decodes_with_separators_in_data :
    let v : Value Empty := .dict [("a&b".toList, .list [.str "x=é".toList, .null, .list [], .bool true]),
      ("+ [".toList, .dict [("=".toList, .int (-5))]), ("z".toList, .dict [("n".toList, .null)])]
    let out : Text := "a%26b%5B0%5D=x%3D%C3%A9&a%26b%5B3%5D=1&%2B+%5B%5B%3D%5D=-5".toList
    v.isCollection = true ∧ apply Host.bare.observer Empty.elim url v none = .ok (.str out) ∧
      List.Forall₂ (fun part (leaf : Text × Text) => Query.Reads part leaf.1 leaf.2) (parts out)
        [("a&b[0]".toList, "x=é".toList), ("a&b[3]".toList, ['1']), ("+ [[=]".toList, "-5".toList)] := by
  intro v out
  have hv : v.isCollection = true := rfl
  have hvalue : apply Host.bare.observer Empty.elim url v none = .ok (.str out) := rfl
  obtain ⟨_, hout, hreads⟩ := (url_decodes Host.bare.observer Empty.elim none).2 v hv
  obtain rfl := Value.str.inj (Except.ok.inj (hout.symm.trans hvalue))
  refine ⟨hv, hvalue, ?_⟩
  have hleaves : v.leaves.map (fun leaf => (pathText leaf.1, leaf.2.leafText Empty.elim)) =
    [("a&b[0]".toList, "x=é".toList), ("a&b[3]".toList, ['1']), ("+ [[=]".toList, "-5".toList)] := by decide
  rw [← hleaves, List.forall₂_map_right_iff]
  exact hreads

end Stencil
