import Stencil.Entries
import Stencil.Text.Quoted

/-! # Filter registries

User filters by name. A later filter takes the place of an earlier one with the same name. -/

namespace Stencil

/-- What shows a registry to its users: the names in order. -/
def Entries.listing {φ : Type} (filters : Entries φ) : Text :=
  let names := filters.keys.mergeSort Text.precedes
  "FilterRegistry \x7b filters: ".toList ++ Text.bracketed (names.map Text.quoted) ++ " \x7d".toList

end Stencil
