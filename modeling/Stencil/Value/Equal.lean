import Stencil.Value.Basic

/-! # Equality of values

An integer equals the float it converts to; dicts have to agree in order too. What equality of
templates means is given. -/

namespace Stencil
variable {τ : Type}

mutual

def Value.same (sameTemplate : τ → τ → Bool) : Value τ → Value τ → Bool
  | .null, .null => true
  | .bool a, .bool b => a == b
  | .int a, .int b => a == b
  | .float a, .float b => a == b
  | .int a, .float b => a.toFloat == b
  | .float a, .int b => b.toFloat == a
  | .str a, .str b => a == b
  | .list as, .list bs => Value.sameItems sameTemplate as bs
  | .dict as, .dict bs => Value.sameEntries sameTemplate as bs
  | .template a, .template b => sameTemplate a b
  | _, _ => false

def Value.sameItems (sameTemplate : τ → τ → Bool) : List (Value τ) → List (Value τ) → Bool
  | [], [] => true
  | a :: as, b :: bs => Value.same sameTemplate a b && Value.sameItems sameTemplate as bs
  | _, _ => false

def Value.sameEntries (sameTemplate : τ → τ → Bool) :
    List (Text × Value τ) → List (Text × Value τ) → Bool
  | [], [] => true
  | (j, a) :: as, (k, b) :: bs =>
    j == k && Value.same sameTemplate a b && Value.sameEntries sameTemplate as bs
  | _, _ => false

end

end Stencil
