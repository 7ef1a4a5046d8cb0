import Stencil.Calendar.Read
import Stencil.Calendar.Write
import Stencil.Value.Number

/-! # Dates in values

A number counts seconds since the epoch; any other string is read as a date. -/

namespace Stencil
open Calendar
variable {τ : Type}

/-- The moment of a count of seconds with a fraction, rounded to nanoseconds but never up to the next
second. -/
def Calendar.Observer.ofTimestamp? (o : Observer) (x : Float) : Option Moment :=
  if !x.isFinite then none else
  let whole := x.floor
  let seconds := whole.toInt64.toInt
  let nanos := min ((x - whole) * 1000000000).round.toUInt32.toNat 999999999
  if Moment.inRange seconds then some (o.see seconds nanos) else none

/-- The moment that a value names. -/
def Value.moment? (o : Observer) (v : Value τ) : Option Moment :=
  match v with
  | .str s => match v.float? with
    | some x => o.ofTimestamp? x
    | none => o.read? s
  | .int _ | .float _ => v.float?.bind o.ofTimestamp?
  | _ => none

/-- A value as a date in a format, if it names one. -/
def Value.date? (o : Observer) (format : Text) (v : Value τ) : Option Text :=
  (v.moment? o).map (o.write · format)

end Stencil
