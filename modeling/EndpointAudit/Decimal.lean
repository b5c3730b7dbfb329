/-!
# Decimal numerals

The double nearest to a number given by decimal digits and a power of ten.
-/

namespace EndpointAudit.Decimal

/-- The double nearest to `digits · 10 ^ exponent`. An exponent so large that no double is near,
or so small that all are far too large, is not worked out. -/
def magnitude (digits : Nat) (exponent : Int) : Float :=
  if digits = 0 then 0.0
  else if 400 < exponent then 1.0 / 0.0
  else if 0 ≤ exponent then Float.ofScientific digits false exponent.toNat
  else if digits.log2 + 1200 < 3 * exponent.natAbs then 0.0
  else Float.ofScientific digits true exponent.natAbs

/-- The double nearest to a signed decimal number. -/
def nearest (negative : Bool) (digits : Nat) (exponent : Int) : Float :=
  if negative then -magnitude digits exponent else magnitude digits exponent

def ofInt (n : Int) : Float := nearest (n < 0) n.natAbs 0

end EndpointAudit.Decimal
