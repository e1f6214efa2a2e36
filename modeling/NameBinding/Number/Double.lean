set_option autoImplicit false

/-!
# The range of double precision

A number of double precision has fifty-three binary digits and lies below `2 ^ 1024`.
A result is rounded to the nearest such number, a half to the one whose last digit is
even.  What matters here is when rounding leads out of the range.
-/

namespace NameBinding

/-- The value of decimal digits. -/
def digitsValue (ds : List Char) : Nat :=
  ds.foldl (fun n d => 10 * n + (d.toNat - 0x30)) 0

namespace Double

/-- The first number that is no longer rounded to one in the range: half a unit of the last
digit above the greatest. -/
def bound : Nat := Nat.pow 2 1024 - Nat.pow 2 970

/-- The nearest number of fifty-three binary digits, however large. -/
def nearest (n : Nat) : Nat :=
  let unit := Nat.pow 2 (n.log2 - 52)
  let below := n / unit
  let rest := n % unit
  if unit < 2 * rest ∨ (unit = 2 * rest ∧ below % 2 = 1) then (below + 1) * unit
  else below * unit

/-- Whether the product of two numbers is in the range, where the factors are rounded before
the product is. -/
def productFits (a b : Nat) : Bool := nearest a * nearest b < bound

/-- Whether the decimal number `digits · 10 ^ exponent` is in the range, rounded once. -/
def decimalFits (digits : List Char) (exponent : Int) : Bool :=
  let significant := digits.dropWhile (· == '0')
  if significant.isEmpty then true
  else
    let magnitude := exponent + significant.length
    if magnitude < 309 then true
    else if 309 < magnitude then false
    else
      let value := digitsValue significant
      if 0 ≤ exponent then value * Nat.pow 10 exponent.toNat < bound
      else value < bound * Nat.pow 10 (-exponent).toNat

end Double

end NameBinding
