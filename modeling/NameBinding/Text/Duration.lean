set_option autoImplicit false

/-!
# Spans of time

A span of time is written with two places behind the point, in the largest unit that
it has at least one of.
-/

namespace NameBinding.Text

/-- A number of hundredths. -/
def hundredthsText (n : Nat) : String :=
  let places := n % 100
  toString (n / 100) ++ "." ++ (if places < 10 then "0" else "") ++ toString places

/-- A span of nanoseconds, counted in a unit of so many of them; a half is rounded up. -/
def inUnit (nanoseconds size : Nat) : String :=
  hundredthsText ((nanoseconds * 200 + size) / (2 * size))

/-- A span of nanoseconds. -/
def durationText (nanoseconds : Nat) : String :=
  if nanoseconds < 1000 then inUnit nanoseconds 1 ++ "ns"
  else if nanoseconds < 1000000 then inUnit nanoseconds 1000 ++ "µs"
  else if nanoseconds < 1000000000 then inUnit nanoseconds 1000000 ++ "ms"
  else inUnit nanoseconds 1000000000 ++ "s"

end NameBinding.Text
