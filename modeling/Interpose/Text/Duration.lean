/-!
Lengths of time as text, in the largest of the units s, ms, µs and ns that is not longer than the time.
-/

namespace Interpose.Text

/-- `whole` and `part / 10^places`, without trailing zeros after the point. -/
def fraction (whole part places : Nat) : String :=
  let digits := Nat.toDigits 10 part
  let padded := List.replicate (places - digits.length) '0' ++ digits
  let kept := (padded.reverse.dropWhile (· == '0')).reverse
  if kept.isEmpty then toString whole else toString whole ++ "." ++ String.ofList kept

def duration (nanos : Nat) : String :=
  if 1000000000 ≤ nanos then fraction (nanos / 1000000000) (nanos % 1000000000) 9 ++ "s"
  else if 1000000 ≤ nanos then fraction (nanos / 1000000) (nanos % 1000000) 6 ++ "ms"
  else if 1000 ≤ nanos then fraction (nanos / 1000) (nanos % 1000) 3 ++ "µs"
  else toString nanos ++ "ns"

end Interpose.Text
