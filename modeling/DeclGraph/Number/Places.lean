/-
  DeclGraph — numbers with a fixed count of decimal places.

  Both functions look at the exact binary value and round a half to the even
  neighbour.

  * `Binary64.toFixed` writes a number with a given count of places;
  * `Binary64.roundTo` is the number nearest to that decimal.
-/
import DeclGraph.Number.Shortest

namespace DeclGraph

namespace Binary64

/-- A magnitude rounded to the grid of `places` decimal places, in units of
    the last place. -/
def unitsAt (places : Nat) (m : Nat) (q : Int) : Nat :=
  let (num, den) := magnitude m q
  roundHalfEven (num * tenTo places) den

/-- The digits of `units` with a point before the last `places` of them. -/
def pointed (places units : Nat) : List Char :=
  let ds := digitsOf units
  let ds := List.replicate (places + 1 - ds.length) '0' ++ ds
  let whole := ds.length - places
  ds.take whole ++ (if places = 0 then [] else '.' :: ds.drop whole)

/-- The text of a number with `places` digits after the point. -/
def toFixed (places : Nat) : Binary64 → String
  | nan => "nan"
  | infinite s => if s then "-inf" else "inf"
  | finite s m q =>
    let body := pointed places (unitsAt places m q)
    String.ofList (if s then '-' :: body else body)

/-- The number nearest to the value rounded to `places` decimal places. -/
def roundTo (places : Nat) : Binary64 → Binary64
  | finite s m q => ofRatio s (unitsAt places m q) (tenTo places)
  | x => x

end Binary64

end DeclGraph
