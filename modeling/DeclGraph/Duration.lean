/-
  DeclGraph — durations.

  A duration is a number of seconds, whole or measured.

  * `Duration.toText?` writes seconds with one decimal place below a minute, and
    whole minutes and seconds from there on;
  * `Duration.rounded` is the number of seconds with two decimal places.
-/
import DeclGraph.Fault
import DeclGraph.Number.Places

namespace DeclGraph

/-- A number of seconds. -/
inductive Duration where
  | whole (seconds : Int)
  | measured (seconds : Binary64)
deriving DecidableEq, Inhabited, Repr

namespace Duration

/-- Whether a duration is less than some whole seconds. -/
def isBelow (d : Duration) (seconds : Int) : Bool :=
  match d with
  | whole n => decide (n < seconds)
  | measured x => x.ltInt seconds

/-- The seconds with one decimal place. -/
def tenths : Duration → String
  | whole n => (Binary64.ofInt n).toFixed 1
  | measured x => x.toFixed 1

/-- The whole minutes and the whole seconds left over.  The minutes of a
    measured duration are a floating point number themselves. -/
def minutesAndSeconds? : Duration → Option (Int × Int)
  | whole n => some (n / 60, n % 60)
  | measured x => do
    let (num, den) ← x.scaled
    let minutes ← (Binary64.ofInt (num / (60 * den))).toInt?
    return (minutes, num % (60 * den) / den)

/-- The text of a duration that is not negative. -/
def toText? (d : Duration) : Except Fault String :=
  if d.isBelow 0 then .error .negativeDuration
  else if d.isBelow 60 then .ok (d.tenths ++ "s")
  else match d.minutesAndSeconds? with
    | some (minutes, seconds) => .ok (toString minutes ++ "m " ++ toString seconds ++ "s")
    | none => .error .badNumber

/-- A duration as a number with at most two decimal places. -/
def rounded : Duration → Json
  | whole n => .int n
  | measured x => .float (x.roundTo 2)

end Duration

end DeclGraph
