/-
  DeclGraph — decimal digits of all scripts, and integers written with them.

  * `Text.digitValue?` is the value of a decimal digit of any script;
  * `Text.readInt?` reads an integer: blanks around it, a sign, and digits
    among which single underscores may stand.
-/
import DeclGraph.Text.Blank

namespace DeclGraph.Text

/-- The zeros of the scripts with decimal digits; the other nine follow each. -/
def digitZeros : List Nat :=
  [48, 1632, 1776, 1984, 2406, 2534, 2662, 2790, 2918, 3046, 3174, 3302, 3430, 3558, 3664,
   3792, 3872, 4160, 4240, 6112, 6160, 6470, 6608, 6784, 6800, 6992, 7088, 7232, 7248, 42528,
   43216, 43264, 43472, 43504, 43600, 44016, 65296, 66720, 68912, 69734, 69872, 69942, 70096,
   70384, 70736, 70864, 71248, 71360, 71472, 71904, 72016, 72784, 73040, 73120, 92768, 92864,
   93008, 120782, 120792, 120802, 120812, 120822, 123200, 123632, 125264, 130032]

/-- The value of a decimal digit. -/
def digitValue? (c : Char) : Option Nat :=
  (digitZeros.find? fun z => z ≤ c.toNat && c.toNat < z + 10).map (c.toNat - ·)

/-- Reads digits among which single underscores may stand; `value` is what came
    before, and `fresh` says that a digit has to come next. -/
def readDigits? (value : Nat) : (fresh : Bool) → List Char → Option Nat
  | fresh, [] => if fresh then none else some value
  | fresh, c :: cs =>
    if c = '_' then if fresh then none else readDigits? value true cs
    else match digitValue? c with
      | some d => readDigits? (10 * value + d) false cs
      | none => none

/-- Blanks allowed around an integer: all but the four ASCII separators. -/
def isNumberBlank (c : Char) : Bool := isBlank c && !(0x1c ≤ c.toNat && c.toNat ≤ 0x1f)

/-- Reads a signed integer. -/
def readInt? (s : String) : Option Int :=
  let cs := trimWhile isNumberBlank s.toList
  let (negative, digits) := match cs with
    | '-' :: rest => (true, rest)
    | '+' :: rest => (false, rest)
    | _ => (false, cs)
  if maxIntDigits < (digits.filter (· ≠ '_')).length then none
  else (readDigits? 0 true digits).map fun n => if negative then -(n : Int) else n

end DeclGraph.Text
