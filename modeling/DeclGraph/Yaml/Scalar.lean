/-
  DeclGraph — what a plain YAML scalar means.

  A scalar without quotes may be a null, a truth value, a number or a time; all
  else is a text.

  * `resolve` gives the value of a plain scalar; it fails on the two words that
    are reserved and have no value, and on numbers and times that there are not;
  * `isText` says that a scalar needs no quotes to be read as a text.
-/
import DeclGraph.Json.Basic
import DeclGraph.Text.Basic

namespace DeclGraph.Yaml

/-! ## Digits -/

/-- Whether a character is a digit below `base`. -/
def isDigitIn (base : Nat) (c : Char) : Bool :=
  (c.isDigit && c.toNat - 48 < base) || (base == 16 && ("abcdefABCDEF".toList.contains c))

/-- The value of a digit. -/
def digitValue (c : Char) : Nat :=
  if c.isDigit then c.toNat - 48 else c.toLower.toNat - 87

/-- Whether a text consists of digits and underscores, one at least. -/
def isDigits (base : Nat) (cs : List Char) : Bool :=
  !cs.isEmpty && cs.all fun c => c == '_' || isDigitIn base c

/-- Whether a text is a digit and then digits and underscores. -/
def startsAsNumber (cs : List Char) : Bool :=
  (cs.head?.map Char.isDigit).getD false && isDigits 10 cs

/-- The number that digits write; underscores count for nothing. -/
def numberOf (base : Nat) (cs : List Char) : Nat :=
  (cs.filter (· ≠ '_')).foldl (fun n c => base * n + digitValue c) 0

/-- Whether a text is one of the parts after the first of a number to the base of
    sixty: at most two digits, the first of two at most five. -/
def isSixtieth (cs : List Char) : Bool :=
  match cs with
  | [a] => a.isDigit
  | [a, b] => isDigitIn 6 a && b.isDigit
  | _ => false

/-- A sign at the front of a text, and the rest. -/
def signOf : List Char → Bool × List Char
  | '-' :: cs => (true, cs)
  | '+' :: cs => (false, cs)
  | cs => (false, cs)

/-! ## Numbers -/

/-- Why a plain scalar has no value. -/
inductive ScalarFlaw where
  /-- the word is reserved -/
  | reserved
  /-- it has the form of a number or a time, and there is none such -/
  | invalid
deriving DecidableEq, Repr

/-- The number that some text writes, if it has a digit at all. -/
def numberIn (base : Nat) (cs : List Char) : Except ScalarFlaw Nat :=
  if cs.all (· == '_') then .error .invalid else .ok (numberOf base cs)

/-- The number that some decimal text writes, if it has not too many digits. -/
def decimalIn (cs : List Char) : Except ScalarFlaw Nat :=
  if Text.maxIntDigits < (cs.filter (· ≠ '_')).length then .error .invalid
  else .ok (numberOf 10 cs)

/-- The parts of a number to the base of sixty: digits, and at least one more part
    of at most two digits. -/
def sixtieths? (cs : List Char) : Option (List (List Char)) :=
  match Text.splitAtChar ':' cs with
  | first :: part :: rest =>
    if startsAsNumber first && (part :: rest).all isSixtieth then some (first :: part :: rest)
    else none
  | _ => none

/-- The magnitude of an integer. -/
def magnitude? (cs : List Char) : Option (Except ScalarFlaw Nat) :=
  match cs with
  | '0' :: 'b' :: ds => if isDigits 2 ds then some (numberIn 2 ds) else none
  | '0' :: 'x' :: ds => if isDigits 16 ds then some (numberIn 16 ds) else none
  | '0' :: ds => if ds.all fun c => c == '_' || isDigitIn 8 c then some (.ok (numberOf 8 ds)) else none
  | _ =>
    if startsAsNumber cs then some (decimalIn cs)
    else (sixtieths? cs).map fun parts => do
      return (← parts.mapM decimalIn).foldl (fun n part => 60 * n + part) 0

/-- The integer that a scalar writes. -/
def int? (cs : List Char) : Option (Except ScalarFlaw Int) :=
  let (negative, ds) := signOf cs
  (magnitude? ds).map fun n => n.map fun n => if negative then -(n : Int) else n

/-- Reads an exponent with a sign; no text is the exponent zero. -/
def exponent? (cs : List Char) : Option Int :=
  match cs with
  | [] => some 0
  | mark :: '-' :: ds =>
    if (mark = 'e' ∨ mark = 'E') ∧ ds ≠ [] ∧ ds.all Char.isDigit then some (-(numberOf 10 ds : Int))
    else none
  | mark :: '+' :: ds =>
    if (mark = 'e' ∨ mark = 'E') ∧ ds ≠ [] ∧ ds.all Char.isDigit then some (numberOf 10 ds : Int)
    else none
  | _ => none

/-- The floating point number that the parts of a number to the base of sixty write, of
    which the last one has a fraction.  The parts are added one after the other, the
    last one first. -/
def ofSixtieths (negative : Bool) (parts : List (List Char)) (fraction : List Char) : Binary64 :=
  let places := (fraction.filter (· ≠ '_')).length
  let last : Binary64 := .ofDecimal false
    (numberOf 10 (parts.getLastD []) * tenTo places + numberOf 10 fraction) (-places)
  let (sum, _) := parts.dropLast.reverse.foldl (fun (sum, base) part =>
    (sum.plus ((Binary64.ofDecimal false (numberOf 10 part) 0).times base), 60 * base))
    (last, 60)
  if negative then sum.negate else sum

/-- The floating point number with a point that a scalar writes; before the point
    may stand a number to the base of sixty. -/
def float? (cs : List Char) : Option Binary64 :=
  let (negative, ds) := signOf cs
  let word := ds
  if [".inf", ".Inf", ".INF"].any (·.toList == word) then some (.infinite negative)
  else if [".nan", ".NaN", ".NAN"].any (·.toList == cs) then some .nan
  else
    let (whole, rest) := ds.span (· ≠ '.')
    match rest with
    | '.' :: rest =>
      let (fraction, rest) := rest.span fun c => c == '_' || c.isDigit
      let places := (fraction.filter (· ≠ '_')).length
      let ofUnits (n : Nat) (e : Int) : Binary64 :=
        .ofDecimal negative (n * tenTo places + numberOf 10 fraction) (e - places)
      match exponent? rest with
      | none => none
      | some e =>
        if whole = [] then
          if startsAsNumber fraction && ds == cs then some (ofUnits 0 e) else none
        else if startsAsNumber whole then some (ofUnits (numberOf 10 whole) e)
        else if rest = [] then
          (sixtieths? whole).map fun parts => ofSixtieths negative parts fraction
        else none
    | _ => none

/-! ## Times -/

/-- Whether some text has the form of a date: four, two and two digits. -/
def isDate (cs : List Char) : Bool :=
  match Text.splitAtChar '-' cs with
  | [y, m, d] =>
    [y, m, d].all (·.all Char.isDigit) && y.length == 4 && m.length == 2 && d.length == 2
  | _ => false

/-- Whether some text has the form of a time of the day: at most two digits, two
    digits, and two digits with perhaps a fraction. -/
def isTimeOfDay (cs : List Char) : Bool :=
  match Text.splitAtChar ':' cs with
  | [h, m, s] =>
    let (whole, fraction) := s.span (· ≠ '.')
    [h, m, whole, fraction.drop 1].all (·.all Char.isDigit) && 1 ≤ h.length && h.length ≤ 2 &&
      m.length == 2 && whole.length == 2
  | _ => false

/-- Whether some text has the form of a time zone. -/
def isZone (cs : List Char) : Bool :=
  match cs with
  | [] | ['Z'] => true
  | sign :: rest =>
    (sign == '+' || sign == '-') && match Text.splitAtChar ':' rest with
      | [h] => h.all Char.isDigit && 1 ≤ h.length && h.length ≤ 2
      | [h, m] => (h ++ m).all Char.isDigit && 1 ≤ h.length && h.length ≤ 2 && m.length == 2
      | _ => false

/-- Whether a scalar has the form of a time: a date, or a date, a time of the day
    and perhaps a zone. -/
def isTime (cs : List Char) : Bool :=
  isDate cs ||
    let (date, rest) := cs.span fun c => c.isDigit || c == '-'
    let short := match Text.splitAtChar '-' date with
      | [y, m, d] => y.length == 4 && [m, d].all fun p => p.length == 1 || p.length == 2
      | _ => false
    let gap := rest.takeWhile fun c => c == ' ' || c == '\t'
    let joined := gap.isEmpty && (rest.head? == some 'T' || rest.head? == some 't')
    let rest := if joined then rest.drop 1 else rest.drop gap.length
    let (time, zone) := rest.span fun c => c.isDigit || c == ':' || c == '.'
    short && (joined || !gap.isEmpty) && isTimeOfDay time &&
      isZone (zone.dropWhile fun c => c == ' ' || c == '\t')

/-- The days of a month. -/
def daysIn (year month : Nat) : Nat :=
  if month = 2 then
    if year % 4 = 0 ∧ (year % 100 ≠ 0 ∨ year % 400 = 0) then 29 else 28
  else if [4, 6, 9, 11].contains month then 30 else 31

/-- The numbers that the runs of digits in some text write. -/
def numbersIn (cs : List Char) : List Nat :=
  (((cs.splitBy fun a b => a.isDigit == b.isDigit).filter fun run =>
    (run.head?.map Char.isDigit).getD false)).map (numberOf 10)

/-- Whether there is a time that has the form of one: a date of the calendar, a time
    of the day, and a zone less than a day away. -/
def isPossible (cs : List Char) : Bool :=
  let (date, rest) := cs.span fun c => c.isDigit || c == '-'
  let (time, zone) := (rest.dropWhile fun c => !c.isDigit).span fun c =>
    c.isDigit || c == ':' || c == '.'
  let dated := match numbersIn date with
    | [y, m, d] => 1 ≤ y && 1 ≤ m && m ≤ 12 && 1 ≤ d && d ≤ daysIn y m
    | _ => false
  let timed := match numbersIn time with
    | h :: m :: s :: _ => h < 24 && m < 60 && s < 60
    | _ => true
  let zoned := match numbersIn zone with
    | h :: rest => 60 * h + rest.headD 0 < 24 * 60
    | [] => true
  dated && timed && zoned

/-! ## Values -/

/-- Words for no value. -/
def nullWords : List String := ["", "~", "null", "Null", "NULL"]

/-- Words for truth values. -/
def boolWords : List (String × Bool) :=
  [("yes", true), ("Yes", true), ("YES", true), ("no", false), ("No", false), ("NO", false),
   ("true", true), ("True", true), ("TRUE", true), ("false", false), ("False", false),
   ("FALSE", false), ("on", true), ("On", true), ("ON", true), ("off", false), ("Off", false),
   ("OFF", false)]

/-- Words that are reserved. -/
def reservedWords : List String := ["=", "<<"]

/-- What a plain scalar means that is no text; a time is an object that holds its
    text. -/
def special? (s : String) : Option (Except ScalarFlaw Json) :=
  if nullWords.contains s then some (.ok .null)
  else if reservedWords.contains s then some (.error .reserved)
  else match boolWords.lookup s with
    | some b => some (.ok (.bool b))
    | none =>
      let cs := s.toList
      match float? cs, int? cs with
      | some x, _ => some (.ok (.float x))
      | none, some n => some (n.map .int)
      | none, none =>
        if isTime cs then
          some (if isPossible cs then .ok (.obj [("time", .str s)]) else .error .invalid)
        else none

/-- The value of a plain scalar. -/
def resolve (s : String) : Except ScalarFlaw Json := (special? s).getD (.ok (.str s))

/-- Whether a plain scalar is read as a text. -/
def isText (s : String) : Bool := (special? s).isNone

end DeclGraph.Yaml
