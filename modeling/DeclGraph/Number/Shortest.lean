/-
  DeclGraph — the shortest decimal text of a number.

  A finite number is written with the fewest decimal digits that read back as
  the same number; of several such decimals the nearest is taken.

  * `Binary64.shortestDigits` finds digits and decimal exponent;
  * `Binary64.toText` writes them, positionally for exponents from `-4` to `15`
    and with a signed exponent of two digits at least otherwise.
-/
import DeclGraph.Number.Binary64

namespace DeclGraph

namespace Binary64

/-! ## Digits -/

/-- The decimal digits of a natural number, the most significant first. -/
def digitsOf (n : Nat) : List Char := Nat.toDigits 10 n

/-- The reals that round to `m · 2 ^ q`, as the bounds of an interval in units
    of `2 ^ (q - 2)`. -/
def bounds (m : Nat) (q : Int) : Nat × Nat :=
  if m = twoTo (precision - 1) ∧ minExponent < q then (4 * m - 1, 4 * m + 2)
  else (4 * m - 2, 4 * m + 2)

/-- Whether `d · 10 ^ e` rounds to `m · 2 ^ q`.  The ends of the interval do so
    when the mantissa is even. -/
def readsBack (m : Nat) (q : Int) (d : Nat) (e : Int) : Bool :=
  let (lo, hi) := bounds m q
  -- compare `d · 10 ^ e` with `lo · 2 ^ (q - 2)` and `hi · 2 ^ (q - 2)`
  let q' := q - 2
  let x := d * tenTo e.toNat * twoTo (-q').toNat
  let unit := tenTo (-e).toNat * twoTo q'.toNat
  if m % 2 = 0 then lo * unit ≤ x && x ≤ hi * unit else lo * unit < x && x < hi * unit

/-- The decimal exponent `e` with `10 ^ e ≤ num / den < 10 ^ (e + 1)`. -/
def decimalExponent (num den : Nat) : Int :=
  if den ≤ num then ((Nat.toDigits 10 (num / den)).length : Int) - 1
  else
    -- the digits of the rounded-up inverse count the places up to the first digit
    -((Nat.toDigits 10 ((den - 1) / num)).length : Int)

/-- The neighbour of `num / den` on the decimal grid `10 ^ e` that reads back
    as `m · 2 ^ q`; of two such neighbours the nearer, or the even one. -/
def onGrid (m : Nat) (q : Int) (num den : Nat) (e : Int) : Option Nat :=
  let n := num * tenTo (-e).toNat
  let d := den * tenTo e.toNat
  let lower := n / d
  let below := readsBack m q lower e
  let above := readsBack m q (lower + 1) e
  match below, above with
  | true, true => some (roundHalfEven n d)
  | true, false => some lower
  | false, true => some (lower + 1)
  | false, false => none

/-- Tries the grids for `count` digits, `count + 1` digits and so on. -/
def searchGrids (m : Nat) (q : Int) (num den : Nat) (top : Int) : Nat → Nat → Nat × Int
  | 0, _ => (num, 0)
  | tries + 1, count =>
    let e := top - count + 1
    match onGrid m q num den e with
    | some d => (d, e)
    | none => searchGrids m q num den top tries (count + 1)

/-- Drops trailing zeros of `d · 10 ^ e`. -/
def trimZeros : Nat → Nat → Int → Nat × Int
  | 0, d, e => (d, e)
  | fuel + 1, d, e => if d % 10 = 0 ∧ d ≠ 0 then trimZeros fuel (d / 10) (e + 1) else (d, e)

/-- The shortest decimal `d · 10 ^ e` that reads back as the positive number
    `m · 2 ^ q`. -/
def shortestDigits (m : Nat) (q : Int) : Nat × Int :=
  let (num, den) := magnitude m q
  let (d, e) := searchGrids m q num den (decimalExponent num den) 17 1
  trimZeros 20 d e

/-! ## Text -/

/-- The form in which numbers are written. -/
structure TextForm where
  /-- Exponents from this one on are written positionally, … -/
  leastPositional : Int
  /-- … up to but not including this one. -/
  firstScientific : Int
  /-- Digits that an exponent has at least. -/
  exponentWidth : Nat

/-- Numbers are positional from `0.0001` to below `10 ^ 16`. -/
def TextForm.standard : TextForm := ⟨-4, 16, 2⟩

/-- Writes the digits `ds` with the decimal exponent `x` of the first digit. -/
def layout (form : TextForm) (ds : List Char) (x : Int) : List Char :=
  if form.leastPositional ≤ x ∧ x < form.firstScientific then
    if x < 0 then '0' :: '.' :: (List.replicate (-x - 1).toNat '0' ++ ds)
    else
      let whole := x.toNat + 1
      let head := ds.take whole ++ List.replicate (whole - ds.length) '0'
      let tail := ds.drop whole
      head ++ '.' :: (if tail = [] then ['0'] else tail)
  else
    let fraction := ds.drop 1
    let expDigits := digitsOf x.natAbs
    ds.take 1 ++ (if fraction = [] then [] else '.' :: fraction) ++
      'e' :: (if x < 0 then '-' else '+') ::
        (List.replicate (form.exponentWidth - expDigits.length) '0' ++ expDigits)

/-- The shortest text that reads back as the number. -/
def toText : Binary64 → String
  | nan => "nan"
  | infinite s => if s then "-inf" else "inf"
  | finite s m q =>
    let body :=
      if m = 0 then ['0', '.', '0']
      else
        let (d, e) := shortestDigits m q
        let ds := digitsOf d
        layout .standard ds (e + ds.length - 1)
    String.ofList (if s then '-' :: body else body)

end Binary64

end DeclGraph
