/-
  DeclGraph — binary floating point numbers of 64 bits.

  A number is kept as its meaning: sign, mantissa and exponent, or one of the
  two special kinds.  All arithmetic is on natural numbers, so every value
  computed here is exact or correctly rounded.

  * `Binary64.ofRatio` rounds a quotient to the nearest number, a tie to the
    even mantissa; every number built here comes out of it;
  * `Binary64.ofDecimal` and `Binary64.ofInt` are its instances, and
    `Binary64.plus` and `Binary64.times` add and multiply with it;
  * `Binary64.scaled` gives a finite number back as a quotient.
-/

namespace DeclGraph

/-- A quotient rounded to the nearest natural number, a tie to the even one. -/
def roundHalfEven (num den : Nat) : Nat :=
  let q := num / den
  let r := num % den
  if 2 * r < den then q
  else if den < 2 * r then q + 1
  else if q % 2 = 0 then q else q + 1

/-- The powers of two. -/
def twoTo (n : Nat) : Nat := Nat.pow 2 n

/-- The powers of ten. -/
def tenTo (n : Nat) : Nat := Nat.pow 10 n

/-- A binary floating point number of 64 bits.  The number `finite s m q` is
    `± m · 2 ^ q`. -/
inductive Binary64 where
  /-- not a number -/
  | nan
  | infinite (negative : Bool)
  | finite (negative : Bool) (mantissa : Nat) (exponent : Int)
deriving DecidableEq, Inhabited, Repr

namespace Binary64

/-! ## The format -/

/-- Number of binary digits of a mantissa. -/
def precision : Nat := 53

/-- The exponent of the numbers next to zero. -/
def minExponent : Int := -1074

/-- The exponent of the largest numbers. -/
def maxExponent : Int := 971

/-- The zero of a sign. -/
def zero (negative : Bool) : Binary64 := finite negative 0 minExponent

/-! ## Rounding -/

/-- The quotient `num / (den · 2 ^ q)` rounded half to even. -/
def mantissaAt (num den : Nat) (q : Int) : Nat :=
  roundHalfEven (num * twoTo (-q).toNat) (den * twoTo q.toNat)

/-- The exponent at which `num / den` has a mantissa of full precision, or the
    least exponent. -/
def exponentOf (num den : Nat) : Int :=
  let guess : Int := (num.log2 : Int) - den.log2 - precision
  -- `guess` is at most one too small
  let q := if num * twoTo (-guess).toNat < den * twoTo guess.toNat * twoTo precision
    then guess else guess + 1
  max q minExponent

/-- The number nearest to `± num / den`, of two the one with an even mantissa;
    too large quotients are infinite. -/
def ofRatio (negative : Bool) (num den : Nat) : Binary64 :=
  if num = 0 then zero negative
  else
    let q := exponentOf num den
    let m := mantissaAt num den q
    let (m, q) := if m = twoTo precision then (twoTo (precision - 1), q + 1) else (m, q)
    if maxExponent < q then infinite negative else finite negative m q

/-- The number nearest to `± digits · 10 ^ exponent`.  Exponents far out of
    range are decided without computing the power. -/
def ofDecimal (negative : Bool) (digits : Nat) (exponent : Int) : Binary64 :=
  -- `digits` lies between `10 ^ k` and `10 ^ (2k+1)` for this `k`
  let size : Int := digits.log2
  if digits = 0 then zero negative
  else if 400 < exponent then infinite negative
  else if exponent < -(size + 400) then zero negative
  else ofRatio negative (digits * tenTo exponent.toNat) (tenTo (-exponent).toNat)

/-- The number nearest to an integer. -/
def ofInt (n : Int) : Binary64 := ofRatio (n < 0) n.natAbs 1

/-! ## Values -/

/-- The magnitude of a finite number as a quotient of natural numbers. -/
def magnitude (m : Nat) (q : Int) : Nat × Nat := (m * twoTo q.toNat, twoTo (-q).toNat)

/-- A finite number as a quotient of an integer and a positive number. -/
def scaled : Binary64 → Option (Int × Nat)
  | finite s m q =>
    let (num, den) := magnitude m q
    some (if s then -(num : Int) else num, den)
  | _ => none

/-- The integer part, toward zero. -/
def truncate : Binary64 → Option Int
  | x => x.scaled.map fun (n, d) => n.tdiv d

/-- The integer that a number is, if it is one. -/
def toInt? (x : Binary64) : Option Int :=
  match x.scaled with
  | some (n, d) => if n % d = 0 then some (n / d) else none
  | none => none

/-- Whether a number is the integer `n`. -/
def equalsInt (x : Binary64) (n : Int) : Bool := x.toInt? == some n

/-- Whether a number is less than the integer `n`. -/
def ltInt (x : Binary64) (n : Int) : Bool :=
  match x with
  | nan => false
  | infinite s => s
  | finite .. =>
    match x.scaled with
    | some (num, den) => decide (num < n * den)
    | none => false

/-- Equality of values: the two zeros are equal, and `nan` differs from itself. -/
def equals : Binary64 → Binary64 → Bool
  | nan, _ | _, nan => false
  | infinite s, infinite t => s == t
  | infinite _, _ | _, infinite _ => false
  | x, y =>
    match x.scaled, y.scaled with
    | some (n, d), some (n', d') => n * d' == n' * d
    | _, _ => false

/-- Whether a number is a zero of either sign. -/
def isZero : Binary64 → Bool
  | finite _ m _ => m == 0
  | _ => false

/-! ## Arithmetic -/

/-- The sum of two numbers that are not negative. -/
def plus : Binary64 → Binary64 → Binary64
  | finite _ m q, finite _ m' q' =>
    let (n, d) := magnitude m q
    let (n', d') := magnitude m' q'
    ofRatio false (n * d' + n' * d) (d * d')
  | nan, _ | _, nan => nan
  | _, _ => infinite false

/-- A number times a positive integer. -/
def times (x : Binary64) (k : Nat) : Binary64 :=
  match x with
  | finite s m q =>
    let (n, d) := magnitude m q
    ofRatio s (n * k) d
  | x => x

/-- A number with the other sign. -/
def negate : Binary64 → Binary64
  | nan => nan
  | infinite s => infinite (!s)
  | finite s m q => finite (!s) m q

end Binary64

end DeclGraph
