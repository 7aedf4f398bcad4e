/-
  DeclGraph — values of configuration fields.

  Values come from files, from environment variables and from callers, so a
  number or a truth value may be written as a text.

  * `readInt`, `readNumber`, `readBool` and `readText` convert a value, or give
    the reason why it is refused;
  * `Reason.message` is the text of a reason.
-/
import DeclGraph.Config.Basic
import DeclGraph.Json.Literal
import DeclGraph.Text.Digit

namespace DeclGraph.Config

/-- Why a value is refused. -/
inductive Reason where
  | notLevel
  | notFormat
  /-- a section of the given type has to be an object -/
  | notSection (type : String)
  | notInteger
  | unreadableInteger
  | fractional
  | notFinite
  | tooLong
  | notNumber
  | unreadableNumber
  | notBool
  | unreadableBool
  | notText
  | notList
  /-- the number of a field has to be at least one -/
  | tooSmall (field : String) (value : Int)
  /-- the path of a file has to be absolute -/
  | relativePath (path : String)
  /-- the home directory of a user is not known -/
  | homeless
  /-- there is no such section -/
  | unknownSection
deriving DecidableEq, Repr

/-- The text of a reason. -/
def Reason.message : Reason → String
  | notLevel => "Input should be 'DEBUG', 'INFO', 'WARNING', 'ERROR' or 'CRITICAL'"
  | notFormat => "Input should be 'json' or 'console'"
  | notSection type => "Input should be a valid dictionary or instance of " ++ type
  | notInteger => "Input should be a valid integer"
  | unreadableInteger => "Input should be a valid integer, unable to parse string as an integer"
  | fractional => "Input should be a valid integer, got a number with a fractional part"
  | notFinite => "Input should be a finite number"
  | tooLong => "Unable to parse input string as an integer, exceeded maximum size"
  | notNumber => "Input should be a valid number"
  | unreadableNumber => "Input should be a valid number, unable to parse string as a number"
  | notBool => "Input should be a valid boolean"
  | unreadableBool => "Input should be a valid boolean, unable to interpret input"
  | notText => "Input should be a valid string"
  | notList => "Input should be a valid list"
  | tooSmall field value =>
    "Value error, " ++ field ++ " must be >= 1, got " ++ toString value
  | relativePath path => "Value error, File destination must be absolute path: " ++ path
  | homeless => "Could not determine home directory."
  | unknownSection => "Extra inputs are not permitted"

/-! ## Numbers in texts -/

/-- A text without single underscores between other characters; as it is if
    there are others. -/
def dropUnderscores (cs : List Char) : List Char :=
  if cs.head? = some '_' ∨ cs.getLast? = some '_' ∨ Text.occursIn ['_', '_'] cs then cs
  else cs.filter (· ≠ '_')

/-- The digits of a whole number, with zeros after a point left out. -/
def wholeDigits (cs : List Char) : List Char :=
  let (whole, rest) := cs.span (· ≠ '.')
  if rest.tail.all (· = '0') then whole else cs

/-- The integer that decimal digits write. -/
def natOfText? (cs : List Char) : Option Nat :=
  if cs ≠ [] ∧ cs.all Char.isDigit then some (cs.foldl (fun n c => 10 * n + (c.toNat - 48)) 0)
  else none

/-- Reads an integer: a sign, digits among which single underscores may stand,
    and perhaps a point and zeros. -/
def intOfText? (s : String) : Option Int :=
  match Text.trimWhile Text.isNumberBlank s.toList with
  | '-' :: cs => (natOfText? (dropUnderscores (wholeDigits cs))).map fun n => -(n : Int)
  | '+' :: cs => (natOfText? (dropUnderscores (wholeDigits cs))).map fun n => (n : Int)
  | cs => (natOfText? (dropUnderscores (wholeDigits cs))).map fun n => (n : Int)

/-- Reads an exponent with its mark; no text is the exponent zero. -/
def exponentOf? : List Char → Option Int
  | [] => some 0
  | mark :: cs =>
    if mark ≠ 'e' ∧ mark ≠ 'E' then none
    else match cs with
      | '-' :: ds => (natOfText? ds).map fun n => -(n : Int)
      | '+' :: ds => (natOfText? ds).map fun n => (n : Int)
      | ds => (natOfText? ds).map fun n => (n : Int)

/-- Reads a number without a sign: digits with or without a point and an
    exponent, or a named one. -/
def unsignedOfText? (negative : Bool) (cs : List Char) : Option Binary64 :=
  let word := cs.map Char.toLower
  if word = "inf".toList ∨ word = "infinity".toList then some (.infinite negative)
  else if word = "nan".toList then some .nan
  else
    let (whole, rest) := cs.span Char.isDigit
    let (fraction, rest) := match rest with
      | '.' :: rest => rest.span Char.isDigit
      | _ => ([], rest)
    if whole ++ fraction = [] then none
    else do
      let digits ← natOfText? (whole ++ fraction)
      let exponent ← exponentOf? rest
      return .ofDecimal negative digits (exponent - fraction.length)

/-- Reads a number. -/
def numberOfText? (s : String) : Option Binary64 :=
  match dropUnderscores (Text.trimWhile Text.isNumberBlank s.toList) with
  | '-' :: cs => unsignedOfText? true cs
  | '+' :: cs => unsignedOfText? false cs
  | cs => unsignedOfText? false cs

/-! ## Values -/

/-- The integers that a floating point number is read as. -/
def inWordRange (n : Int) : Bool := -0x8000000000000000 ≤ n && n ≤ 0x8000000000000000

/-- An integer. -/
def readInt : Json → Except Reason Int
  | .float x => match x.scaled, x.toInt? with
    | none, _ => .error .notFinite
    | _, none => .error .fractional
    | _, some n => if inWordRange n then .ok n else .error .tooLong
  | .str s => match intOfText? s with
    | some n => .ok n
    | none => .error .unreadableInteger
  | j => match j.intOrBool? with
    | some n => .ok n
    | none => .error .notInteger

/-- An integer of at least one. -/
def readCount (field : String) (j : Json) : Except Reason Int := do
  let n ← readInt j
  if n < 1 then throw (.tooSmall field n) else return n

/-- A floating point number. -/
def readNumber : Json → Except Reason Binary64
  | .float x => .ok x
  | .str s => match numberOfText? s with
    | some x => .ok x
    | none => .error .unreadableNumber
  | j => match j.intOrBool? with
    | some n => .ok (.ofInt n)
    | none => .error .notNumber

/-- The truth value of a word. -/
def boolOfText? (s : String) : Option Bool :=
  let word := Text.asciiLower s
  if ["1", "on", "t", "true", "y", "yes"].contains word then some true
  else if ["0", "off", "f", "false", "n", "no"].contains word then some false
  else none

/-- The truth value of an integer. -/
def boolOfInt (n : Int) : Except Reason Bool :=
  if n = 0 then .ok false else if n = 1 then .ok true else .error .unreadableBool

/-- A truth value. -/
def readBool : Json → Except Reason Bool
  | .bool b => .ok b
  | .int n => boolOfInt n
  | .float x => match x.toInt? with
    | some n => boolOfInt n
    | none => .error .notBool
  | .str s => match boolOfText? s with
    | some b => .ok b
    | none => .error .unreadableBool
  | _ => .error .notBool

/-- A text. -/
def readText : Json → Except Reason String
  | .str s => .ok s
  | _ => .error .notText

/-- A log level. -/
def readLevel (j : Json) : Except Reason LogLevel :=
  match j.text?.bind LogLevel.ofName? with
  | some l => .ok l
  | none => .error .notLevel

/-- A log level or `null`. -/
def readLevel? : Json → Except Reason (Option LogLevel)
  | .null => .ok none
  | j => (readLevel j).map some

/-- A log format. -/
def readFormat (j : Json) : Except Reason LogFormat :=
  match j.text?.bind LogFormat.ofName? with
  | some f => .ok f
  | none => .error .notFormat

/-- A destination: one of the two streams or the absolute path of a file, in which a home
    directory may stand for a tilde. -/
def readDestination (h : Host) (j : Json) : Except Reason Destination := do
  match ← readText j with
  | "stderr" => return .stderr
  | "stdout" => return .stdout
  | s =>
    let path ← ((Path.ofText s).expand h).mapError fun _ => .homeless
    if path.isAbsolute then return .file path else throw (.relativePath s)

end DeclGraph.Config
