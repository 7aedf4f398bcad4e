/-
  DeclGraph — reading JSON texts.

  The texts are those of the standard, and three more numbers are read: `NaN`,
  `Infinity` and `-Infinity`.  Blanks are the space, the tab, the line feed and
  the carriage return.  A number is an integer unless it has a fraction or an
  exponent; an integer with too many digits is not read.  Of two members with
  one key the last value stands at the first place.

  * `Json.read` reads a text that holds exactly one value, with a bound on how
    many lists and objects lie in one another; `Unread` is why it fails.

  Every step of the reader returns the rest of the text, and the first flaw in
  the text counts.  The recursion is bounded by a number computed from the length
  of the text.
-/
import DeclGraph.Json.Basic
import DeclGraph.Text.Basic

namespace DeclGraph.Json

/-- Why a text is not read. -/
inductive Unread where
  /-- it is not that of one value -/
  | malformed
  /-- lists and objects lie too deep in one another -/
  | tooDeep
  /-- an integer has too many digits -/
  | longInteger (digits : Nat)
deriving DecidableEq, Repr

/-! ## Blanks, digits, texts -/

/-- Whether a character may stand between two tokens. -/
def isSpace (c : Char) : Bool := c = ' ' || c = '\t' || c = '\n' || c = '\r'

/-- The text after its leading blanks. -/
def skipSpace (cs : List Char) : List Char := cs.dropWhile isSpace

/-- The digits at the front of a text and the rest. -/
def spanDigits (cs : List Char) : List Char × List Char := cs.span Char.isDigit

/-- The number that decimal digits write. -/
def natOfDigits (ds : List Char) : Nat := ds.foldl (fun n c => 10 * n + (c.toNat - 48)) 0

/-- The value of a hexadecimal digit. -/
def hexValue? (c : Char) : Option Nat :=
  if c.isDigit then some (c.toNat - 48)
  else if 'a' ≤ c && c ≤ 'f' then some (c.toNat - 87)
  else if 'A' ≤ c && c ≤ 'F' then some (c.toNat - 55)
  else none

/-- The value of four hexadecimal digits at the front of a text. -/
def unit? : List Char → Option (Nat × List Char)
  | a :: b :: c :: d :: rest => do
    let a ← hexValue? a
    let b ← hexValue? b
    let c ← hexValue? c
    let d ← hexValue? d
    some (((a * 16 + b) * 16 + c) * 16 + d, rest)
  | _ => none

/-- The second of two units that make one character, if it comes next. -/
def lowUnit? : List Char → Option (Nat × List Char)
  | '\\' :: 'u' :: rest => do
    let (n, rest) ← unit? rest
    if 0xdc00 ≤ n && n ≤ 0xdfff then some (n, rest) else none
  | _ => none

/-- The character of the escape whose text stands after the backslash.  A unit
    that lacks its partner becomes the replacement character. -/
def escaped? : List Char → Option (Char × List Char)
  | '"' :: rest => some ('"', rest)
  | '\\' :: rest => some ('\\', rest)
  | '/' :: rest => some ('/', rest)
  | 'b' :: rest => some ('\x08', rest)
  | 'f' :: rest => some ('\x0c', rest)
  | 'n' :: rest => some ('\n', rest)
  | 'r' :: rest => some ('\r', rest)
  | 't' :: rest => some ('\t', rest)
  | 'u' :: rest => do
    let (n, rest) ← unit? rest
    if 0xd800 ≤ n && n ≤ 0xdbff then
      match lowUnit? rest with
      | some (m, rest) => some (Char.ofNat (0x10000 + (n - 0xd800) * 0x400 + (m - 0xdc00)), rest)
      | none => some ('\ufffd', rest)
    else if 0xdc00 ≤ n && n ≤ 0xdfff then some ('\ufffd', rest)
    else some (Char.ofNat n, rest)
  | _ => none

/-- The characters of a text up to its closing quote, and what follows. -/
def textBody? : Nat → List Char → Option (List Char × List Char)
  | 0, _ => none
  | fuel + 1, cs =>
    match cs with
    | [] => none
    | '"' :: rest => some ([], rest)
    | '\\' :: rest => do
      let (c, rest) ← escaped? rest
      let (body, rest) ← textBody? fuel rest
      some (c :: body, rest)
    | c :: rest =>
      if c.toNat < 0x20 then none
      else do
        let (body, rest) ← textBody? fuel rest
        some (c :: body, rest)

/-- A text after its opening quote, if it is closed. -/
def text (cs : List Char) : Option (String × List Char) := do
  let (body, rest) ← textBody? (cs.length + 1) cs
  some (String.ofList body, rest)

/-! ## Numbers -/

/-- The digits before a fraction: a zero stands alone. -/
def whole? : List Char → Option (List Char × List Char)
  | '0' :: rest => some (['0'], rest)
  | cs => match spanDigits cs with
    | ([], _) => none
    | (ds, rest) => some (ds, rest)

/-- The digits of a fraction, if one comes next. -/
def fraction? : List Char → Option (List Char × List Char)
  | '.' :: rest => match spanDigits rest with
    | ([], _) => none
    | (ds, rest) => some (ds, rest)
  | _ => none

/-- An exponent, if one comes next. -/
def exponent? (cs : List Char) : Option (Int × List Char) :=
  let signed : List Char → Option (Int × List Char)
    | '+' :: rest => match spanDigits rest with
      | ([], _) => none
      | (ds, rest) => some ((natOfDigits ds : Int), rest)
    | '-' :: rest => match spanDigits rest with
      | ([], _) => none
      | (ds, rest) => some (-(natOfDigits ds : Int), rest)
    | rest => match spanDigits rest with
      | ([], _) => none
      | (ds, rest) => some ((natOfDigits ds : Int), rest)
  match cs with
  | 'e' :: rest | 'E' :: rest => signed rest
  | _ => none

/-- A number without its sign. -/
def readUnsigned (negative : Bool) (cs : List Char) : Except Unread (Json × List Char) :=
  match whole? cs with
  | none => .error .malformed
  | some (ds, rest) =>
    let fraction := fraction? rest
    let (fs, rest) := fraction.getD ([], rest)
    let exponent := exponent? rest
    let (e, rest) := exponent.getD (0, rest)
    if fraction.isSome || exponent.isSome then
      .ok (float (Binary64.ofDecimal negative (natOfDigits (ds ++ fs)) (e - fs.length)), rest)
    else if Text.maxIntDigits < ds.length then .error (.longInteger ds.length)
    else
      let n : Int := natOfDigits ds
      .ok (int (if negative then -n else n), rest)

/-- A number or one of the named constants. -/
def readScalar (cs : List Char) : Except Unread (Json × List Char) :=
  let named (name : String) (value : Json) : Except Unread (Json × List Char) :=
    let ds := name.toList
    if ds.isPrefixOf cs then .ok (value, cs.drop ds.length) else .error .malformed
  match cs with
  | 'n' :: _ => named "null" null
  | 't' :: _ => named "true" (bool true)
  | 'f' :: _ => named "false" (bool false)
  | 'N' :: _ => named "NaN" (float .nan)
  | 'I' :: _ => named "Infinity" (float (.infinite false))
  | '-' :: 'I' :: _ => named "-Infinity" (float (.infinite true))
  | '-' :: rest => readUnsigned true rest
  | _ => readUnsigned false cs

/-! ## Values -/

/-- A text after its opening quote. -/
def readText (cs : List Char) : Except Unread (String × List Char) :=
  match text cs with
  | some found => .ok found
  | none => .error .malformed

mutual

/-- A value at the front of a text, after blanks; `depth` more lists and objects
    may lie in one another. -/
def readValue : (fuel depth : Nat) → List Char → Except Unread (Json × List Char)
  | 0, _, _ => .error .malformed
  | fuel + 1, depth, cs =>
    match skipSpace cs with
    | '\x7b' :: rest => match depth with
      | 0 => .error .tooDeep
      | depth + 1 => match skipSpace rest with
        | '\x7d' :: rest => .ok (obj [], rest)
        | rest => do
          let (ms, rest) ← readMembers fuel depth rest
          return (ofMembers ms, rest)
    | '[' :: rest => match depth with
      | 0 => .error .tooDeep
      | depth + 1 => match skipSpace rest with
        | ']' :: rest => .ok (arr [], rest)
        | rest => do
          let (xs, rest) ← readItems fuel depth rest
          return (arr xs, rest)
    | '"' :: rest => do
      let (s, rest) ← readText rest
      return (str s, rest)
    | rest => readScalar rest

/-- The items of a list up to its closing bracket. -/
def readItems : (fuel depth : Nat) → List Char → Except Unread (List Json × List Char)
  | 0, _, _ => .error .malformed
  | fuel + 1, depth, cs => do
    let (x, rest) ← readValue fuel depth cs
    match skipSpace rest with
    | ',' :: rest => do
      let (xs, rest) ← readItems fuel depth rest
      return (x :: xs, rest)
    | ']' :: rest => return ([x], rest)
    | _ => throw .malformed

/-- The members of an object up to its closing brace. -/
def readMembers : (fuel depth : Nat) → List Char → Except Unread (List (String × Json) × List Char)
  | 0, _, _ => .error .malformed
  | fuel + 1, depth, cs =>
    match skipSpace cs with
    | '"' :: rest => do
      let (k, rest) ← readText rest
      match skipSpace rest with
      | ':' :: rest => do
        let (x, rest) ← readValue fuel depth rest
        match skipSpace rest with
        | ',' :: rest => do
          let (ms, rest) ← readMembers fuel depth rest
          return ((k, x) :: ms, rest)
        | '\x7d' :: rest => return ([(k, x)], rest)
        | _ => throw .malformed
      | _ => throw .malformed
    | _ => throw .malformed

end

/-- Reads a text that holds one value and blanks around it. -/
def read (depth : Nat) (s : String) : Except Unread Json :=
  let cs := s.toList
  match readValue (2 * cs.length + 2) depth cs with
  | .ok (j, rest) => if skipSpace rest = [] then .ok j else .error .malformed
  | .error flaw => .error flaw

end DeclGraph.Json
