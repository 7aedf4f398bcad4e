/-
  DeclGraph — writing lists of texts as YAML.

  A list is written in flow style, in brackets and with commas.  A text stands
  without quotes if it reads back so, in single quotes if that suffices, and in
  double quotes with escapes if not.  Lines are broken where they get too long.

  * `flowList` is the text of a list under a key;
  * `styleOf` chooses the quotes of a text.
-/
import DeclGraph.Json.Literal
import DeclGraph.Yaml.Reader

namespace DeclGraph.Yaml

/-! ## Choosing quotes -/

/-- How a text is written. -/
inductive Style where
  | plain
  | single
  | double
deriving DecidableEq, Repr

/-- Whether a character is written as it is only in double quotes or not at all:
    all but the line feed and the printable characters of ASCII. -/
def isSpecial (c : Char) : Bool := !(c == '\n' || (0x20 ≤ c.toNat && c.toNat ≤ 0x7e))

/-- Whether a text holds a character that has a meaning in flow style at its
    place; `before` is the character before. -/
def hasIndicator (before : Option Char) : List Char → Bool
  | [] => false
  | c :: rest =>
    let leading := before.isNone &&
      ("#,[]\x7b\x7d&*!|>'\"%@`?:".toList.contains c || (c == '-' && atGap rest))
    let inner := before.isSome &&
      (",?[]\x7b\x7d:".toList.contains c || (c == '#' && (before.map isGap).getD true))
    leading || inner || hasIndicator (some c) rest

/-- Whether the first of two characters in a row satisfies one test and the second
    another. -/
def hasPair (p q : Char → Bool) : List Char → Bool
  | a :: b :: rest => (p a && q b) || hasPair p q (b :: rest)
  | _ => false

/-- Whether a text may stand without quotes as far as its characters go. -/
def allowsPlain (cs : List Char) : Bool :=
  let atEnds (c : Char) : Bool := c == ' ' || isBreak c
  !cs.isEmpty && !(cs.any isSpecial) && !(cs.any isBreak) && !hasIndicator none cs &&
    !(cs.head?.map atEnds).getD false && !(cs.getLast?.map atEnds).getD false &&
    !"---".toList.isPrefixOf cs && !"...".toList.isPrefixOf cs

/-- Whether a text may stand in single quotes. -/
def allowsSingle (cs : List Char) : Bool :=
  !(cs.any isSpecial) && !hasPair (· == ' ') isBreak cs && !hasPair isBreak (· == ' ') cs

/-- The quotes of a text. -/
def styleOf (s : String) : Style :=
  let cs := s.toList
  if allowsPlain cs && isText s then .plain
  else if allowsSingle cs then .single
  else .double

/-! ## Lines -/

/-- Columns that a line should not exceed. -/
def bestWidth : Nat := 80

/-- How far continued lines are set in. -/
def continuedIndent : Nat := 2

/-- A text so far, from its end to its start, and the column that it ends at. -/
structure Sheet where
  back : List Char := []
  column : Nat := 0

namespace Sheet

/-- Writes characters. -/
def put (s : Sheet) (cs : List Char) : Sheet :=
  { back := cs.reverse ++ s.back, column := s.column + cs.length }

/-- Starts a continued line. -/
def continued (s : Sheet) : Sheet :=
  { back := List.replicate continuedIndent ' ' ++ '\n' :: s.back, column := continuedIndent }

/-- Whether the line is too long. -/
def isFull (s : Sheet) : Bool := bestWidth < s.column

/-- The text. -/
def text (s : Sheet) : String := String.ofList s.back.reverse

end Sheet

/-! ## Texts -/

/-- Writes a text without quotes: a line that is too long is broken at a single
    space. -/
def putPlain : List Char → Sheet → Sheet
  | [], s => s
  | ' ' :: c :: rest, s =>
    let alone := c ≠ ' ' && s.back.head? ≠ some ' '
    if alone && s.isFull then putPlain (c :: rest) s.continued
    else putPlain (c :: rest) (s.put [' '])
  | c :: rest, s => putPlain rest (s.put [c])

/-- Writes what stands between single quotes.  Line breaks are doubled at their
    first, and a line that is too long is broken at a single space. -/
def putSingle (before : Option Char) : List Char → Sheet → Sheet
  | [], s => s
  | c :: rest, s =>
    let next := rest.head?
    if c = '\'' then putSingle (some c) rest (s.put ['\'', '\''])
    else if c = ' ' then
      let alone := before.isSome && next.isSome && before ≠ some ' ' && next ≠ some ' '
      if alone && s.isFull then putSingle (some c) rest s.continued
      else putSingle (some c) rest (s.put [' '])
    else if isBreak c then
      let first := (before.map isBreak).getD false
      let s : Sheet := if first then s else { s with back := '\n' :: s.back }
      let s : Sheet := { back := c :: s.back, column := 0 }
      if (next.map isBreak).getD false then putSingle (some c) rest s
      else putSingle (some c) rest { back := List.replicate continuedIndent ' ' ++ s.back, column := continuedIndent }
    else putSingle (some c) rest (s.put [c])

/-- The escape of a character that cannot stand in double quotes as it is. -/
def escapeOf (c : Char) : List Char :=
  let named := (escapes.find? fun (mark, ch) => ch == c && mark ≠ '\t' && mark ≠ '/' && mark ≠ ' ').map Prod.fst
  let upper (width : Nat) : List Char := (Text.hexDigits width c.toNat).map Char.toUpper
  match named with
  | some mark => ['\\', mark]
  | none =>
    if c.toNat ≤ 0xff then '\\' :: 'x' :: upper 2
    else if c.toNat ≤ 0xffff then '\\' :: 'u' :: upper 4
    else '\\' :: 'U' :: upper 8

/-- Whether a character is escaped in double quotes. -/
def needsEscape (c : Char) : Bool :=
  c == '"' || c == '\\' || !(0x20 ≤ c.toNat && c.toNat ≤ 0x7e)

/-- Writes what stands between double quotes.  The characters `run` wait to be
    written in one piece.  A line that is too long is broken before a space, or
    where nothing waits; a space at the start of a line needs a mark. -/
def putDouble (index length : Nat) (run : List Char) : List Char → Sheet → Sheet
  | [], s => s.put run
  | c :: rest, s =>
    let inside := 0 < index && index + 1 < length
    let breakLine (s : Sheet) (next : Option Char) : Sheet :=
      let s := (s.put ['\\']).continued
      if next == some ' ' then s.put ['\\'] else s
    if needsEscape c then
      let s := (s.put run).put (escapeOf c)
      let s := if inside && bestWidth + 1 < s.column then breakLine s rest.head? else s
      putDouble (index + 1) length [] rest s
    else if inside && (c == ' ' || run.isEmpty) && bestWidth < s.column + run.length then
      putDouble (index + 1) length [c] rest (breakLine (s.put run) (some c))
    else putDouble (index + 1) length (run ++ [c]) rest s

/-- Writes a text. -/
def putText (text : String) (s : Sheet) : Sheet :=
  let cs := text.toList
  match styleOf text with
  | .plain => putPlain cs s
  | .single => (putSingle none cs (s.put ['\''])).put ['\'']
  | .double => (putDouble 0 cs.length [] cs (s.put ['"'])).put ['"']

/-- Writes the further items of a list, each after a comma. -/
def putItems : List String → Sheet → Sheet
  | [], s => s
  | x :: xs, s =>
    let s := s.put [',']
    putItems xs (putText x (if s.isFull then s.continued else s.put [' ']))

/-- The text of a list under a key. -/
def flowList (key : String) (items : List String) : String :=
  let s := Sheet.put {} (key.toList ++ [':', ' ', '['])
  match items with
  | [] => (s.put [']']).text
  | x :: xs => ((putItems xs (putText x (if s.isFull then s.continued else s))).put [']']).text

end DeclGraph.Yaml
