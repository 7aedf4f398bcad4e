/-
  DeclGraph — texts as octets.

  A machine reads octets one by one.  It is between two characters or inside
  one, and then it knows how many octets are missing and which range the next
  one has to lie in.

  * `Utf8.encode` writes a text;
  * `Utf8.decode?` reads octets that are the encoding of a text;
  * `Utf8.decodeLossy` reads any octets and puts one replacement character for
    each longest broken beginning of a character.
-/
namespace DeclGraph

/-- The content of a file. -/
abbrev Octets := List UInt8

namespace Utf8

/-! ## Writing -/

/-- The octets of one character. -/
def encodeChar (c : Char) : List UInt8 :=
  let n := c.toNat
  let more (unit : Nat) : UInt8 := UInt8.ofNat (0x80 + n / unit % 64)
  if n < 0x80 then [UInt8.ofNat n]
  else if n < 0x800 then [UInt8.ofNat (0xc0 + n / 0x40), more 1]
  else if n < 0x10000 then [UInt8.ofNat (0xe0 + n / 0x1000), more 0x40, more 1]
  else [UInt8.ofNat (0xf0 + n / 0x40000), more 0x1000, more 0x40, more 1]

/-- The octets of a text. -/
def encode (s : String) : Octets := s.toList.flatMap encodeChar

/-! ## Reading -/

/-- Where the machine is. -/
inductive State where
  /-- between two characters -/
  | between
  /-- inside a character: after the next octet, which has to lie between `lo` and
      `hi`, `later` more are missing; `value` is what the octets so far say -/
  | inside (later lo hi value : Nat)
deriving DecidableEq

/-- The step on the first octet of a character.  A character read is `some`, a
    broken beginning is `none`. -/
def first (b : Nat) : State × List (Option Char) :=
  if b < 0x80 then (.between, [some (Char.ofNat b)])
  else if b < 0xc2 then (.between, [none])
  else if b < 0xe0 then (.inside 0 0x80 0xbf (b % 32), [])
  else if b = 0xe0 then (.inside 1 0xa0 0xbf 0, [])
  else if b = 0xed then (.inside 1 0x80 0x9f 13, [])
  else if b < 0xf0 then (.inside 1 0x80 0xbf (b % 16), [])
  else if b = 0xf0 then (.inside 2 0x90 0xbf 0, [])
  else if b < 0xf4 then (.inside 2 0x80 0xbf (b % 8), [])
  else if b = 0xf4 then (.inside 2 0x80 0x8f 4, [])
  else (.between, [none])

/-- The step on one octet.  An octet that does not fit breaks the character so
    far and is read again as a first one. -/
def step : State → Nat → State × List (Option Char)
  | .between, b => first b
  | .inside later lo hi value, b =>
    if lo ≤ b ∧ b ≤ hi then
      let value := value * 64 + b % 64
      match later with
      | 0 => (.between, [some (Char.ofNat value)])
      | later + 1 => (.inside later 0x80 0xbf value, [])
    else
      let (s, out) := first b
      (s, none :: out)

/-- Reads all octets; a character that the end cuts off is broken. -/
def run : State → Octets → List (Option Char)
  | .between, [] => []
  | .inside .., [] => [none]
  | s, b :: bs =>
    let (s', out) := step s b.toNat
    out ++ run s' bs

/-- The text that octets encode, if they do. -/
def decode? (bs : Octets) : Option String :=
  ((run .between bs).mapM id).map String.ofList

/-- The text of any octets, with `U+FFFD` for what is broken. -/
def decodeLossy (bs : Octets) : String :=
  String.ofList ((run .between bs).map (·.getD '\ufffd'))

end Utf8

end DeclGraph
