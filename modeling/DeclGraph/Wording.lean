/-
  DeclGraph — short texts for people.

  * `counted` puts a number before a word in the singular or plural;
  * `nameList` joins the first names of a list and counts the rest;
  * `shorten` cuts a text that is too long.
-/
import DeclGraph.Duration
import DeclGraph.Text.Basic

namespace DeclGraph.Wording

/-- A number and a word; the plural adds an `s` unless another one is given. -/
def counted (count : Int) (singular : String) (plural : Option String := none) : String :=
  toString count ++ " " ++ (if count = 1 then singular else plural.getD (singular ++ "s"))

/-- Names with commas between them, where all but the first `shown` are only
    counted. -/
def nameList (names : List String) (shown : Int := 5) : String :=
  if names = [] then ""
  else
    let front := ", ".intercalate (upTo shown names)
    if shown < names.length then front ++ " +" ++ toString (names.length - shown) ++ " more"
    else front

/-- A text of at most `width` code points: a longer one ends in three dots. -/
def shorten (s : String) (width : Int := 20) : String :=
  if s.length ≤ width then s else Text.upTo (width - 3) s ++ "..."

/-- The summary of a build in one line. -/
def buildSummary (processed errors types edges : Int) (elapsed : Duration) : Except Fault String := do
  let duration ← elapsed.toText?
  let failures := if errors = 0 then [] else [counted errors "error"]
  return "built " ++ ", ".intercalate
    (counted processed "unit" :: failures ++ [counted types "type", counted edges "edge"]) ++
    " in " ++ duration

end DeclGraph.Wording
