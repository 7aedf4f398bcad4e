/-
  DeclGraph — arguments of a command line.

  An argument that begins with a dash names options: one after two dashes, or
  one for each letter after a single dash.  The value of an option is in the
  same argument or is the next one.  After two dashes alone there are no more
  options.

  * `OptionSpec` is an option that can be given;
  * `parseArguments` separates the options that are given from other arguments.
-/
import DeclGraph.Text.Basic

namespace DeclGraph.Cli

/-- An option. -/
structure OptionSpec where
  /-- A letter after a dash or a word after two. -/
  names : List String
  hasValue : Bool := false
deriving DecidableEq, Inhabited, Repr

/-- The name that an option is known by: its last one. -/
def OptionSpec.key (o : OptionSpec) : String := o.names.getLastD ""

/-- Arguments that have been separated. -/
structure Arguments where
  /-- The options with their values, in the order in which they are given. -/
  options : List (String × String) := []
  /-- All other arguments. -/
  others : List String := []
deriving DecidableEq, Inhabited, Repr

namespace Arguments

/-- Whether an option is given. -/
def has (a : Arguments) (key : String) : Bool := a.options.any (·.1 == key)

/-- The value of an option; the last one counts. -/
def value? (a : Arguments) (key : String) : Option String := a.options.reverse.lookup key

/-- Puts options in front. -/
def withOptions (options : List (String × String)) (a : Arguments) : Arguments :=
  { a with options := options ++ a.options }

/-- Puts another argument in front. -/
def withOther (other : String) (a : Arguments) : Arguments := { a with others := other :: a.others }

end Arguments

/-! ## One argument -/

/-- What an argument that names options says. -/
structure Named where
  options : List (String × String) := []
  /-- The option whose value is the next argument. -/
  waiting : Option String := none
deriving DecidableEq, Inhabited, Repr

/-- The option of a name. -/
def findOption? (specs : List OptionSpec) (name : String) : Option OptionSpec :=
  specs.find? (·.names.contains name)

/-- Reads an argument with two dashes. -/
def readWord? (specs : List OptionSpec) (arg : List Char) : Option Named := do
  let name := arg.takeWhile (· ≠ '=')
  let spec ← findOption? specs (String.ofList name)
  match arg.drop name.length, spec.hasValue with
  | [], false => some { options := [(spec.key, "")] }
  | [], true => some { waiting := some spec.key }
  | _ :: _, false => none
  | _ :: value, true => some { options := [(spec.key, String.ofList value)] }

/-- Reads the letters of an argument with a single dash. -/
def readLetters? (specs : List OptionSpec) : List Char → Option Named
  | [] => some {}
  | c :: cs => do
    let spec ← findOption? specs (String.ofList ['-', c])
    if spec.hasValue then
      if cs = [] then some { waiting := some spec.key }
      else some { options := [(spec.key, String.ofList cs)] }
    else
      let named ← readLetters? specs cs
      some { named with options := (spec.key, "") :: named.options }

/-- Reads an argument that names options. -/
def readNamed? (specs : List OptionSpec) (arg : String) : Option Named :=
  match arg.toList with
  | '-' :: '-' :: cs => readWord? specs ('-' :: '-' :: cs)
  | _ :: cs => readLetters? specs cs
  | [] => none

/-- Whether an argument names options. -/
def namesOptions (arg : String) : Bool :=
  match arg.toList with
  | '-' :: _ :: _ => true
  | _ => false

/-! ## All arguments -/

/-- Separates arguments.  If `mixed` is not set there are no options after the
    first other argument.  Fails for unknown options and for missing values. -/
def parseArguments (specs : List OptionSpec) (mixed : Bool) : List String → Option Arguments
  | [] => some {}
  | arg :: rest =>
    if arg = "--" then some { others := rest }
    else if namesOptions arg then
      match readNamed? specs arg with
      | none => none
      | some ⟨options, none⟩ => (parseArguments specs mixed rest).map (·.withOptions options)
      | some ⟨options, some key⟩ => match rest with
        | [] => none
        | value :: rest =>
          (parseArguments specs mixed rest).map (·.withOptions (options ++ [(key, value)]))
    else if mixed then (parseArguments specs mixed rest).map (·.withOther arg)
    else some { others := arg :: rest }

end DeclGraph.Cli
