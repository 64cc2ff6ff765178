import Precedence.Value.Text

/-!
# Signatures

A function with a signature is called with positional arguments and with named ones. Every parameter
is given at most once, and at least once unless it has a default.

## Main definitions

- `Parameter`, `Signature` — what a function can be given
- `Signature.bind` — the values of the parameters, or the complaint about a call
-/

namespace Precedence

/-- A parameter with its default value, if it has one. -/
structure Parameter where
  name : String
  default? : Option Value

/-- The name of a function, its parameters, and whether it takes further positional arguments and
further named ones. -/
structure Signature where
  function : String
  parameters : List Parameter
  morePositional : Bool
  moreNamed : Bool

/-- Arguments of a call: the positional ones, and the named ones. -/
structure Arguments where
  positional : List Value
  named : List (String × Value)

namespace Signature

/-- A complaint about a call. -/
def complaint (signature : Signature) (message : String) : Fault :=
  .type (signature.function ++ "() " ++ message)

/-- A noun in the singular for one thing, and in the plural for any other number. -/
def counted (n : Nat) (noun : String) : String :=
  noun ++ (if n = 1 then "" else "s")

/-- Names in a row: with `and` between two, and commas too between more. -/
def listed : List String → String
  | [] => ""
  | [a] => a
  | [a, b] => a ++ " and " ++ b
  | names => ", ".intercalate names.dropLast ++ ", and " ++ names.getLast?.getD ""

/-- The parameters that the positional arguments are for. -/
def taken (signature : Signature) (args : Arguments) : List Parameter :=
  signature.parameters.take args.positional.length

/-- The complaint about the first named argument that is given twice or is for no parameter. -/
def namedFault? (signature : Signature) (args : Arguments) : Option Fault :=
  args.named.findSome? fun (name, _) =>
    if (signature.taken args).any (·.name == name) then
      some (signature.complaint ("got multiple values for argument " ++ quoted name))
    else if signature.moreNamed || signature.parameters.any (·.name == name) then none
    else some (signature.complaint ("got an unexpected keyword argument " ++ quoted name))

/-- The complaint about too many positional arguments. -/
def excessFault? (signature : Signature) (args : Arguments) : Option Fault :=
  let most := signature.parameters.length
  let least := signature.parameters.countP (·.default?.isNone)
  let given := args.positional.length
  if signature.morePositional || given ≤ most then none
  else
    let range :=
      if least = most then toString most ++ counted most " positional argument"
      else "from " ++ toString least ++ " to " ++ toString most ++ " positional arguments"
    some (signature.complaint ("takes " ++ range ++ " but " ++ toString given
      ++ (if given = 1 then " was" else " were") ++ " given"))

/-- The value of a parameter that no positional argument is for. -/
def valueOf? (args : Arguments) (parameter : Parameter) : Option Value :=
  match args.named.find? (·.1 == parameter.name) with
  | some (_, v) => some v
  | none => parameter.default?

/-- The complaint about parameters without a value. -/
def missingFault? (signature : Signature) (args : Arguments) : Option Fault :=
  let left := signature.parameters.drop args.positional.length
  let missing := left.filter fun parameter => (valueOf? args parameter).isNone
  if missing.isEmpty then none
  else
    some (signature.complaint ("missing " ++ toString missing.length ++ " required "
      ++ counted missing.length "positional argument" ++ ": "
      ++ listed (missing.map fun parameter => quoted parameter.name)))

/-- The values of the parameters in order. -/
def bind (signature : Signature) (args : Arguments) : Except Fault (List Value) :=
  match (signature.namedFault? args).orElse fun _ =>
      (signature.excessFault? args).orElse fun _ => signature.missingFault? args with
  | some fault => .error fault
  | none =>
    let left := signature.parameters.drop args.positional.length
    .ok (args.positional.take signature.parameters.length ++ left.filterMap (valueOf? args))

end Signature

end Precedence
