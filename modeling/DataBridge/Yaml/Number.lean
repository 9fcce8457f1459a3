import DataBridge.Yaml.Scalar

/-!
# Plain values

What a scalar stands for besides its text: a number, a truth value or nothing.
Only plain scalars stand for anything else than their text.
-/

namespace DataBridge.Yaml

/-- The number that digits of a base spell.  There must be at least one. -/
def digits? (base : Nat) (digits : List Char) : Option Nat := do
  let values ← digits.mapM hexDigit?
  if values.isEmpty || values.any (base ≤ ·) then none
  else some (values.foldl (fun total value => total * base + value) 0)

/-- A number without a sign: decimal without leading zeros, or behind the mark
of another base. -/
def magnitude? : List Char → Option Nat
  | '0' :: 'x' :: rest => digits? 16 rest
  | '0' :: 'o' :: rest => digits? 8 rest
  | '0' :: 'b' :: rest => digits? 2 rest
  | '0' :: _ :: _ => none
  | rest => digits? 10 rest

/-- A number that is not negative. -/
def natural? : List Char → Option Nat
  | '+' :: rest => magnitude? rest
  | rest => magnitude? rest

/-- A number with or without a sign. -/
def integer? : List Char → Option Int
  | '-' :: rest => (magnitude? rest).map fun value => -(value : Int)
  | rest => (natural? rest).map fun value => (value : Int)

namespace Scalar

/-- The natural number that a scalar stands for. -/
def natural? (scalar : Scalar) : Option Nat :=
  if scalar.plain then Yaml.natural? scalar.text.toList else none

/-- The integer that a scalar stands for. -/
def integer? (scalar : Scalar) : Option Int :=
  if scalar.plain then Yaml.integer? scalar.text.toList else none

/-- The truth value that a scalar stands for. -/
def truth? (scalar : Scalar) : Option Bool :=
  if !scalar.plain then none
  else if ["true", "True", "TRUE"].contains scalar.text then some true
  else if ["false", "False", "FALSE"].contains scalar.text then some false
  else none

def isEmpty (scalar : Scalar) : Bool :=
  scalar.plain && scalar.text == ""

/-- Whether the scalar stands for nothing. -/
def isNull (scalar : Scalar) : Bool :=
  scalar.isEmpty ||
    (scalar.plain && ["null", "Null", "NULL", "~"].contains scalar.text)

end Scalar

end DataBridge.Yaml
