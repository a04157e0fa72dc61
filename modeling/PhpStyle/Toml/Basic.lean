/-!
# TOML values

The values of the configuration language. Integers are those of a 64-bit word with a sign; a date
or time is kept as its text. The entries of a table are in the order in which they were written,
and no key occurs twice.
-/

namespace PhpStyle.Toml

/-- A value. -/
inductive Value where
  | string (text : String)
  | integer (n : Int)
  | float (x : Float)
  | boolean (b : Bool)
  /-- A date, a time, or both, in the standard form. -/
  | datetime (text : String)
  | array (items : List Value)
  | table (entries : List (String × Value))

/-- The entries of a table. -/
abbrev Entries := List (String × Value)

/-- The value of a key. -/
def Entries.get? (entries : Entries) (key : String) : Option Value := entries.lookup key

/-- The least integer. -/
def minInteger : Int := -(Nat.pow 2 63 : Nat)

/-- The greatest integer. -/
def maxInteger : Int := (Nat.pow 2 63 : Nat) - 1

/-- Whether a number is in the range of integers. -/
def fits (n : Int) : Bool := minInteger ≤ n && n ≤ maxInteger

end PhpStyle.Toml
