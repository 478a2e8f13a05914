-- JSON values as `json.loads` returns them, with the few operations of Python
-- that the service applies to them.
import Mathlib.Data.Rat.Defs
import Mathlib.Algebra.Group.Nat.Defs
import Mathlib.Algebra.Order.Ring.Unbundled.Rat

namespace image_gen.json

/-- A Python float. A finite one stands for its exact value. -/
inductive PyFloat
  | finite (q : ℚ)
  | inf
  | negInf
  | nan
  deriving DecidableEq

/-- `a >= b`. -/
def PyFloat.ge : PyFloat → PyFloat → Bool
  | .nan, _ => false
  | _, .nan => false
  | .inf, _ => true
  | _, .negInf => true
  | .finite a, .finite b => decide (b ≤ a)
  | .finite _, .inf => false
  | .negInf, _ => false

/-- `a > b`. -/
def PyFloat.gt (a b : PyFloat) : Bool := a.ge b && decide (a ≠ b)

/-- `float(i)`: of 53 bits the nearest, an even one at a tie. None is an
`OverflowError`. -/
def PyFloat.ofInt (i : Int) : Option PyFloat :=
  let n := i.natAbs
  let unit := 2 ^ (n.log2 + 1 - 53)
  let half := 2 * (n % unit)
  let up := decide (unit < half) || (decide (half = unit) && decide (n / unit % 2 = 1))
  let rounded : Nat := (if up then n / unit + 1 else n / unit) * unit
  if rounded.log2 < 1024 then some (.finite (if i < 0 then -(rounded : ℚ) else rounded)) else none

/-- A decoded value. The fields of an object have distinct keys, as the keys
of a `dict` have. -/
inductive Json
  | null
  | bool (b : Bool)
  | int (i : Int)
  | float (x : PyFloat)
  | str (s : String)
  | arr (items : List Json)
  | obj (fields : List (String × Json))

namespace Json

/-- `d.get(key)`. A missing key and a null are the same to the callers. -/
def get (fields : List (String × Json)) (key : String) : Json :=
  (fields.lookup key).getD .null

/-- `bool(value)`. -/
def truthy : Json → Bool
  | .null => false
  | .bool b => b
  | .int i => decide (i ≠ 0)
  | .float (.finite q) => decide (q ≠ 0)
  | .float _ => true
  | .str s => decide (s ≠ "")
  | .arr items => !items.isEmpty
  | .obj fields => !fields.isEmpty

end Json

/-- `type(value).__name__`. -/
def typeName : Json → String
  | .null => "NoneType"
  | .bool _ => "bool"
  | .int _ => "int"
  | .float _ => "float"
  | .str _ => "str"
  | .arr _ => "list"
  | .obj _ => "dict"

/-- What `json.loads` makes of a stored text. -/
inductive StoredJson
  | value (j : Json)
  /-- `JSONDecodeError`. -/
  | malformed (message : String)
  /-- Any other exception, as `RecursionError` for a text that nests too deep. -/
  | unreadable (message : String)

end image_gen.json
