import ViewTree.Dictionary
import ViewTree.Number.Double

/-!
# JSON values

Documents, metadata, rule specifications and properties are JSON values. Integers and floats are
different kinds of number: an **integer** fits a signed or an unsigned 64-bit word, every other
number is a double, and `1` is not equal to `1.0`.

An object holds its fields in the order in which they are written. What is read from a text, and
every object made from a `Dictionary`, has its keys in ascending order without repetitions; a view
is written in the order of its own fields. Fields are looked up by key, so the order never matters
to a reader.

Equality of values is equality as numbers where numbers are concerned: `0.0` equals `-0.0`.
-/

set_option autoImplicit false

namespace ViewTree

/-! ## Numbers -/

/-- A whole number that fits a signed or an unsigned 64-bit word. -/
structure Integer where
  value : Int
  lower : -9223372036854775808 ≤ value
  upper : value < 18446744073709551616
deriving DecidableEq

namespace Integer

/-- An integer of unlimited size as one of 64 bits, if it fits. -/
def ofInt? : Int → Option Integer
  | .ofNat n =>
    if upper : n < 18446744073709551616 then some ⟨(n : Int), by omega, by omega⟩ else none
  | .negSucc n =>
    if lower : n < 9223372036854775808 then some ⟨.negSucc n, by omega, by omega⟩ else none

/-- An unsigned word. -/
def ofUInt64 (n : UInt64) : Integer :=
  ⟨n.toNat, by omega, by have := n.toNat_lt; omega⟩

/-- The nearest double. -/
def toDouble (n : Integer) : Double := (Double.ofInt n.value).getD default

end Integer

/-- A JSON number. -/
inductive Number where
  | integer (value : Integer)
  | float (value : Double)
deriving DecidableEq

namespace Number

/-- Equality as numbers of one kind; an integer never equals a float. -/
def equal : Number → Number → Bool
  | .integer m, .integer n => m == n
  | .float x, .float y => x.equal y
  | _, _ => false

/-- The number as a double. -/
def toDouble : Number → Double
  | .integer n => n.toDouble
  | .float x => x

/-- The number as an unsigned word, if it is an integer that is not negative. -/
def toUInt64? : Number → Option UInt64
  | .integer n => if 0 ≤ n.value then some (UInt64.ofNat n.value.toNat) else none
  | .float _ => none

end Number

/-! ## Values -/

/-- A JSON value. -/
inductive Json where
  | null
  | bool (value : Bool)
  | num (value : Number)
  | str (value : String)
  | arr (items : List Json)
  | obj (fields : List (String × Json))

namespace Json

instance : Inhabited Json := ⟨.null⟩

/-- The object of a dictionary. -/
def ofDictionary (d : Dictionary Json) : Json := .obj d.entries

/-- An unsigned word as a value. -/
def ofUInt64 (n : UInt64) : Json := .num (.integer (.ofUInt64 n))

/-- A binary64 number as a value. Infinities and not-a-number have no JSON spelling and give the
null value. -/
def ofExtended : Double.Extended → Json
  | .finite x => .num (.float x)
  | _ => .null

/-- The field of an object under a key. -/
def field? : Json → String → Option Json
  | .obj fields, key => fields.lookup key
  | _, _ => none

/-- Whether a value is an object. -/
def isObject : Json → Bool
  | .obj _ => true
  | _ => false

/-- The content of a text. -/
def str? : Json → Option String
  | .str s => some s
  | _ => none

/-- The content of a truth value. -/
def bool? : Json → Option Bool
  | .bool b => some b
  | _ => none

/-- The content of a number. -/
def num? : Json → Option Number
  | .num n => some n
  | _ => none

/-- The elements of an array. -/
def items? : Json → Option (List Json)
  | .arr items => some items
  | _ => none

/-- The fields of an object as a dictionary; of several fields with one key the last one stays. -/
def dictionary? : Json → Option (Dictionary Json)
  | .obj fields => some (.ofList fields)
  | _ => none

/-- A value that counts as present: the null value stands for an absent one. -/
def present? : Json → Option Json
  | .null => none
  | j => some j

/-! ## Equality -/

mutual

/-- Equality of values. -/
def equal : Json → Json → Bool
  | .null, .null => true
  | .bool a, .bool b => a == b
  | .num a, .num b => a.equal b
  | .str a, .str b => a == b
  | .arr a, .arr b => equalItems a b
  | .obj a, .obj b => equalFields a b
  | _, _ => false

/-- Equality of values one by one. -/
def equalItems : List Json → List Json → Bool
  | [], [] => true
  | a :: as, b :: bs => equal a b && equalItems as bs
  | _, _ => false

/-- Equality of fields one by one. -/
def equalFields : List (String × Json) → List (String × Json) → Bool
  | [], [] => true
  | (key, a) :: as, (other, b) :: bs => key == other && equal a b && equalFields as bs
  | _, _ => false

end

end Json

end ViewTree
