import Schemata.Json.Binary64
import Schemata.Table

/-!
# JSON values

A JSON value keeps what its text says: integers of any size apart from binary64
numbers, and the members of an object in the order in which their names first
occur.

A value also answers three questions that readers of loosely typed documents ask:
whether it counts as true, whether it equals another value, and which values it
runs through.
-/

namespace Schemata

/-- A JSON value. -/
inductive Json where
  | null
  | bool (value : Bool)
  | int (value : Int)
  | float (value : Binary64)
  | str (value : String)
  | arr (items : List Json)
  | obj (members : List (String × Json))

namespace Json

instance : Inhabited Json := ⟨.null⟩

instance : Coe String Json := ⟨.str⟩

/-- The name of a value's type, as messages give it. -/
def typeName : Json → String
  | .null => "NoneType"
  | .bool _ => "bool"
  | .int _ => "int"
  | .float _ => "float"
  | .str _ => "str"
  | .arr _ => "list"
  | .obj _ => "dict"

/-- Null marks an absent keyword. -/
def isNull : Json → Bool
  | .null => true
  | _ => false

/-- Whether a value is an array or an object. -/
def isContainer : Json → Bool
  | .arr _ | .obj _ => true
  | _ => false

/-- Whether a value counts as true: null, false, the zeros and everything empty do
not. -/
def isTruthy : Json → Bool
  | .null => false
  | .bool value => value
  | .int value => value != 0
  | .float value => !value.isZero
  | .str value => !value.isEmpty
  | .arr items => !items.isEmpty
  | .obj members => !members.isEmpty

/-- Whether a value is the given text. -/
def isText (value : Json) (text : String) : Bool :=
  match value with
  | .str s => s == text
  | _ => false

/-- The member of an object; other values have none. -/
def member? : Json → String → Option Json
  | .obj members, name => Table.find? members name
  | _, _ => none

/-- The member of an object, or null. -/
def memberOrNull (value : Json) (name : String) : Json :=
  (value.member? name).getD .null

/-- The values that a value runs through: the items of an array, the characters of
a text, the names of an object. -/
def elements? : Json → Option (List Json)
  | .arr items => some items
  | .str text => some (text.toList.map fun c => .str c.toString)
  | .obj members => some (members.map fun entry => .str entry.1)
  | _ => none

/-- The integer that a number without fraction part stands for; truth values count
as zero and one. -/
def integer? : Json → Option Int
  | .bool value => some (if value then 1 else 0)
  | .int value => some value
  | _ => none

/-- Equality of scalars by value across the number types. -/
def sameScalar : Json → Json → Bool
  | .null, .null => true
  | .str s, .str t => s == t
  | .float x, .float y => x.same y
  | .float x, other => other.integer?.any x.equalsInt
  | other, .float y => other.integer?.any y.equalsInt
  | a, b =>
    match a.integer?, b.integer? with
    | some i, some j => i == j
    | _, _ => false

mutual

/-- Equality by value: numbers compare across their types, NaN equals nothing, and
the order of members does not matter. -/
def same : Json → Json → Bool
  | .arr items, .arr others => sameItems items others
  | .obj members, .obj others =>
    members.length == others.length && sameMembers members others
  | a, b => sameScalar a b

/-- Equality by value of two arrays, item by item. -/
def sameItems : List Json → List Json → Bool
  | [], [] => true
  | a :: as, b :: bs => same a b && sameItems as bs
  | _, _ => false

/-- Whether each member has an equal member of that name on the other side. -/
def sameMembers : List (String × Json) → List (String × Json) → Bool
  | [], _ => true
  | (name, value) :: rest, others =>
    (match Table.find? others name with
      | some other => same value other
      | none => false) && sameMembers rest others

end

instance : BEq Json := ⟨same⟩

/-! ## Texts -/

/-- Texts are equal as values when they are equal as texts. -/
theorem beq_text (first second : String) : (str first == str second) = (first == second) := by
  change same (str first) (str second) = (first == second)
  simp [same, sameScalar]

/-- A value is checked to be a text by comparing it with the text. -/
theorem isText_iff {value : Json} {text : String} :
    value.isText text = true ↔ value = .str text := by
  cases value <;> simp [isText]

/-- Any other value is told apart from the text. -/
theorem isText_eq_false {value : Json} {text : String} (h : value ≠ .str text) :
    value.isText text = false :=
  Bool.eq_false_iff.mpr fun same => h (isText_iff.mp same)

end Json

end Schemata
