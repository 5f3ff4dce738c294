import Munch.Decimal.Shortest
import Munch.Text.Quoted

/-! Data as grammars hold it, and its two texts: the plain one, which a string is as it stands,
and the shown one, which puts strings in quotes. -/
namespace Munch

/-- A value; the members of an object are in the order in which their names came first. -/
inductive Value
  | null
  | bool (b : Bool)
  | int (n : Int)
  | float (x : Binary64)
  | string (s : Text)
  | list (items : List Value)
  | object (members : List (Text × Value))
deriving Inhabited

namespace Value

/-- Floating-point numbers are written positionally from a ten-thousandth up to below `10 ^ 16`. -/
def floatStyle : Decimal.Style := ⟨-4, 16⟩

mutual

/-- The text of a value inside a list or a message. -/
def shown : Value → Text
  | null => "None"
  | bool b => if b then "True" else "False"
  | int n => toString n
  | float x => x.text floatStyle
  | string s => Text.quoted s
  | list items => "[" ++ List.intercalate ", " (shownItems items) ++ "]"
  | object members => "\x7b" ++ List.intercalate ", " (shownMembers members) ++ "\x7d"

def shownItems : List Value → List Text
  | [] => []
  | v :: rest => v.shown :: shownItems rest

def shownMembers : List (Text × Value) → List Text
  | [] => []
  | (name, v) :: rest => (Text.quoted name ++ ": " ++ v.shown) :: shownMembers rest

end

/-- The text of a value by itself. -/
def plain : Value → Text
  | string s => s
  | v => v.shown

/-- The name of a value's type. -/
def typeName : Value → String
  | null => "NoneType"
  | bool _ => "bool"
  | int _ => "int"
  | float _ => "float"
  | string _ => "str"
  | list _ => "list"
  | object _ => "dict"

/-- The members after the member `name` is given a value: in its old place, or at the end. -/
def insertMember (members : List (Text × Value)) (name : Text) (v : Value) :
    List (Text × Value) :=
  match members with
  | [] => [(name, v)]
  | (n, w) :: rest => if n = name then (n, v) :: rest else (n, w) :: insertMember rest name v

/-- The member of an object by its name. -/
def member? (members : List (Text × Value)) (name : Text) : Option Value :=
  members.lookup name

end Value
end Munch
