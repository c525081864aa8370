import ScriptDoc.Keyed
import ScriptDoc.Number.Binary64
import ScriptDoc.Text.Quoted

/-!
# Value — values of no fixed type

Comment records of other tools, page metadata and option values can hold anything that a JSON
document can.

- `Value`          : the values; a list of fields keeps their order
- `Value.isEmpty`  : the values that count as absent or false
- `Value.kindName` : the name under which a message mentions a value's kind
- `Value.literal`  : a value written out, texts as quoted literals
- `Value.shown`    : the same, but a text stands for itself
-/

namespace ScriptDoc

inductive Value where
  | null
  | bool (b : Bool)
  | int (n : Int)
  | real (x : Binary64)
  | text (s : String)
  | list (items : List Value)
  | object (fields : List (String × Value))
  deriving Repr

instance : Inhabited Value := ⟨.null⟩

namespace Value

def isEmpty : Value → Bool
  | .null => true
  | .bool b => !b
  | .int n => n == 0
  | .real x => x.isZero
  | .text s => s.isEmpty
  | .list items => items.isEmpty
  | .object fields => fields.isEmpty

def kindName : Value → String
  | .null => "NoneType"
  | .bool _ => "bool"
  | .int _ => "int"
  | .real _ => "float"
  | .text _ => "str"
  | .list _ => "list"
  | .object _ => "dict"

/-! ## Written forms -/

mutual

def literal : Value → String
  | .null => "None"
  | .bool true => "True"
  | .bool false => "False"
  | .int n => toString n
  | .real x => String.ofList x.render
  | .text s => Text.quote s
  | .list items => "[" ++ ", ".intercalate (literals items) ++ "]"
  | .object fields => "\x7b" ++ ", ".intercalate (fieldLiterals fields) ++ "\x7d"

def literals : List Value → List String
  | [] => []
  | item :: items => literal item :: literals items

def fieldLiterals : List (String × Value) → List String
  | [] => []
  | (key, value) :: fields => (Text.quote key ++ ": " ++ literal value) :: fieldLiterals fields

end

/-- The text of a value, as it is shown to a reader. -/
def shown : Value → String
  | .text s => s
  | value => literal value

/-- The text of a field that may be missing or empty. -/
def shownOrBlank : Option Value → String
  | none => ""
  | some value => if value.isEmpty then "" else value.shown

end Value
end ScriptDoc
