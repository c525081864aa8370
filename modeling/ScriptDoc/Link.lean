import ScriptDoc.Keyed
import ScriptDoc.Name

/-!
# Link — type names as hypertext

A type name either links to the anchor it is declared at or is escaped; the two never mix.

- `Link.Index`   : the anchors of linkable names
- `Link.escaped` : characters with a meaning in a page, and most others past ASCII, become
  numeric references
- `Link.resolve` : a type name linked, if the index has it, and escaped otherwise
-/

namespace ScriptDoc
namespace Link

abbrev Index := Keyed String

def needsReference (c : Char) : Bool :=
  c = '<' || c = '>' || c = '&' || (0xA0 ≤ c.toNat && c.toNat ≤ 0x9999)

def reference (c : Char) : List Char :=
  '&' :: '#' :: (Nat.toDigits 10 c.toNat ++ [';'])

def escapeChar (c : Char) : List Char :=
  if needsReference c then reference c else [c]

def escaped (s : String) : String :=
  String.ofList (s.toList.flatMap escapeChar)

def anchored (uid name : String) : String :=
  "<a href=\"#" ++ uid ++ "\">" ++ name ++ "</a>"

def resolve (index : Index) (typeName : String) : String :=
  let name := Name.bare typeName
  match index.get? name with
  | some uid => anchored uid name
  | none => escaped name

end Link
end ScriptDoc
