import ScriptDoc.Comment.Block
import ScriptDoc.Site.Metadata
import ScriptDoc.Workers

/-!
# Config — the options of a site

Options come from outside with values of any type. They are checked one after the other up to the
first whose value has a wrong type. That one and those after it are left as they were given, and it
depends on their use what becomes of them.

- `Config`        : what the options mean; what cannot be used is absent
- `Config.schema` : their names, in the order in which they are checked, their types and defaults
- `Config.check`  : the values of the options, and what is wrong about them
- `Config.load`   : the same with what the values mean
-/

namespace ScriptDoc

structure Config where
  sourceRoot : Option String := some ""
  sources : Option (List String) := some []
  raw : Bool := true
  skipSingleStar : Bool := true
  workers : Workers := .atMost 4
  metadataKey : Option MetadataKey := some (.text "dox")
  includePrivate : Bool := true
  deriving DecidableEq, Repr

namespace Config

def sourceOptions (c : Config) : SourceOptions :=
  ⟨c.raw, c.skipSingleStar⟩

/-! ## The schema -/

inductive OptionType where
  | text
  | list
  | flag
  | count
  deriving DecidableEq, Repr

/-- A truth value counts as a number. -/
def OptionType.holds : OptionType → Value → Bool
  | .text, .text _ => true
  | .list, .list _ => true
  | .flag, .bool _ => true
  | .count, .int _ => true
  | .count, .bool _ => true
  | _, _ => false

structure OptionSpec where
  name : String
  type : OptionType
  default : Value

def schema : List OptionSpec :=
  [⟨"source_root", .text, .text ""⟩,
    ⟨"sources", .list, .list []⟩,
    ⟨"raw", .flag, .bool true⟩,
    ⟨"skip_single_star", .flag, .bool true⟩,
    ⟨"max_workers", .count, .int 4⟩,
    ⟨"meta_key", .text, .text "dox"⟩,
    ⟨"include_private", .flag, .bool true⟩]

/-! ## Checking -/

/-- What an option is set to before it is checked. -/
def OptionSpec.given (spec : OptionSpec) (options : Keyed Value) : Value :=
  (options.get? spec.name).getD spec.default

/-- What an option is set to by the check; null sets it to its default. -/
def OptionSpec.settled (spec : OptionSpec) (options : Keyed Value) : Value :=
  match spec.given options with
  | .null => spec.default
  | value => value

def OptionSpec.isMet (spec : OptionSpec) (options : Keyed Value) : Bool :=
  spec.type.holds (spec.settled options)

/-- The check stops at the first option that is not met. -/
def settle (options : Keyed Value) : List OptionSpec → Keyed Value
  | [] => []
  | spec :: specs =>
      if spec.isMet options then (spec.name, spec.settled options) :: settle options specs
      else (spec :: specs).map fun spec => (spec.name, spec.given options)

/-- `rejected` is the first option with a value of a wrong type, `unknown` lists names that are no
options, and `values` are the options as the check leaves them. -/
structure Report where
  rejected : Option String
  unknown : List String
  values : Keyed Value

def check (options : Keyed Value) : Report :=
  { rejected := (schema.find? (!·.isMet options)).map OptionSpec.name
    unknown :=
      ((options.map (·.1)).filter fun name => !(schema.any (·.name == name))).mergeSort
        fun a b => decide (a ≤ b)
    values := settle options schema }

/-! ## Meaning -/

/-- A source root that is empty, whatever its type, is as good as none. -/
def sourceRootOf (value : Value) : Option String :=
  match value with
  | .text s => some s
  | _ => if value.isEmpty then some "" else none

/-- The sources in a list; the characters of a text and the names of fields are sources too. -/
def sourcesOf : Value → Option (List String)
  | .list items => some (items.map Value.shown)
  | .text s => some (s.toList.map String.singleton)
  | .object fields => some (fields.map (·.1))
  | .null | .bool _ | .int _ | .real _ => none

/-- A flag is up unless its value is empty. -/
def flagOf (value : Value) : Bool :=
  !value.isEmpty

def valueOf (values : Keyed Value) (name : String) : Value :=
  (values.get? name).getD .null

def ofValues (values : Keyed Value) : Config :=
  { sourceRoot := sourceRootOf (valueOf values "source_root")
    sources := sourcesOf (valueOf values "sources")
    raw := flagOf (valueOf values "raw")
    skipSingleStar := flagOf (valueOf values "skip_single_star")
    workers := Workers.ofValue (valueOf values "max_workers")
    metadataKey := MetadataKey.ofValue? (valueOf values "meta_key")
    includePrivate := flagOf (valueOf values "include_private") }

def load (options : Keyed Value) : Config × Report :=
  let report := check options
  (ofValues report.values, report)

end Config
end ScriptDoc
