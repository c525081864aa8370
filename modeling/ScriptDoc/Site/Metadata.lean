import ScriptDoc.Value

/-!
# Metadata — what a page carries beside its text

A key is usually text, but any value without parts will do. Numbers that are equal are one key, and a
truth value is the number `0` or `1`; an entry is shown under the key that it was first made with.

- `MetadataKey`                     : the keys
- `Metadata.get?`, `Metadata.put`   : look-up and change of an entry
- `Metadata.merge`                  : entries with text keys put in
- `Metadata.fields`                 : the entries under the names that their keys are shown as
-/

namespace ScriptDoc

inductive MetadataKey where
  | text (s : String)
  | null
  | bool (b : Bool)
  | int (n : Int)
  | real (x : Binary64)
  deriving DecidableEq, Repr

namespace MetadataKey

def ofValue? : Value → Option MetadataKey
  | .text s => some (.text s)
  | .null => some .null
  | .bool b => some (.bool b)
  | .int n => some (.int n)
  | .real x => some (.real x)
  | .list _ | .object _ => none

/-- The integer that a key is equal to, if there is one, and the key itself otherwise. -/
def identity : MetadataKey → MetadataKey
  | .bool b => .int (if b then 1 else 0)
  | .real x => if x.isWhole then .int x.truncate else .real x
  | key => key

def label : MetadataKey → String
  | .text s => s
  | .null => "null"
  | .bool true => "true"
  | .bool false => "false"
  | .int n => toString n
  | .real x => String.ofList x.render

end MetadataKey

abbrev Metadata := List (MetadataKey × Value)

namespace Metadata

def get? (key : MetadataKey) : Metadata → Option Value
  | [] => none
  | (k, v) :: rest => if k.identity = key.identity then some v else get? key rest

def put (key : MetadataKey) (value : Value) : Metadata → Metadata
  | [] => [(key, value)]
  | (k, v) :: rest =>
      if k.identity = key.identity then (k, value) :: rest else (k, v) :: put key value rest

def merge (entries : Metadata) (more : Keyed Value) : Metadata :=
  more.foldl (fun all (name, value) => put (.text name) value all) entries

/-- Of several entries that are shown under one name the last one counts. -/
def fields (entries : Metadata) : Keyed Value :=
  entries.foldl (fun all (key, value) => Keyed.put key.label value all) []

/-! ## Look-up after a change -/

theorem get?_put_same {key other : MetadataKey} (same : other.identity = key.identity)
    (value : Value) (entries : Metadata) : get? other (put key value entries) = some value := by
  induction entries with
  | nil => simp [put, get?, same]
  | cons entry rest ih =>
    obtain ⟨k, v⟩ := entry
    by_cases h : k.identity = key.identity
    · simp [put, get?, h, same]
    · have apart : ¬ k.identity = other.identity := fun eq => h (eq.trans same)
      simp [put, get?, h, apart, ih]

theorem get?_put_other {key other : MetadataKey} (ne : other.identity ≠ key.identity)
    (value : Value) (entries : Metadata) :
    get? other (put key value entries) = get? other entries := by
  induction entries with
  | nil => simp [put, get?, Ne.symm ne]
  | cons entry rest ih =>
    obtain ⟨k, v⟩ := entry
    by_cases h : k.identity = key.identity
    · have apart : ¬ key.identity = other.identity := fun eq => ne eq.symm
      simp [put, get?, h, apart]
    · simp [put, get?, h, ih]

end Metadata
end ScriptDoc
