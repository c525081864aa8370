import ScriptDoc.Value

/-!
# Workers — how many may work on a batch

- `Workers`         : no limit, a limit, or something that is no limit at all
- `Workers.ofValue` : a limit from outside; a truth value counts as `0` or `1`
- `Workers.fault?`  : why no work can be done
-/

namespace ScriptDoc

inductive Workers where
  | unlimited
  | atMost (count : Int)
  | unusable
  deriving DecidableEq, Repr

namespace Workers

def ofValue : Value → Workers
  | .null => .unlimited
  | .bool b => .atMost (if b then 1 else 0)
  | .int n => .atMost n
  | .real x => .atMost x.ceiling
  | .text _ | .list _ | .object _ => .unusable

inductive Fault where
  | tooFew
  | notANumber
  deriving DecidableEq, Repr

def fault? : Workers → Option Fault
  | .unlimited => none
  | .atMost count => if count ≤ 0 then some .tooFew else none
  | .unusable => some .notANumber

end Workers
end ScriptDoc
