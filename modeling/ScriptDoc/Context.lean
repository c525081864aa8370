/-!
# Context — what a comment documents

- `Context` : the kind of a declaration and its name, with `()` after the name of something that
  is called
-/

namespace ScriptDoc

structure Context where
  kind : String
  name : String
  deriving DecidableEq, Repr

end ScriptDoc
