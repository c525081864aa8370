/-!
# Event — what is reported along the way

- `Event`                          : the reports
- `Event.level`, `Event.message`   : how a report reads in a log
-/

namespace ScriptDoc

inductive Event where
  | linkables (filename : String) (count : Nat)
  | documented (filename : String) (entities comments : Nat)
  | missing (path : String)
  | unreadable (path reason : String)
  | warmed (files entities : Nat)
  deriving DecidableEq, Repr

inductive Level where
  | debug
  | info
  | error
  deriving DecidableEq, Repr

def Level.name : Level → String
  | .debug => "DEBUG"
  | .info => "INFO"
  | .error => "ERROR"

namespace Event

def level : Event → Level
  | .linkables .. | .documented .. => .debug
  | .warmed .. => .info
  | .missing .. | .unreadable .. => .error

def message : Event → String
  | .linkables filename count =>
      "dox: " ++ filename ++ ": " ++ toString count ++ " linkable objects"
  | .documented filename entities comments =>
      "dox: " ++ filename ++ ": " ++ toString entities ++ " of " ++ toString comments ++
        " comments documented"
  | .missing path => "dox: file not found: " ++ path
  | .unreadable path reason => "dox: parse error " ++ path ++ ": " ++ reason
  | .warmed files entities =>
      "dox: " ++ toString files ++ " files parsed, " ++ toString entities ++ " entities"

end Event
end ScriptDoc
