import TreeDump.Binary64

/-!
# Values of settings

A setting is given a value by a settings file or by whoever starts a run.  Values know nothing
of the setting; whether they fit is for the setting to say.
-/

namespace TreeDump

/-- A value that a setting can be given. -/
inductive Value where
  | nothing
  | flag (b : Bool)
  | whole (n : Int)
  | real (x : Binary64)
  | text (s : String)
  /-- A date or a time.  No setting takes one, so it keeps nothing of it. -/
  | moment
  | list (items : List Value)
  | table (fields : List (String × Value))
deriving Inhabited

namespace Value

def isCollection : Value → Bool
  | list _ | table _ => true
  | _ => false

/-- Whether a value says something: zero, the empty text and the like do not. -/
def isTruthy : Value → Bool
  | nothing => false
  | flag b => b
  | whole n => n != 0
  | real x => x != .finite 0 0
  | text s => s != ""
  | moment => true
  | list items => !items.isEmpty
  | table fields => !fields.isEmpty

end Value

end TreeDump
