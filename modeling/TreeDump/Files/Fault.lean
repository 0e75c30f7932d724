import TreeDump.Text.Quoted

/-!
# Faults of the file system

What the file system answers when it cannot do what it is asked.

* `Refusal` is the reason, with its number and its wording.
* `Fault` is a refusal about a path, or a description from elsewhere; `Fault.text` is its full
  text and `Fault.reason` the short form for messages that name the path themselves.
-/

namespace TreeDump

/-- Why the file system refuses a request. -/
inductive Refusal where
  | notFound
  | notDirectory
  | isDirectory
  | nameTooLong
  | tooManyLinks
  /-- The path holds a NUL character, so that it cannot even be asked for. -/
  | nulByte
deriving Repr, DecidableEq

namespace Refusal

/-- The number by which a refusal is known; a path that was never asked for has none. -/
def number? : Refusal → Option Nat
  | notFound => some 2
  | notDirectory => some 20
  | isDirectory => some 21
  | nameTooLong => some 36
  | tooManyLinks => some 40
  | nulByte => none

def reason : Refusal → String
  | notFound => "No such file or directory"
  | notDirectory => "Not a directory"
  | isDirectory => "Is a directory"
  | nameTooLong => "File name too long"
  | tooManyLinks => "Too many levels of symbolic links"
  | nulByte => "embedded null byte"

/-- Refusals that only mean that there is nothing of the kind asked for. -/
def meansAbsent : Refusal → Bool
  | notFound | notDirectory | tooManyLinks | nulByte => true
  | isDirectory | nameTooLong => false

end Refusal

/-- What is known of a failed request. -/
inductive Fault where
  /-- A number and a reason, perhaps with the path that was asked for. -/
  | numbered (number : Int) (reason : String) (path : Option String)
  | described (text : String)
deriving Repr, DecidableEq

namespace Fault

def refused (refusal : Refusal) (path : String) : Fault :=
  match refusal.number? with
  | some number => numbered number refusal.reason (some path)
  | none => described refusal.reason

def text : Fault → String
  | numbered number reason none => "[Errno " ++ toString number ++ "] " ++ reason
  | numbered number reason (some path) =>
    "[Errno " ++ toString number ++ "] " ++ reason ++ ": " ++ quoted path
  | described text => text

/-- The short form: the reason, or the full text if there is no reason. -/
def reason : Fault → String
  | numbered number "" path => text (numbered number "" path)
  | numbered _ reason _ => reason
  | described text => text

end Fault

end TreeDump
