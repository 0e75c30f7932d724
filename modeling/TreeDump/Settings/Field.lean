import TreeDump.Files.Path
import TreeDump.Format
import TreeDump.Settings.Whole
import TreeDump.Value

/-!
# Fitting values to settings

A setting takes values of one kind, and some values of other kinds that say the same.  A value
that does not fit is reported with the way to it: names of settings and numbers of elements.

* `fitWhole`, `fitFlag`, `fitText`, `fitFormat`, `fitPath`, `fitList` and `fitTable` answer what
  a value says to a setting of their kind.
-/

namespace TreeDump.Settings

inductive Misfit where
  | unknown
  | belowOne
  | notWhole
  | fractional
  | unreadableWhole
  | hugeWhole
  | notFinite
  | notFlag
  | unreadableFlag
  | notFormat
  | notText
  | notPath
  | notList
  | notTable
  /-- A section, which has a name, is no table. -/
  | notSection (name : String)
deriving Repr, DecidableEq

def Misfit.text : Misfit → String
  | unknown => "Extra inputs are not permitted"
  | belowOne => "Input should be greater than or equal to 1"
  | notWhole => "Input should be a valid integer"
  | fractional => "Input should be a valid integer, got a number with a fractional part"
  | unreadableWhole => "Input should be a valid integer, unable to parse string as an integer"
  | hugeWhole => "Unable to parse input string as an integer, exceeded maximum size"
  | notFinite => "Input should be a finite number"
  | notFlag => "Input should be a valid boolean"
  | unreadableFlag => "Input should be a valid boolean, unable to interpret input"
  | notFormat => "Input should be 'json', 'pretty-json' or 'yaml'"
  | notText => "Input should be a valid string"
  | notPath => "Input is not a valid path"
  | notList => "Input should be a valid list"
  | notTable => "Input should be a valid dictionary"
  | notSection name => "Input should be a valid dictionary or instance of " ++ name

/-- A misfit and the way to it. -/
structure FieldFault where
  location : List String
  misfit : Misfit
deriving Repr, DecidableEq

/-- The wording of a misfit with the way to it, if that has a text. -/
def FieldFault.text (fault : FieldFault) : String :=
  let way := ".".intercalate fault.location
  if way == "" then fault.misfit.text else way ++ ": " ++ fault.misfit.text

/-- What a value says, or why it does not fit. -/
abbrev Fit := Except FieldFault

def misfit {α : Type} (m : Misfit) : Fit α := .error ⟨[], m⟩

/-- A fit further in: its fault has one more step in front of its way. -/
def within {α : Type} (name : String) (fit : Fit α) : Fit α :=
  match fit with
  | .ok a => .ok a
  | .error fault => .error { fault with location := name :: fault.location }

/-! ## Numbers and flags -/

/-- The least whole number of sixty-four bits. -/
def leastWord : Int := -9223372036854775808

/-- Whether a whole number has sixty-four bits. -/
def isWord (n : Int) : Bool := leastWord ≤ n && n < -leastWord

/-- A whole number that a floating-point number is. -/
def fitReal (x : Binary64) : Except Misfit Int :=
  if !x.isFinite then .error .notFinite
  else match x.whole? with
    | none => .error .fractional
    | some n => if isWord n && n != leastWord then .ok n else .error .hugeWhole

/-- A whole number: as such, as a flag, as a floating-point number or as a text. -/
def fitWhole : Value → Fit Int
  | .whole n => .ok n
  | .flag b => .ok (if b then 1 else 0)
  | .real x =>
    match fitReal x with
    | .ok n => .ok n
    | .error m => misfit m
  | .text s =>
    if Whole.maxBytes < s.utf8ByteSize then misfit .hugeWhole
    else match Whole.read? s.toList with
      | some n => .ok n
      | none => misfit .unreadableWhole
  | _ => misfit .notWhole

def fitPositive (value : Value) : Fit Int := do
  let n ← fitWhole value
  if n < 1 then misfit .belowOne else return n

/-- The flag of a number: zero and one have one. -/
def numberFlag (n : Int) : Fit Bool :=
  if n = 0 then .ok false else if n = 1 then .ok true else misfit .unreadableFlag

/-- Words for a flag that is not set, and for one that is. -/
def noWords : List String := ["0", "off", "f", "false", "n", "no"]

def yesWords : List String := ["1", "on", "t", "true", "y", "yes"]

/-- A text in lower case, as far as the letters of ASCII go. -/
def asciiLowercase (s : String) : String := String.ofList (s.toList.map Char.toLower)

/-- A flag: as such, as a number or as a word. -/
def fitFlag : Value → Fit Bool
  | .flag b => .ok b
  | .whole n => if isWord n then numberFlag n else misfit .notFlag
  | .real x =>
    match fitReal x with
    | .ok n => numberFlag n
    | .error _ => misfit .notFlag
  | .text s =>
    let word := asciiLowercase s
    if noWords.contains word then .ok false
    else if yesWords.contains word then .ok true
    else misfit .unreadableFlag
  | _ => misfit .notFlag

/-! ## Texts -/

def fitText : Value → Fit String
  | .text s => .ok s
  | _ => misfit .notText

def fitPath : Value → Fit Path
  | .text s => .ok (Path.ofString s)
  | _ => misfit .notPath

def fitFormat : Value → Fit OutputFormat
  | .text s =>
    match OutputFormat.ofName? s with
    | some format => .ok format
    | none => misfit .notFormat
  | _ => misfit .notFormat

/-! ## Lists and tables -/

/-- The elements of a list from the one with a number on. -/
def fitItems {α : Type} (fit : Value → Fit α) (number : Nat) : List Value → Fit (List α)
  | [] => .ok []
  | value :: rest => do
    let a ← within (toString number) (fit value)
    return a :: (← fitItems fit (number + 1) rest)

def fitList {α : Type} (fit : Value → Fit α) : Value → Fit (List α)
  | .list items => fitItems fit 0 items
  | _ => misfit .notList

/-- A table whose values fit, whatever the names are. -/
def fitTable {α : Type} (fit : Value → Fit α) : Value → Fit (List (String × α))
  | .table fields => fields.mapM fun (name, value) => do
    return (name, ← within name (fit value))
  | _ => misfit .notTable

/-! ## Sections -/

/-- The setting of a name in a table; `absent` stands for it if the table does not have it. -/
def fitField {α : Type} (fields : List (String × Value)) (name : String) (fit : Value → Fit α)
    (absent : α) : Fit α :=
  match fields.lookup name with
  | some value => within name (fit value)
  | none => .ok absent

/-- A setting that may be absent. -/
def fitOptional {α : Type} (fields : List (String × Value)) (name : String) (fit : Value → Fit α) :
    Fit (Option α) :=
  fitField fields name (fun value => some <$> fit value) none

/-- All names of a table are known ones. -/
def noneUnknown (fields : List (String × Value)) (known : List String) : Fit Unit :=
  match fields.find? fun field => !known.contains field.1 with
  | some (name, _) => within name (misfit .unknown)
  | none => .ok ()

/-- A section: a table whose kind has a name. -/
def fitSection {α : Type} (name : String) (fit : List (String × Value) → Fit α) : Value → Fit α
  | .table fields => fit fields
  | _ => misfit (.notSection name)

end TreeDump.Settings
