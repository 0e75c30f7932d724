import TreeDump.Files.Fault
import TreeDump.Pattern.Error
import TreeDump.Text.Utf8

/-!
# Errors and log records

What can go wrong with a file, with the settings or with a grammar, and what is noted down of it.

* `Error` lists the errors that runs report, each with the facts it is about; `Error.kind` is
  their tag and `Error.message` their wording.
* `Raised` is whatever can interrupt a computation: one of these errors or something foreign.
* `LogRecord` is a message with its level.
-/

namespace TreeDump

/-- Errors that runs report. -/
inductive Error where
  /-- An error of no particular kind. -/
  | other (text : String)
  | fileTooLarge (path : String) (size limit : Int)
  | invalidEncoding (path : String)
  | parseFailed (path : String) (detail : String)
  | unsupportedLanguage (path extension : String)
  | fileAccess (path : String) (fault : Fault)
  | configuration (text : String)
deriving Repr, DecidableEq

namespace Error

def kind : Error → String
  | other _ => "error"
  | fileTooLarge _ _ _ => "file_too_large"
  | invalidEncoding _ => "invalid_encoding"
  | parseFailed _ _ => "parse_failed"
  | unsupportedLanguage _ _ => "unsupported_language"
  | fileAccess _ _ => "io_error"
  | configuration _ => "configuration"

/-- The name under which an error is reported when it comes from a place where none is
expected. -/
def className : Error → String
  | other _ => "AstgenError"
  | fileTooLarge _ _ _ => "FileTooLargeError"
  | invalidEncoding _ => "InvalidEncodingError"
  | parseFailed _ _ => "ParseFailedError"
  | unsupportedLanguage _ _ => "UnsupportedLanguageError"
  | fileAccess _ _ => "FileAccessError"
  | configuration _ => "ConfigurationError"

def message : Error → String
  | other text => text
  | fileTooLarge path size limit =>
    "File too large: " ++ path ++ " (" ++ toString size ++ " bytes, limit is " ++ toString limit
      ++ " bytes). Use --max-file-size to raise the limit."
  | invalidEncoding path =>
    "File contains invalid UTF-8: " ++ path ++ "\n"
      ++ "Try converting the file to UTF-8 encoding first."
  | parseFailed path detail => "Parse error in " ++ path ++ ": " ++ detail
  | unsupportedLanguage path extension =>
    "Language not supported for extension '" ++ extension ++ "': " ++ path
  | fileAccess path fault => "IO error on " ++ path ++ ": " ++ fault.reason
  | configuration text => text

/-- A grammar gave no tree. -/
def noTree (path : String) : Error := parseFailed path "Failed to parse content"

end Error

def Utf8.Fault.text (fault : Utf8.Fault) : String :=
  let where_ := if fault.extra = 0
    then "byte 0x" ++ Hex.text false 2 fault.byte.toNat ++ " in position "
      ++ toString fault.offset
    else "bytes in position " ++ toString fault.offset ++ "-"
      ++ toString (fault.offset + fault.extra)
  let cause := match fault.cause with
    | .startByte => "invalid start byte"
    | .continuation => "invalid continuation byte"
    | .truncated => "unexpected end of data"
  "'utf-8' codec can't decode " ++ where_ ++ ": " ++ cause

/-- Whatever can interrupt a computation. -/
inductive Raised where
  | error (e : Error)
  /-- The file system refuses a request for a path. -/
  | refused (refusal : Refusal) (path : String)
  | invalidRule (line : String)
  | pattern (fault : PatternFault)
  | undecodable (fault : Utf8.Fault)
  | unknownFormat (name : String)
  /-- A decimal number in a settings file has more digits than numbers may have. -/
  | longNumeral (digits : Nat)
  /-- A list was asked for, and a value of a kind that holds none was given. -/
  | notIterable (kind : String)
  /-- Something from a grammar, under its own name. -/
  | foreign (name text : String)
deriving Repr, DecidableEq

namespace Raised

def className : Raised → String
  | error e => e.className
  | refused .notFound _ => "FileNotFoundError"
  | refused .notDirectory _ => "NotADirectoryError"
  | refused .isDirectory _ => "IsADirectoryError"
  | refused .nulByte _ => "ValueError"
  | refused _ _ => "OSError"
  | invalidRule _ => "GitIgnorePatternError"
  | pattern .hugeRepeat => "OverflowError"
  | pattern (.longRepeat _) => "ValueError"
  | pattern .conflictingFlags => "ValueError"
  | pattern _ => "error"
  | undecodable _ => "UnicodeDecodeError"
  | unknownFormat _ => "ValueError"
  | longNumeral _ => "ValueError"
  | notIterable _ => "TypeError"
  | foreign name _ => name

def text : Raised → String
  | error e => e.message
  | refused refusal path => (Fault.refused refusal path).text
  | invalidRule line => "Invalid git pattern: " ++ quoted line
  | pattern fault => fault.text
  | undecodable fault => fault.text
  | unknownFormat name => quoted name ++ " is not a valid OutputFormat"
  | longNumeral digits => Numeral.tooLong digits
  | notIterable kind => quoted kind ++ " object is not iterable"
  | foreign _ text => text

/-- The name and the text of what was raised, as errors of parsing mention it. -/
def description (r : Raised) : String := r.className ++ ": " ++ r.text

/-- What was raised while a file was processed, as an error about the file: errors stay what they
are, and all else is a failure of parsing. -/
def asError (path : String) : Raised → Error
  | error e => e
  | r => .parseFailed path r.description

/-! ## Computations that can be interrupted -/

section

variable {α β : Type} {x : Except Raised α} {f : α → Except Raised β}

theorem bind_eq_ok {b : β} : (x >>= f) = .ok b ↔ ∃ a, x = .ok a ∧ f a = .ok b := by
  cases x <;> simp [bind, Except.bind]

theorem bind_eq_error {raised : Raised} :
    (x >>= f) = .error raised ↔ x = .error raised ∨ ∃ a, x = .ok a ∧ f a = .error raised := by
  cases x <;> simp [bind, Except.bind]

theorem bind_of_ok {a : α} (h : x = .ok a) : (x >>= f) = f a := by
  rw [h]
  rfl

theorem bind_of_error {raised : Raised} (h : x = .error raised) : (x >>= f) = .error raised := by
  rw [h]
  rfl

end

end Raised

/-! ## Log records -/

inductive LogLevel where
  | info
  | warning
  | error
deriving Repr, DecidableEq

namespace LogLevel

def name : LogLevel → String
  | info => "INFO"
  | warning => "WARNING"
  | error => "ERROR"

def rank : LogLevel → Nat
  | info => 0
  | warning => 1
  | error => 2

end LogLevel

structure LogRecord where
  level : LogLevel
  message : String
deriving Repr, DecidableEq

end TreeDump
