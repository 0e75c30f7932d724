import TreeDump.Files.System
import TreeDump.Format
import TreeDump.Grammar.Pool
import TreeDump.Language
import TreeDump.Run.Work
import TreeDump.Tree.Export

/-!
# Processing one file

A file goes through a row of stages, and the first one that cannot go on settles its outcome: the
language is found, the file is measured, read and checked, then parsed, and the document is
rendered.

* `readSource` answers the bytes of a file that is small enough and holds text.
* `Processor.work` is the work on a path, which always comes to an outcome, and `Processor.process`
  does it.
-/

namespace TreeDump

def bytesPerMegabyte : Int := 1000000

/-- The size of the largest file that is read unless told otherwise, in megabytes. -/
def defaultMaxFileMegabytes : Int := 10

def megabytes (n : Int) : Int := n * bytesPerMegabyte

structure ProcessOptions where
  maxBytes : Int := megabytes defaultMaxFileMegabytes
  /-- The length of previews, if records are cut down to previews. -/
  truncate : Option Int := none
  dryRun : Bool := false
  /-- Whether a file without a language is an error. -/
  strict : Bool := false
  format : OutputFormat := .json
deriving Repr, DecidableEq

/-- A refusal while a file is read: an error about the file, unless the path could not even be
asked for. -/
def accessFailure (path : String) (refusal : Refusal) : Raised :=
  if refusal = .nulByte then .refused refusal path
  else .error (.fileAccess path (.refused refusal path))

/-- The bytes of a file of at most `limit` bytes that holds text. -/
def readSource (fs : FileSystem) (path : String) (limit : Int) : Except Raised ByteArray :=
  match fs.stat path with
  | .error refusal => .error (accessFailure path refusal)
  | .ok entry =>
    if limit < entry.size then .error (.error (.fileTooLarge path entry.size limit))
    else
      match fs.read path with
      | .error refusal => .error (accessFailure path refusal)
      | .ok bytes =>
        if Utf8.isValid bytes then .ok bytes else .error (.error (.invalidEncoding path))

/-- The written record of a document.  A document whose compact text is longer than the limit for
previews is cut down to one, whatever the format is. -/
def ProcessOptions.renderDocument (options : ProcessOptions) (document : Json) : String :=
  let compact := document.compact
  match options.truncate with
  | some limit =>
    if limit < compact.length then preview limit compact else options.format.render document
  | none => options.format.render document

structure Processor where
  registry : Registry := .default
  grammars : GrammarSource
  options : ProcessOptions := {}

namespace Processor

def unsupported (p : Processor) (path : String) : Outcome :=
  match extensionOf? path with
  | some extension =>
    if p.options.strict then .failed path (.unsupportedLanguage path extension)
    else .skipped path "unsupported"
  | none => .skipped path "unsupported"

def notice (path : String) (binding : Binding) : String :=
  "Would parse: " ++ path ++ " (" ++ binding.name ++ ")"

/-- The outcome of a file whose language is known, after its bytes were parsed. -/
def parsedOutcome (p : Processor) (path : String) (binding : Binding) (bytes : ByteArray) :
    Except Raised (Option SyntaxTree) → Outcome
  | .error raised => .failed path (raised.asError path)
  | .ok none => .failed path (.noTree (Path.ofString path).text)
  | .ok (some tree) =>
    let doc := document (Path.ofString path).text binding.name (Node.ofSource (.bytes bytes) tree)
    .success path binding.name (p.options.renderDocument doc) (some doc) false

/-- The work on a path.  It asks for a parser once, if the path is to be parsed at all. -/
def work (p : Processor) (fs : FileSystem) (path : String) : Work :=
  match p.registry.classify path with
  | none => .finish (.ok (p.unsupported path))
  | some binding =>
    if p.options.dryRun then
      .finish (.ok (.success path binding.name (notice path binding) none true))
    else
      match readSource fs (Path.ofString path).text p.options.maxBytes with
      | .error raised => .finish (.ok (.failed path (raised.asError path)))
      | .ok bytes =>
        .parse binding.languageId bytes fun parsed =>
          .finish (.ok (p.parsedOutcome path binding bytes parsed))

/-- The outcome of a path, with the parsers of a pool. -/
def process (p : Processor) (fs : FileSystem) (path : String) (pool : Pool) : Outcome × Pool :=
  let (result, pool) := (p.work fs path).run p.grammars pool
  (.ofResult path result, pool)

end Processor

end TreeDump
