import EcmaStack.Command.Product
import EcmaStack.Command.Selection
import EcmaStack.Settings.Load
import EcmaStack.Text.Encoding

/-!
# Running commands

A command line is run in steps, and the first that fails ends the run: choose the command, read
its flags, count its operands, load the settings and put the flags in their place, read and
decode the source, make the product, and write it to the output. The output is opened once there
is a product, so a product that cannot be written leaves an empty file.
-/

namespace EcmaStack

/-- Why a run fails. -/
inductive CommandError where
  | unknownCommand (name : String)
  | flag (fault : FlagFault)
  | operands (count : Nat)
  | settings (fault : SettingsFault)
  | setting (fault : SettingFault)
  | source (fault : FileFault)
  | encoding (path : String) (fault : Text.EncodingFault)
  | parse (file : SourceFile) (error : ParseError)
  | compile (file : SourceFile) (error : CompileError)
  | unfinished (slots : OpenSlots)
  | undecodable (fault : DecodeFault)
  | output (fault : FileFault)
  | json (fault : JsonFault)

namespace CommandError

/-- The wording of an error. -/
def message : CommandError → String
  | .unknownCommand name =>
    "unknown command " ++ Text.quoted (Text.ofString name) ++ " for \"neo\"" ++ proposalText name
  | .flag fault => fault.message
  | .operands count => "accepts 1 arg(s), received " ++ toString count
  | .settings fault => fault.message
  | .setting fault => fault.message
  | .source fault => "read source: " ++ fault.message
  | .encoding path fault => "decode " ++ path ++ ": " ++ fault.message
  | .parse _ error => error.render
  | .compile file error => error.render file.name
  | .unfinished slots => slots.message
  | .undecodable fault => fault.message
  | .output fault => "create output: " ++ fault.message
  | .json fault => "encode json: " ++ fault.message

/-- The line of the source that an error points to, with a mark; only syntax errors have one. -/
def snippet : CommandError → String
  | .parse file error => (file.snippet error.position).toString
  | .compile file (.parse error) => (file.snippet error.position).toString
  | _ => ""

/-- An error as it is reported. -/
def report (e : CommandError) : String :=
  "neo: " ++ e.message ++ "\n" ++ if e.snippet.isEmpty then "" else e.snippet ++ "\n"

end CommandError

/-- What a run leaves: its status, and what it has written to the standard output and to that
for errors. -/
structure Outcome where
  status : Nat := 0
  stdout : List UInt8 := []
  stderr : String := ""
  deriving DecidableEq

/-- The variable that names the settings file where no flag does. -/
def settingsVariable : String := "NEO_CONFIG"

/-- What is shown to those who ask for help. -/
def helpText : String :=
  "neo parses JavaScript, checks it for early errors and writes bytecode\n" ++
  "for the neo stack machine.\n\nUsage:\n  neo COMMAND FILE [flags]\n\nCommands:\n" ++
  "  parse   - dump the syntax tree with scopes and closures\n" ++
  "  compile - write bytecode\n" ++
  "  disasm  - compile and list the bytecode\n" ++
  "  fmt     - print normalized source\n\nFlags:\n" ++
  "      --config string      config file (.toml, .yaml or .yml; default $NEO_CONFIG)\n" ++
  "  -f, --format string      output format: json, yaml or text\n" ++
  "  -h, --help               show this help\n" ++
  "      --log-level string   log level: debug, info, warn or error\n" ++
  "      --module             parse input as a module\n" ++
  "      --omit-source        leave function source text out of the bytecode\n" ++
  "  -o, --out string         output file (default stdout)\n"

/-- Settings with what the flags say in their place. -/
def Settings.override (s : Settings) (o : Options) : Settings where
  log := { s.log with level := o.logLevel.getD s.log.level }
  output := { format := o.format.getD s.output.format, file := o.out.getD s.output.file }
  compile := { omitSource := o.omitSource.getD s.compile.omitSource,
               module := o.module.getD s.compile.module }

/-- What a run takes from elsewhere: what chooses the command of a command line and reads its
flags, what reads settings documents and writes YAML, and what compiles regular expressions.
Each of them is at hand; a run may be given others. -/
structure Packages where
  selection : List String → Selection := Selection.ofWords
  flags : List String → Except FlagFault (Options × List String) := Options.read
  documents : DocumentReader := SettingsFormat.given?
  yaml : Datum → String := Datum.toYaml
  patterns : PatternCompiler := compilePattern

/-- The code of a source. -/
def compiledBytes (s : CompileSettings) (file : SourceFile) (patterns : PatternCompiler) :
    Except CommandError (List UInt8) := do
  let buffer ← (compile file s.module s.omitSource patterns).mapError (.compile file)
  buffer.bytes.mapError .unfinished

/-- What a command makes of a source; nothing for a command that takes none. -/
def Command.product (c : Command) (s : CompileSettings) (file : SourceFile)
    (patterns : PatternCompiler) :
    Except CommandError Product := do
  let parsed : Except CommandError Program :=
    (parseFile file s.module patterns).mapError (.parse file)
  match c with
  | .parse => return .tree ((← parsed).describeIn file)
  | .compile => return .code (← compiledBytes s file patterns)
  | .disasm =>
    let decoded := decode (← compiledBytes s file patterns)
    match decoded.fault with
    | some fault => throw (.undecodable fault)
    | none => return .instructions decoded
  | .fmt => return .source ((← parsed).print 0)
  | .completion | .help => return .source helpText

/-- The result of a step that asks nothing of the file system. -/
def orFail {m : Type → Type} [Monad m] {ε α : Type} (wrap : ε → CommandError)
    (result : Except ε α) :
    ExceptT CommandError m α :=
  ExceptT.mk (pure (result.mapError wrap))

namespace FileSystem

variable {m : Type → Type} [Monad m] (fs : FileSystem m)

/-- The settings of a run. -/
def settings (o : Options) (documents : DocumentReader) :
    ExceptT CommandError m (Settings × OutputFormat) := do
  let path := o.config.getD ""
  let path ← if path.isEmpty then do pure ((← fs.lookup settingsVariable).getD "") else pure path
  let s := (← orFail .settings (← fs.loadSettings path documents)).override o
  return (s, ← orFail .setting s.check)

/-- The source at a path. -/
def source (path : String) : ExceptT CommandError m SourceFile := do
  let bytes ← orFail .source (← fs.read path)
  return .ofString path (← orFail (.encoding path) (Text.decodeSource bytes))

/-- The code of the source at a path. -/
def compileFile (path : String) (s : CompileSettings) : ExceptT CommandError m CodeBuffer := do
  let file ← fs.source path
  orFail (.compile file) (compile file s.module s.omitSource)

/-- Write a product to the file of an output, or give it to the standard output where there is
none. -/
def deliver (file : String) (encoded : Except JsonFault (List UInt8)) :
    ExceptT CommandError m (List UInt8) := do
  if file.isEmpty then orFail .json encoded
  else
    match ← fs.create file (encoded.toOption.getD []) with
    | .error fault => throw (.output fault)
    | .ok () => orFail .json (encoded.map fun _ => [])

/-- Run a command on the words that follow its name. The bytes are for the standard output. -/
def perform (packages : Packages) (c : Command) (words : List String) :
    ExceptT CommandError m (List UInt8) := do
  let (o, operands) ← orFail .flag (packages.flags words)
  if o.help || c == .help || c == .completion then return utf8Bytes helpText
  match operands with
  | [path] =>
    let (s, format) ← fs.settings o packages.documents
    let product ← orFail id (c.product s.compile (← fs.source path) packages.patterns)
    fs.deliver s.output.file (product.encode format packages.yaml)
  | _ => throw (.operands operands.length)

/-- Run a command line. Without a command it asks for help. -/
def execute (packages : Packages) (words : List String) : ExceptT CommandError m (List UInt8) :=
  match packages.selection words with
  | .unknown name => throw (.unknownCommand name)
  | .command c words => fs.perform packages c words
  | .bare words => fs.perform packages .help words

/-- Run a command line and report how it ended. -/
def run (words : List String) (packages : Packages := {}) : m Outcome := do
  match ← (fs.execute packages words).run with
  | .ok stdout => return { stdout }
  | .error e => return { status := 1, stderr := e.report }

end FileSystem

end EcmaStack
