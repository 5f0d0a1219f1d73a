import EcmaStack.Files.System
import EcmaStack.Settings.Notation

/-!
# Settings files

A settings file is a TOML or a YAML document; the end of its name tells which. The path of the
file, and the path of the output in it, may refer to variables.
-/

/-!
## References to variables

A path may refer to variables: `$NAME`, or the name between braces. A reference is replaced by
the variable's value, and by nothing where there is none. A dollar sign that starts no reference
stays; an opening brace that does not hold a name is dropped together with its dollar sign.
-/

namespace EcmaStack

/-- A piece of a path. -/
inductive PathPart where
  | literal (c : Char)
  | reference (name : String)
  deriving DecidableEq

namespace PathPart

/-- Whether a character is a name of its own. -/
def isSpecial (c : Char) : Bool :=
  "*#$@!?-".toList.contains c || c.isDigit

/-- Whether a character may stand in a name without braces. -/
def isNameChar (c : Char) : Bool :=
  c.isAlphanum || c == '_'

/-- The piece after a dollar sign, if it is one, and how many characters it takes. -/
def afterDollar (cs : List Char) : Option PathPart × Nat :=
  match cs with
  | [] => (some (.literal '$'), 0)
  | '\x7b' :: rest =>
    let name := rest.takeWhile (· != '\x7d')
    if rest.length ≤ name.length then (none, 1)
    else if name.isEmpty then (none, 2)
    else (some (.reference (String.ofList name)), name.length + 2)
  | c :: _ =>
    let name := cs.takeWhile isNameChar
    if isSpecial c then (some (.reference (String.ofList [c])), 1)
    else if name.isEmpty then (some (.literal '$'), 0)
    else (some (.reference (String.ofList name)), name.length)

/-- The pieces of a path, the first so many characters of which belong to the piece before. -/
def piecesFrom : Nat → List Char → List PathPart
  | _, [] => []
  | taken + 1, _ :: rest => piecesFrom taken rest
  | 0, '$' :: rest =>
    let (part, width) := afterDollar rest
    part.toList ++ piecesFrom width rest
  | 0, c :: rest => .literal c :: piecesFrom 0 rest

/-- The pieces of a path. -/
def pieces (path : String) : List PathPart :=
  piecesFrom 0 path.toList

/-- The characters a piece stands for. -/
def value {m : Type → Type} [Monad m] (fs : FileSystem m) : PathPart → m (List Char)
  | .literal c => return [c]
  | .reference name => return ((← fs.lookup name).getD "").toList

end PathPart

/-- A path with the values of the variables it refers to. -/
def FileSystem.expand {m : Type → Type} [Monad m] (fs : FileSystem m) (path : String) :
    m String := do
  return String.ofList (← (PathPart.pieces path).mapM (PathPart.value fs)).flatten

end EcmaStack

/-! ## Reading a file -/

namespace EcmaStack

/-- A format of settings files. -/
inductive SettingsFormat where
  | toml
  | yaml
  deriving DecidableEq

/-- The end of a path from its last dot on, in small letters; empty where the last name of the
path has none. -/
def extension (path : String) : String :=
  let name := path.toList.reverse.takeWhile (· != '/')
  let tail := name.takeWhile (· != '.')
  if tail.length == name.length then ""
  else Text.inSmallLetters (String.ofList ('.' :: tail.reverse))

/-- The format that the end of a path stands for. -/
def SettingsFormat.ofExtension? : String → Option SettingsFormat
  | ".toml" => some .toml
  | ".yaml" | ".yml" => some .yaml
  | _ => none

/-- A character without regard to whether it is a capital or a small letter. -/
def foldLetter (c : Char) : Char :=
  if c == '\u017f' then 's' else if c == '\u212a' then 'k' else c.toLower

/-- Whether a key means a setting: capitals count in YAML only. -/
def SettingsFormat.same (n : SettingsFormat) (name key : String) : Bool :=
  match n with
  | .toml => name.toList.map foldLetter == key.toList.map foldLetter
  | .yaml => name == key

/-- What reads settings documents: it answers what the bytes of a document in a format give,
and nothing for bytes that are no such document. -/
abbrev DocumentReader := SettingsFormat → List UInt8 → Option Given

/-- A reader of settings documents. -/
def SettingsFormat.given? (n : SettingsFormat) (bytes : List UInt8) : Option Given := do
  match n with
  | .toml => return .table (Toml.givenEntries (← Toml.read? (← Toml.documentText? bytes)))
  | .yaml => return (← Yaml.read? bytes).given

/-- Settings from the bytes of a document. -/
def SettingsFormat.settings? (n : SettingsFormat) (bytes : List UInt8)
    (reader : DocumentReader := SettingsFormat.given?) : Option Settings := do
  ({} : Settings).update n.same (← reader n bytes)

/-- Why settings cannot be loaded. -/
inductive SettingsFault where
  | unreadable (fault : FileFault)
  | unsupported (extension : String)
  | malformed (path : String)
  | invalid (path : String) (fault : SettingFault)
  deriving DecidableEq

/-- The wording of a fault. -/
def SettingsFault.message : SettingsFault → String
  | .unreadable fault => "read config: " ++ fault.message
  | .unsupported extension => "unsupported config format " ++ Text.quoted (Text.ofString extension)
  | .malformed path => "parse " ++ path ++ ": malformed document or value of the wrong kind"
  | .invalid path fault => "invalid config " ++ path ++ ": " ++ fault.message

/-- The settings of a document at a path, before references in them are replaced. -/
def readSettings (path : String) (bytes : List UInt8)
    (reader : DocumentReader := SettingsFormat.given?) :
    Except SettingsFault Settings :=
  match SettingsFormat.ofExtension? (extension path) with
  | none => .error (.unsupported (extension path))
  | some n =>
    match n.settings? bytes reader with
    | none => .error (.malformed path)
    | some settings => .ok settings

/-- Load settings from a file. Without a path they are those that hold where nothing else is
said. -/
def FileSystem.loadSettings {m : Type → Type} [Monad m] (fs : FileSystem m) (path : String)
    (reader : DocumentReader := SettingsFormat.given?) : m (Except SettingsFault Settings) := do
  if path.isEmpty then return .ok {}
  let path ← fs.expand path
  match ← fs.read path with
  | .error fault => return .error (.unreadable fault)
  | .ok bytes =>
    match readSettings path bytes reader with
    | .error fault => return .error fault
    | .ok settings =>
      let file ← fs.expand settings.output.file
      let settings := { settings with output := { settings.output with file } }
      match settings.check with
      | .error fault => return .error (.invalid path fault)
      | .ok _ => return .ok settings

end EcmaStack
