import EcmaStack.Document.Toml
import EcmaStack.Document.Yaml.Node
import EcmaStack.Settings.Basic

/-!
# Settings in documents

What TOML and YAML documents give for settings. In a YAML document a plain scalar is read as
what it looks like; a tag says what a scalar must be; aliases stand for the nodes they refer to;
and a mapping may take entries from others by a merge key. Its own entries come before merged
ones, and of those the first.
-/

/-!
## Given settings

A settings file gives values under names. Whatever its notation, a value is nothing, a scalar
that may be read as a text or as a truth value, a table of further values, or something else.
Where a value is given, it takes the place of a setting; a value of the wrong kind makes the
whole file unusable. Names that no setting has are passed over.
-/

namespace EcmaStack

/-- A value from a settings file. -/
inductive Given where
  | nothing
  | scalar (asText : Option String) (asBool : Option Bool)
  | table (entries : List (String × Given))
  | other

namespace Given

/-- The text given for a setting. -/
def text (g : Given) (current : String) : Option String :=
  match g with
  | nothing => some current
  | scalar (some s) _ => some s
  | _ => none

/-- The truth value given for a setting. -/
def bool (g : Given) (current : Bool) : Option Bool :=
  match g with
  | nothing => some current
  | scalar _ (some b) => some b
  | _ => none

/-- The values given for a group of settings. -/
def fields : Given → Option (List (String × Given))
  | nothing => some []
  | table entries => some entries
  | _ => none

end Given

/-- Put given values in place of the log's settings; `same` tells which names mean a setting. -/
def LogSettings.update (same : String → String → Bool) (s : LogSettings) (g : Given) :
    Option LogSettings := do
  (← g.fields).foldlM (fun s (name, value) =>
    if same "level" name then do return { s with level := ← value.text s.level }
    else if same "development" name then do
      return { s with development := ← value.bool s.development }
    else some s) s

/-- Put given values in place of the output's settings. -/
def OutputSettings.update (same : String → String → Bool) (s : OutputSettings) (g : Given) :
    Option OutputSettings := do
  (← g.fields).foldlM (fun s (name, value) =>
    if same "format" name then do return { s with format := ← value.text s.format }
    else if same "file" name then do return { s with file := ← value.text s.file }
    else some s) s

/-- Put given values in place of the settings of compilation. -/
def CompileSettings.update (same : String → String → Bool) (s : CompileSettings) (g : Given) :
    Option CompileSettings := do
  (← g.fields).foldlM (fun s (name, value) =>
    if same "omit_source" name then do return { s with omitSource := ← value.bool s.omitSource }
    else if same "module" name then do return { s with module := ← value.bool s.module }
    else some s) s

/-- Put given values in place of settings. -/
def Settings.update (same : String → String → Bool) (s : Settings) (g : Given) :
    Option Settings := do
  (← g.fields).foldlM (fun s (name, value) =>
    if same "log" name then do return { s with log := ← s.log.update same value }
    else if same "output" name then do return { s with output := ← s.output.update same value }
    else if same "compile" name then do return { s with compile := ← s.compile.update same value }
    else some s) s

end EcmaStack

/-! ## What documents give -/

namespace EcmaStack

/-! ### TOML -/

mutual

/-- A TOML value as a given one. -/
def Toml.Value.given : Toml.Value → Given
  | .text s => .scalar (some s) none
  | .bool b => .scalar none (some b)
  | .other => .scalar none none
  | .list _ => .other
  | .table entries => .table (Toml.givenEntries entries)
  | .tables _ => .other

/-- The entries of a TOML table as given ones. -/
def Toml.givenEntries : List (String × Toml.Value) → List (String × Given)
  | [] => []
  | (key, v) :: rest => (key, v.given) :: Toml.givenEntries rest

end

/-! ### YAML -/

namespace Yaml

/-- The truth value of a word of older notations. -/
def oldTruth? (s : String) : Option Bool :=
  if oldTrueWords.contains s then some true
  else if oldFalseWords.contains s then some false else none

/-- A text as a given value. -/
def givenText (s : String) : Given :=
  .scalar (some s) (oldTruth? s)

/-- What a scalar gives that means what it looks like. -/
def Meaning.given (m : Meaning) (s : String) : Given :=
  match m with
  | .null => .nothing
  | .truth b => .scalar (some s) (some b)
  | .text => givenText s
  | .integer | .float | .timestamp => .scalar (some s) none

/-- Whether a meaning is one that a tag asks for; none for a tag that is not of a standard type. -/
def Meaning.fits? (m : Meaning) : String → Option Bool
  | "!!null" => some (m == .null)
  | "!!bool" => some (m == .truth true || m == .truth false)
  | "!!int" => some (m == .integer)
  | "!!float" => some (m == .float || m == .integer)
  | "!!timestamp" => some (m == .timestamp)
  | _ => none

/-- The key under which a mapping takes entries from others. -/
def mergeKey : String := "<<"

/-- What a scalar gives. -/
def scalarGiven (tag : Option String) (plain : Bool) (s : String) : Given :=
  match tag with
  | none => if plain && s != mergeKey then (Meaning.of s).given s else givenText s
  | some "!!binary" =>
    match Base64.decode? s.toList with
    | some bytes => givenText (Text.decode bytes).toString
    | none => .other
  | some tag =>
    match (Meaning.of s).fits? tag with
    | some true => (Meaning.of s).given s
    | some false => .other
    | none => givenText s

/-- Whether a node is a merge key. -/
def Node.isMergeKey : Node → Bool
  | .scalar none plain s => plain && s == mergeKey
  | .scalar (some tag) _ s => tag == "!!merge" && s == mergeKey
  | _ => false

/-- What tells keys apart: the kind of a node and its text. -/
def Node.label : Node → Nat × String
  | .scalar _ _ s => (0, s)
  | .sequence _ => (1, "")
  | .mapping _ => (2, "")
  | .alias _ name => (3, name)

/-- Whether all labels differ. -/
def distinctLabels : List (Nat × String) → Bool
  | [] => true
  | label :: rest => !rest.contains label && distinctLabels rest

namespace Document

/-- The node that a node stands for. -/
def target? (d : Document) : Node → Option Node
  | .alias number _ => d.anchored.lookup number
  | n => some n

/-- What a node gives where no table can stand. -/
def scalarAt (d : Document) (n : Node) : Given :=
  match d.target? n with
  | some (.scalar tag plain s) => scalarGiven tag plain s
  | _ => .other

/-- Add the own entries of a mapping. Keys that mean nothing are passed over. A name that is
there already is passed over while merging; otherwise its second value is no good. -/
def ownEntries? (d : Document) (give : Node → Given) (merging : Bool)
    (known : List (String × Given)) :
    List (Node × Node) → Option (List (String × Given))
  | [] => some known
  | (key, v) :: rest =>
    if key.isMergeKey then ownEntries? d give merging known rest
    else match d.scalarAt key with
      | .nothing => ownEntries? d give merging known rest
      | .scalar (some name) _ =>
        if known.any (·.1 == name) then
          ownEntries? d give merging (if merging then known else known ++ [(name, .other)]) rest
        else ownEntries? d give merging (known ++ [(name, give v)]) rest
      | _ => none

/-- Add the entries of a mapping, and those it takes from others. A mapping that takes entries
from itself is no good. -/
def entries? (d : Document) (give : Node → Given) :
    Nat → Bool → List (String × Given) → Node → Option (List (String × Given))
  | 0, _, _, _ => none
  | fuel + 1, merging, known, n =>
    match d.target? n with
    | some (.mapping entries) => do
      if !distinctLabels (entries.map (·.1.label)) then none
      else
        let known ← d.ownEntries? give merging known entries
        let sources := match entries.find? (·.1.isMergeKey) with
          | some (_, .sequence items) => items
          | some (_, source) => [source]
          | none => []
        sources.foldlM (fun known source => entries? d give fuel true known source) known
    | _ => none

/-- What a node gives where a table may stand, `give` telling what its values give. -/
def tableAt (d : Document) (give : Node → Given) (n : Node) : Given :=
  match d.target? n with
  | some (.mapping _) =>
    match d.entries? give d.size false [] n with
    | some entries => .table entries
    | none => .other
  | _ => d.scalarAt n

/-- What a document gives: a table of tables, or nothing. -/
def given (d : Document) : Given :=
  match d.root with
  | some n => d.tableAt (d.tableAt d.scalarAt) n
  | none => .nothing

end Document

end Yaml

end EcmaStack
