import EcmaStack.Document.TomlText
import EcmaStack.Text.Piece

/-!
# TOML documents

A document is a table. Lines give keys their values; a header in brackets opens a table for the
lines after it, doubled brackets add a table to a list of tables. A dotted key leads through
tables, which come into being on the way. A table that is only **implied** so far may still be
opened once. What was last given as a list may be given anew, and a list may take the place of
anything; all else is given once only.

Of numbers, dates and times it is kept only that they are well formed.
-/

namespace EcmaStack

namespace Toml

/-- A value; `other` is a number, a date or a time. -/
inductive Value where
  | text (s : String)
  | bool (b : Bool)
  | other
  | list (items : List Value)
  | table (entries : List (String × Value))
  | tables (items : List (List (String × Value)))
  deriving Inhabited

/-- A table: keys with their values. -/
abbrev Table := List (String × Value)

/-- The way to a value, one key for each step. -/
abbrev Path := List String

namespace Table

/-- The table with the value of a key set. -/
def put (t : Table) (key : String) (v : Value) : Table :=
  if t.any (·.1 == key) then t.map fun e => if e.1 == key then (key, v) else e else t ++ [(key, v)]

/-- Add a table to the list of tables at a key. -/
def extend (t : Table) (key : String) : Option Table :=
  match t.lookup key with
  | none => some (t.put key (.tables [[]]))
  | some (.tables items) => some (t.put key (.tables (items ++ [[]])))
  | some _ => none

/-- Change the table at the end of a path, which leads through the latest of a list of tables.
Tables that are missing on the way come into being. -/
def within (change : Table → Option Table) : Path → Table → Option Table
  | [], t => change t
  | key :: path, t =>
    match t.lookup key with
    | none => do return t.put key (.table (← within change path []))
    | some (.table entries) => do return t.put key (.table (← within change path entries))
    | some (.tables items) => do
      let latest ← within change path (items.getLast?.getD [])
      return t.put key (.tables (items.dropLast ++ [latest]))
    | some _ => none

/-- The value at the end of a path. -/
def find? (t : Table) : Path → Option Value
  | [] => some (.table t)
  | key :: path =>
    match t.lookup key with
    | some (.table entries) => find? entries path
    | some (.tables items) =>
      if path.isEmpty then some (.tables items) else find? (items.getLast?.getD []) path
    | some v => if path.isEmpty then some v else none
    | none => none

end Table

/-! ## Drafts -/

/-- What has been read of a document: the table, the ways to tables that are implied so far, and
the ways to what was last given as a list. -/
structure Draft where
  table : Table := []
  implied : List Path := []
  lists : List Path := []

namespace Draft

/-- The draft with a way marked as implied. -/
def imply (d : Draft) (path : Path) : Draft :=
  if d.implied.contains path then d else { d with implied := path :: d.implied }

/-- Note whether what is given at a key is a list. The empty key stands for the table it is in. -/
def noteKind (d : Draft) (place : Path) (key : String) (isList : Bool) : Draft :=
  let path := if key.isEmpty then place else place ++ [key]
  let path := if path.isEmpty then [""] else path
  let others := d.lists.filter (· != path)
  { d with lists := if isList then path :: others else others }

/-- Give a key in a table its value. A table that was implied is now given, and keeps what it
holds. -/
def give? (d : Draft) (place : Path) (key : String) (v : Value) : Option Draft := do
  let path := place ++ [key]
  let set (t : Table) : Option Table := some (t.put key v)
  if (d.table.find? path).isNone then return { d with table := ← Table.within set place d.table }
  else if d.lists.contains path then
    return { d with table := ← Table.within set place d.table,
                    implied := d.implied.filter (· != path) }
  else if d.implied.contains path then
    return { d with table := ← Table.within some place d.table,
                    implied := d.implied.filter (· != path) }
  else none

/-- Imply the tables on the way to a table that are missing. -/
def implyMissing (d : Draft) (path : Path) : Draft :=
  (List.range path.length).foldl (fun d n =>
    let part := path.take (n + 1)
    if (d.table.find? part).isNone then d.imply part else d) d

/-- Open a table at the end of a path; in a list of tables it is a new one. -/
def enter? (d : Draft) (path : Path) (inList : Bool) : Option Draft := do
  let key ← path.getLast?
  let place := path.dropLast
  let d := d.implyMissing place
  if inList then return { d with table := ← Table.within (·.extend key) place d.table }
  else d.give? place key (.table [])

/-- Go through the tables that a dotted key leads through: the place of its last name. Each of
them is implied. -/
def through? (d : Draft) (place : Path) : Path → Option (Draft × Path)
  | [] => some (d, place)
  | name :: names => do
    let path := place ++ [name]
    let d ← (d.imply path).enter? path false
    d.through? path names

end Draft

/-! ## Keys -/

/-- Whether a character may stand in a key without quotes. -/
def isBareChar (c : Char) : Bool :=
  c.isAlphanum || c == '_' || c == '-'

/-- One name of a key, with the blanks around it left out. -/
def name? (cs : List Char) : Option (String × List Char) := do
  let cs := cs.dropWhile isBlank
  let (name, rest) ← match cs.head? with
    | some '\x22' | some '\x27' => shortText? cs
    | _ =>
      if cs.head?.any isBareChar then some (cs.takeWhile isBareChar, cs.dropWhile isBareChar)
      else none
  return (String.ofList name, rest.dropWhile isBlank)

/-- A dotted key. -/
def key? : Nat → List Char → Option (List String × List Char)
  | 0, _ => none
  | fuel + 1, cs => do
    match ← name? cs with
    | (name, '.' :: rest) =>
      let (names, rest) ← key? fuel rest
      return (name :: names, rest)
    | (name, rest) => return ([name], rest)

/-! ## Values -/

/-- What follows blanks, line ends and comments. -/
def skipLines : Bool → List Char → List Char
  | _, [] => []
  | true, c :: rest => if isLineEnd c then skipLines false rest else skipLines true rest
  | false, '#' :: rest => skipLines true rest
  | false, c :: rest => if isBlank c || isLineEnd c then skipLines false rest else c :: rest

/-- A value that is neither a list nor a table. -/
def scalar? (cs : List Char) : Option (Value × List Char) :=
  if cs.head? == some '\x22' || cs.head? == some '\x27' then
    (text? cs).map fun (s, rest) => (.text (String.ofList s), rest)
  else
    let (w, rest) := word cs
    if w == "true".toList then some (.bool true, rest)
    else if w == "false".toList then some (.bool false, rest)
    else if isInteger w || isFloat w || isMoment w then some (.other, rest)
    else none

mutual

/-- A value that is given to a key in a table, directly or in a list. -/
def value? : Nat → Draft → Path → String → Bool → List Char → Option (Value × Draft × List Char)
  | 0, _, _, _, _, _ => none
  | fuel + 1, d, place, key, inList, cs =>
    match cs.dropWhile isBlank with
    | '[' :: rest => do
      let (items, d, rest) ← items? fuel (d.noteKind place key true) place key rest
      return (.list items, d, rest)
    | '\x7b' :: rest => do
      let path := place ++ [key]
      let d ← (d.imply path).enter? path inList
      match rest.dropWhile isBlank with
      | '\x7d' :: rest => return (.table [], d, rest)
      | rest =>
        let (entries, d, rest) ← entries? fuel d path [] rest
        return (.table entries, d, rest)
    | cs => do
      let (v, rest) ← scalar? cs
      return (v, d, rest)

/-- The rest of a list. -/
def items? : Nat → Draft → Path → String → List Char → Option (List Value × Draft × List Char)
  | 0, _, _, _, _ => none
  | fuel + 1, d, place, key, cs =>
    match skipLines false cs with
    | ']' :: rest => some ([], d, rest)
    | cs => do
      let (v, d, rest) ← value? fuel d place key true cs
      match skipLines false rest with
      | ']' :: rest => return ([v], d, rest)
      | ',' :: rest =>
        let (items, d, rest) ← items? fuel d place key rest
        return (v :: items, d, rest)
      | _ => none

/-- A key with its value, in a table: the names of the key and the value. -/
def entry? : Nat → Draft → Path → List Char → Option (Path × Value × Draft × List Char)
  | 0, _, _, _ => none
  | fuel + 1, d, place, cs => do
    let (names, rest) ← key? fuel cs
    let key ← names.getLast?
    let rest ← Moment.mark? (· == '=') rest
    let (d, place) ← d.through? place names.dropLast
    let (v, d, rest) ← value? fuel d place key false rest
    let d ← d.give? place key v
    let isList := match v with
      | .list _ => true
      | _ => false
    return (names, v, d.noteKind place key isList, rest)

/-- The rest of a table on one line, of which some entries have been read. -/
def entries? : Nat → Draft → Path → Table → List Char → Option (Table × Draft × List Char)
  | 0, _, _, _, _ => none
  | fuel + 1, d, place, t, cs => do
    let (names, v, d, rest) ← entry? fuel d place cs
    let key ← names.getLast?
    let t ← Table.within (fun t => some (t.put key v)) names.dropLast t
    match rest.dropWhile isBlank with
    | '\x7d' :: rest => return (t, d, rest)
    | ',' :: rest => entries? fuel d place t rest
    | _ => none

end

/-! ## Documents -/

/-- What follows the end of a line, with nothing but a comment before it. -/
def endLine? (cs : List Char) : Option (List Char) :=
  match cs.dropWhile isBlank with
  | [] => some []
  | '#' :: rest => some (rest.dropWhile fun c => !isLineEnd c)
  | c :: rest => if isLineEnd c then some (c :: rest) else none

/-- Read one header, or one key with its value in the table that lines now add to: the way to
the table that the following lines add to, and the rest. -/
def line? (fuel : Nat) (d : Draft) (place : Path) (cs : List Char) :
    Option (Draft × Path × List Char) :=
  match cs with
  | '[' :: '[' :: rest => do
    let (path, rest) ← key? fuel rest
    let rest ← Moment.mark? (· == ']') (← Moment.mark? (· == ']') rest)
    return ((← d.enter? path true).noteKind path "" false, path, ← endLine? rest)
  | '[' :: rest => do
    let (path, rest) ← key? fuel rest
    let rest ← Moment.mark? (· == ']') rest
    return ((← d.enter? path false).noteKind path "" false, path, ← endLine? rest)
  | cs => do
    let (_, _, d, rest) ← entry? fuel d place cs
    return (d, place, ← endLine? rest)

/-- Read the lines of a document. -/
def lines? : Nat → Draft → Path → List Char → Option Table
  | 0, _, _, _ => none
  | fuel + 1, d, place, cs =>
    match skipLines false cs with
    | [] => some d.table
    | cs => do
      let (d, place, rest) ← line? fuel d place cs
      lines? fuel d place rest

/-- A document as a table. -/
def read? (document : String) : Option Table :=
  let cs := document.toList
  if isClean cs then lines? (2 * cs.length + 3) {} [] cs else none

/-- The text of a document; a mark that tells the order of its bytes is dropped. -/
def documentText? (bytes : List UInt8) : Option String :=
  match bytes with
  | 0xFF :: 0xFE :: rest | 0xFE :: 0xFF :: rest | 0xEF :: 0xBB :: 0xBF :: rest =>
    (Text.decode rest).toString?
  | _ => (Text.decode bytes).toString?

end Toml

end EcmaStack
