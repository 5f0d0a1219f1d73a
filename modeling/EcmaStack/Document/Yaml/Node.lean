import EcmaStack.Document.Yaml.Token

/-!
# Nodes of YAML documents

A document is a node: a scalar, a sequence, a mapping, or an alias for a node that carries an
anchor. Only the first document of a stream is read, up to the token after it. An alias may
stand inside the node it refers to, so it names its target by a number, under which the node is
found in the document.
-/

namespace EcmaStack

namespace Yaml

/-- A node. A scalar is plain if it stands without quotes and not as a block of text; its tag is
in short form. -/
inductive Node where
  | scalar (tag : Option String) (plain : Bool) (text : String)
  | sequence (items : List Node)
  | mapping (entries : List (Node × Node))
  | alias (target : Nat) (name : String)
  deriving Inhabited

/-- The node of a value that is left out. -/
def Node.empty : Node :=
  .scalar none true ""

/-- The first document of a stream: its node, if there is one, and the nodes with anchors. -/
structure Document where
  root : Option Node
  anchored : List (Nat × Node)
  size : Nat

/-! ## Tags -/

/-- What all tags of the standard types start with. -/
def standardTags : String := "tag:yaml.org,2002:"

/-- What handles stand for where nothing else is said. -/
def defaultHandles : List (String × String) :=
  [("!", "!"), ("!!", standardTags)]

/-- The short form of a tag; a mark alone is none. -/
def shortTag (tag : String) : Option String :=
  let head := standardTags.toList
  if tag == "!" then none
  else if head.isPrefixOf tag.toList then some ("!!" ++ String.ofList (tag.toList.drop head.length))
  else some tag

/-! ## Reading -/

/-- What is known while tokens are read: the tokens left, what handles stand for, which number
the last anchor of each name has, how many anchors there were, and the nodes with anchors that
are complete. -/
structure Progress where
  tokens : List Token
  complete : Bool
  handles : List (String × String) := []
  anchors : List (String × Nat) := []
  count : Nat := 0
  anchored : List (Nat × Node) := []

/-- A step that reads nodes from tokens, or finds them malformed. -/
abbrev Reading := StateT Progress Option

namespace Reading

/-- The next token; after the last one the stream ends. -/
def peek : Reading Token := do
  let s ← get
  match s.tokens with
  | t :: _ => return t
  | [] => if s.complete then return .streamEnd else failure

/-- Pass the next token. -/
def skip : Reading Unit :=
  modify fun s => { s with tokens := s.tokens.drop 1 }

/-- Pass the next token and see the one after it. -/
def skipPeek : Reading Token := do
  skip
  peek

/-- The tag that is written. -/
def tagOf (written : WrittenTag) : Reading (Option String) := do
  if written.handle.isEmpty then return shortTag written.suffix
  match (← get).handles.lookup written.handle with
  | some meaning => return shortTag (meaning ++ written.suffix)
  | none => failure

/-- The anchor and the tag of a node, in either order; `none` for a tag that is not written. -/
def properties : Reading (Option String × Option WrittenTag) := do
  match ← peek with
  | .anchor name =>
    match ← skipPeek with
    | .tag written => do
      skip
      return (some name, some written)
    | _ => return (some name, none)
  | .tag written =>
    match ← skipPeek with
    | .anchor name => do
      skip
      return (some name, some written)
    | _ => return (none, some written)
  | _ => return (none, none)

/-- Number a new anchor. From here on aliases of its name refer to it. -/
def announce (name : String) : Reading Nat :=
  modifyGet fun s =>
    (s.count, { s with anchors := (name, s.count) :: s.anchors, count := s.count + 1 })

/-- The node of an alias. -/
def aliasOf (name : String) : Reading Node := do
  match (← get).anchors.lookup name with
  | some target => return .alias target name
  | none => failure

mutual

/-- A node. Blocks may only start where `block` says so, and a sequence that stands no deeper
than its key only where `indentless` says so. -/
def node : Nat → Bool → Bool → Reading Node
  | 0, _, _ => failure
  | fuel + 1, block, indentless => do
    match ← peek with
    | .alias name => do
      skip
      aliasOf name
    | _ => do
      let (anchor, written) ← properties
      let tag ← match written with
        | some written => tagOf written
        | none => pure none
      let next ← peek
      let number ← match anchor with
        | some name => some <$> announce name
        | none => pure none
      let found ← content fuel block indentless (anchor.isSome || written.isSome) tag next
      if let some number := number then
        modify fun s => { s with anchored := (number, found) :: s.anchored }
      return found

/-- A node after its anchor and its tag. With one of them it may be empty. -/
def content : Nat → Bool → Bool → Bool → Option String → Token → Reading Node
  | 0, _, _, _, _, _ => failure
  | fuel + 1, block, indentless, mayBeEmpty, tag, next =>
    match next with
    | .scalar plain text => do
      skip
      return .scalar tag plain text
    | .flowSequence => do
      skip
      return .sequence (← flowItems fuel true)
    | .flowMapping => do
      skip
      return .mapping (← flowEntries fuel true)
    | .blockEntry =>
      if indentless then do return .sequence (← indentlessItems fuel)
      else if mayBeEmpty then return .scalar tag true ""
      else failure
    | .blockSequence =>
      if block then do
        skip
        return .sequence (← blockItems fuel)
      else if mayBeEmpty then return .scalar tag true ""
      else failure
    | .blockMapping =>
      if block then do
        skip
        return .mapping (← blockEntries fuel)
      else if mayBeEmpty then return .scalar tag true ""
      else failure
    | _ => if mayBeEmpty then return .scalar tag true "" else failure

/-- The items of a sequence in a block of its own. -/
def blockItems : Nat → Reading (List Node)
  | 0 => failure
  | fuel + 1 => do
    match ← peek with
    | .blockEntry => do
      let item ← match ← skipPeek with
        | .blockEntry | .blockEnd => pure Node.empty
        | _ => node fuel true false
      return item :: (← blockItems fuel)
    | .blockEnd => do
      skip
      return []
    | _ => failure

/-- The items of a sequence that stands no deeper than the key it belongs to. -/
def indentlessItems : Nat → Reading (List Node)
  | 0 => failure
  | fuel + 1 => do
    match ← peek with
    | .blockEntry => do
      let item ← match ← skipPeek with
        | .blockEntry | .key | .value | .blockEnd => pure Node.empty
        | _ => node fuel true false
      return item :: (← indentlessItems fuel)
    | _ => return []

/-- The entries of a mapping in a block. -/
def blockEntries : Nat → Reading (List (Node × Node))
  | 0 => failure
  | fuel + 1 => do
    match ← peek with
    | .key => do
      let key ← match ← skipPeek with
        | .key | .value | .blockEnd => pure Node.empty
        | _ => node fuel true true
      let value ← match ← peek with
        | .value => do
          match ← skipPeek with
          | .key | .value | .blockEnd => pure Node.empty
          | _ => node fuel true true
        | _ => pure Node.empty
      return (key, value) :: (← blockEntries fuel)
    | .blockEnd => do
      skip
      return []
    | _ => failure

/-- The items of a sequence in brackets. -/
def flowItems : Nat → Bool → Reading (List Node)
  | 0, _ => failure
  | fuel + 1, first => do
    match ← peek with
    | .flowSequenceEnd => do
      skip
      return []
    | .flowEntry => do
      if first then failure
      match ← skipPeek with
      | .flowSequenceEnd => do
        skip
        return []
      | next => flowItem fuel next
    | next => if first then flowItem fuel next else failure

/-- An item of a sequence in brackets, and those after it. A pair is a mapping of its own. -/
def flowItem : Nat → Token → Reading (List Node)
  | 0, _ => failure
  | fuel + 1, .key => do
    let key ← match ← skipPeek with
      | .value | .flowEntry | .flowSequenceEnd => do
        skip
        pure Node.empty
      | _ => node fuel false false
    let value ← match ← peek with
      | .value => do
        match ← skipPeek with
        | .flowEntry | .flowSequenceEnd => pure Node.empty
        | _ => node fuel false false
      | _ => pure Node.empty
    return .mapping [(key, value)] :: (← flowItems fuel false)
  | fuel + 1, _ => do
    let item ← node fuel false false
    return item :: (← flowItems fuel false)

/-- The entries of a mapping in braces. -/
def flowEntries : Nat → Bool → Reading (List (Node × Node))
  | 0, _ => failure
  | fuel + 1, first => do
    match ← peek with
    | .flowMappingEnd => do
      skip
      return []
    | .flowEntry => do
      if first then failure
      match ← skipPeek with
      | .flowMappingEnd => do
        skip
        return []
      | next => flowPair fuel next
    | next => if first then flowPair fuel next else failure

/-- An entry of a mapping in braces, and those after it. What is no key has no value. -/
def flowPair : Nat → Token → Reading (List (Node × Node))
  | 0, _ => failure
  | fuel + 1, .key => do
    let key ← match ← skipPeek with
      | .value | .flowEntry | .flowMappingEnd => pure Node.empty
      | _ => node fuel false false
    let value ← match ← peek with
      | .value => do
        match ← skipPeek with
        | .flowEntry | .flowMappingEnd => pure Node.empty
        | _ => node fuel false false
      | _ => pure Node.empty
    return (key, value) :: (← flowEntries fuel false)
  | fuel + 1, _ => do
    let key ← node fuel false false
    return (key, Node.empty) :: (← flowEntries fuel false)

end

/-! ## Documents -/

/-- The directives at the head of a document. The version and each handle may be given once. -/
def directives : Nat → Bool → Reading Unit
  | 0, _ => failure
  | fuel + 1, versioned => do
    match ← peek with
    | .directive (.version known) => do
      if versioned || !known then failure
      skip
      directives fuel true
    | .directive (.tag handle meaning) => do
      if ((← get).handles.lookup handle).isSome then failure
      modify fun s => { s with handles := (handle, meaning) :: s.handles }
      skip
      directives fuel versioned
    | _ => return ()

/-- What follows the mark that starts a document. -/
def documentContent (fuel : Nat) : Reading Node := do
  match ← peek with
  | .directive _ | .documentStart | .documentEnd | .streamEnd => return Node.empty
  | _ => node fuel true false

/-- The first document of a stream, if it has one. Without directives the mark that starts it
may be left out. -/
def document (fuel : Nat) : Reading (Option Node) := do
  let useDefaults : Reading Unit :=
    modify fun s => { s with handles := s.handles ++ defaultHandles }
  match ← peek with
  | .streamEnd => return none
  | .directive _ | .documentStart => do
    directives fuel false
    useDefaults
    match ← peek with
    | .documentStart => do
      skip
      let root ← documentContent fuel
      let _ ← peek
      return some root
    | _ => failure
  | _ => do
    useDefaults
    let root ← node fuel true false
    let _ ← peek
    return some root

end Reading

/-- Read the first document of the bytes of a stream. -/
def read? (bytes : List UInt8) : Option Document := do
  let tokens := Tokens.ofCharacters (← characters? bytes)
  let size := tokens.list.length + 1
  let (root, s) ← (Reading.document (4 * size + 4)).run
    { tokens := tokens.list, complete := tokens.complete }
  return { root, anchored := s.anchored, size }

end Yaml

end EcmaStack
