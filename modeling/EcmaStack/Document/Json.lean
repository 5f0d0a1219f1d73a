import EcmaStack.Number.Binary64
import EcmaStack.Number.Layout
import EcmaStack.Text.Piece
import EcmaStack.Text.Quoted

/-!
# Data documents

The values a document is made of, whatever notation it is written in: nothing, truth values,
whole numbers, numbers, texts, texts with bytes that are no characters, lists, and records with
named fields.
-/

namespace EcmaStack

/-- A value of a data document. -/
inductive Datum where
  | null
  | bool (b : Bool)
  | int (i : Int)
  | number (x : Binary64)
  | text (s : String)
  | illFormed (t : Text)
  | list (items : List Datum)
  | record (fields : List (String × Datum))
  deriving Inhabited

namespace Datum

/-- The value of a field; nothing where there is none. -/
def get (d : Datum) (key : String) : Datum :=
  match d with
  | .record fields => (fields.lookup key).getD .null
  | _ => .null

/-- A text; the empty text for anything else. -/
def asText : Datum → String
  | .text s => s
  | _ => ""

/-- A truth value; false for anything else. -/
def asBool : Datum → Bool
  | .bool b => b
  | _ => false

/-- A whole number; zero for anything else. -/
def asInt : Datum → Int
  | .int i => i
  | _ => 0

/-- The items of a list; none for anything else. -/
def asList : Datum → List Datum
  | .list items => items
  | _ => []

/-- Whether there is a value at all. -/
def isNull : Datum → Bool
  | .null => true
  | _ => false

/-- A text as data; one that holds stray bytes keeps them. -/
def ofText (t : Text) : Datum :=
  match t.toString? with
  | some s => .text s
  | none => .illFormed t

/-- Texts as a list. -/
def texts (ss : List String) : Datum :=
  .list (ss.map .text)

end Datum

end EcmaStack

/-!
## JSON documents

A value as a JSON document: the fields of a record in order of their names, one item or field on
a line, two spaces for each level. A number that is no number, or infinite, has no form in this
notation.
-/

namespace EcmaStack

/-- Why a value has no JSON form. -/
structure JsonFault where
  number : Binary64

/-- The wording of a fault. -/
def JsonFault.message (f : JsonFault) : String :=
  "json: unsupported value: " ++ NumberLayout.json.write f.number

/-- One character of a JSON string. What could end a string, or be mistaken for markup or a line
end around the document, is escaped. -/
def jsonChar (c : Char) : List Char :=
  match c with
  | '\x22' => ['\\', '\x22']
  | '\\' => ['\\', '\\']
  | '\x08' => ['\\', 'b']
  | '\x0c' => ['\\', 'f']
  | '\n' => ['\\', 'n']
  | '\r' => ['\\', 'r']
  | '\t' => ['\\', 't']
  | c =>
    if c.toNat < 0x20 || c == '<' || c == '>' || c == '&' || c == '\u2028' || c == '\u2029' then
      '\\' :: 'u' :: Text.hexDigits 4 c.toNat
    else [c]

/-- A JSON string. -/
def jsonString (s : String) : String :=
  String.ofList ('\x22' :: s.toList.flatMap jsonChar ++ ['\x22'])

/-- A JSON string of a text that is not well formed: each byte that is no character is escaped
as the character that stands for it. -/
def jsonIllFormed (t : Text) : String :=
  let piece : Piece → List Char
    | .char c => jsonChar c
    | .stray _ => '\\' :: 'u' :: Text.hexDigits 4 replacement.toNat
  String.ofList ('\x22' :: t.flatMap piece ++ ['\x22'])

/-- Fields in order of their names. -/
def sortedFields {α : Type} (fields : List (String × α)) : List (String × α) :=
  fields.mergeSort fun a b => decide (a.1 ≤ b.1)

/-- The start of a line at a depth. -/
def jsonLine (depth : Nat) : String :=
  "\n" ++ String.ofList (List.replicate (2 * depth) ' ')

/-- Items between brackets, each on a line of its own. -/
def jsonGroup (opening closing : String) (depth : Nat) (items : List String) : String :=
  if items.isEmpty then opening ++ closing
  else opening ++ ",".intercalate (items.map (jsonLine (depth + 1) ++
    ·)) ++ jsonLine depth ++ closing

mutual

/-- A value at a depth of nesting. -/
def Datum.json (depth : Nat) : Datum → Except JsonFault String
  | .null => .ok "null"
  | .bool b => .ok (if b then "true" else "false")
  | .int i => .ok (toString i)
  | .number x => if x.isNaN || x.isInfinite then .error ⟨x⟩ else .ok (NumberLayout.json.write x)
  | .text s => .ok (jsonString s)
  | .illFormed t => .ok (jsonIllFormed t)
  | .list items => do return jsonGroup "[" "]" depth (← Datum.jsonItems (depth + 1) items)
  | .record fields => do
    let texts ← (sortedFields (Datum.jsonFields (depth + 1) fields)).mapM fun (key, written) => do
      return jsonString key ++ ": " ++ (← written)
    return jsonGroup "\x7b" "\x7d" depth texts

/-- The items of a list. -/
def Datum.jsonItems (depth : Nat) : List Datum → Except JsonFault (List String)
  | [] => .ok []
  | d :: rest => do
    let text ← d.json depth
    return text :: (← Datum.jsonItems depth rest)

/-- The values of fields under their names. -/
def Datum.jsonFields (depth : Nat) : List (String × Datum) → List (String × Except JsonFault String)
  | [] => []
  | (key, d) :: rest => (key, d.json depth) :: Datum.jsonFields depth rest

end

/-- A JSON document. -/
def Datum.toJson (d : Datum) : Except JsonFault String := do
  return (← d.json 0) ++ "\n"

end EcmaStack
