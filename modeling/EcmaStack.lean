import EcmaStack.Bytecode.Assembly
import EcmaStack.Bytecode.Buffer
import EcmaStack.Bytecode.Decode
import EcmaStack.Bytecode.Instruction
import EcmaStack.Bytecode.Listing
import EcmaStack.Bytecode.Opcode
import EcmaStack.Closure.Free
import EcmaStack.Closure.Resolve
import EcmaStack.Command.Flags
import EcmaStack.Command.Product
import EcmaStack.Command.Run
import EcmaStack.Command.Selection
import EcmaStack.Document.Json
import EcmaStack.Document.Toml
import EcmaStack.Document.TomlText
import EcmaStack.Document.Yaml
import EcmaStack.Document.Yaml.Node
import EcmaStack.Document.Yaml.Place
import EcmaStack.Document.Yaml.Text
import EcmaStack.Document.Yaml.Token
import EcmaStack.Document.YamlMeaning
import EcmaStack.Emission.Pieces
import EcmaStack.Emission.Tree
import EcmaStack.Emission.Writer
import EcmaStack.Files.System
import EcmaStack.Files.Tree
import EcmaStack.Grammar.Class
import EcmaStack.Grammar.Fault
import EcmaStack.Grammar.Function
import EcmaStack.Grammar.Module
import EcmaStack.Grammar.Names
import EcmaStack.Grammar.Operators
import EcmaStack.Grammar.Parse
import EcmaStack.Grammar.Pattern
import EcmaStack.Grammar.Primary
import EcmaStack.Grammar.Program
import EcmaStack.Grammar.RegExp
import EcmaStack.Grammar.RegExp.Class
import EcmaStack.Grammar.RegExp.Escape
import EcmaStack.Grammar.RegExp.Fault
import EcmaStack.Grammar.RegExp.Scan
import EcmaStack.Grammar.Statement
import EcmaStack.Lowering.Access
import EcmaStack.Lowering.CodeSite
import EcmaStack.Lowering.Program
import EcmaStack.Lowering.Shape
import EcmaStack.Lowering.Tree
import EcmaStack.Main
import EcmaStack.Number.Binary64
import EcmaStack.Number.Layout
import EcmaStack.Number.Literal
import EcmaStack.Printer.Layout
import EcmaStack.Printer.Source
import EcmaStack.Proofs.Binding.Machine
import EcmaStack.Proofs.Binding.Meaning
import EcmaStack.Proofs.Binding.Patterns
import EcmaStack.Proofs.Bytecode.Chains
import EcmaStack.Proofs.Bytecode.Faithful
import EcmaStack.Proofs.Bytecode.Histories
import EcmaStack.Proofs.Closure.Agrees
import EcmaStack.Proofs.Closure.Exact
import EcmaStack.Proofs.Closure.Recomputed
import EcmaStack.Proofs.Closure.References
import EcmaStack.Proofs.Closure.Refill
import EcmaStack.Proofs.Control.Agreement
import EcmaStack.Proofs.Control.Course
import EcmaStack.Proofs.Control.Fragments
import EcmaStack.Proofs.Control.Machine
import EcmaStack.Proofs.Control.Meaning
import EcmaStack.Proofs.Control.Realized
import EcmaStack.Proofs.Control.Statements
import EcmaStack.Proofs.Control.Switch
import EcmaStack.Proofs.Emission.Blocks
import EcmaStack.Proofs.Emission.Classes
import EcmaStack.Proofs.Emission.Expressions
import EcmaStack.Proofs.Emission.Growth
import EcmaStack.Proofs.Emission.Members
import EcmaStack.Proofs.Emission.Resolved
import EcmaStack.Proofs.Emission.Statements
import EcmaStack.Proofs.Emission.Switches
import EcmaStack.Proofs.Evaluation.Expressions
import EcmaStack.Proofs.Evaluation.Fragments
import EcmaStack.Proofs.Evaluation.Machine
import EcmaStack.Proofs.Evaluation.Meaning
import EcmaStack.Proofs.Evaluation.Values
import EcmaStack.Proofs.Grammar.Confined
import EcmaStack.Proofs.Grammar.Expressions
import EcmaStack.Proofs.Grammar.Functions
import EcmaStack.Proofs.Grammar.Keeps
import EcmaStack.Proofs.Grammar.Looks
import EcmaStack.Proofs.Grammar.Patterns
import EcmaStack.Proofs.Grammar.Speculation
import EcmaStack.Proofs.Grammar.Statements
import EcmaStack.Proofs.Grammar.Yields
import EcmaStack.Proofs.Grouping.Expressions
import EcmaStack.Proofs.Grouping.Functions
import EcmaStack.Proofs.Grouping.Laws
import EcmaStack.Proofs.Grouping.Operators
import EcmaStack.Proofs.Grouping.Patterns
import EcmaStack.Proofs.Grouping.Statements
import EcmaStack.Proofs.InPlace.Expressions
import EcmaStack.Proofs.InPlace.Functions
import EcmaStack.Proofs.InPlace.Laws
import EcmaStack.Proofs.InPlace.Parser
import EcmaStack.Proofs.InPlace.Patterns
import EcmaStack.Proofs.InPlace.Program
import EcmaStack.Proofs.InPlace.Statements
import EcmaStack.Proofs.Layout.Classes
import EcmaStack.Proofs.Layout.Expressions
import EcmaStack.Proofs.Layout.Functions
import EcmaStack.Proofs.Layout.Laws
import EcmaStack.Proofs.Layout.Passage
import EcmaStack.Proofs.Layout.Patterns
import EcmaStack.Proofs.Layout.Program
import EcmaStack.Proofs.Layout.Statements
import EcmaStack.Proofs.Likeness.Classes
import EcmaStack.Proofs.Likeness.Expressions
import EcmaStack.Proofs.Likeness.Initializers
import EcmaStack.Proofs.Likeness.Laws
import EcmaStack.Proofs.Likeness.Sources
import EcmaStack.Proofs.Likeness.Statements
import EcmaStack.Proofs.Likeness.Tree
import EcmaStack.Proofs.Likeness.Trimmed
import EcmaStack.Proofs.Lowering.Branches
import EcmaStack.Proofs.Lowering.Classes
import EcmaStack.Proofs.Lowering.Expressions
import EcmaStack.Proofs.Lowering.Members
import EcmaStack.Proofs.Lowering.Pieces
import EcmaStack.Proofs.Lowering.Program
import EcmaStack.Proofs.Lowering.Sound
import EcmaStack.Proofs.Lowering.Statements
import EcmaStack.Proofs.Machine.Consistent
import EcmaStack.Proofs.Machine.Fragment
import EcmaStack.Proofs.Machine.Frames
import EcmaStack.Proofs.Machine.Jumps
import EcmaStack.Proofs.Machine.Moves
import EcmaStack.Proofs.Machine.Runs
import EcmaStack.Proofs.Progress.Expressions
import EcmaStack.Proofs.Progress.Laws
import EcmaStack.Proofs.Progress.Reads
import EcmaStack.Proofs.Progress.Total
import EcmaStack.Proofs.Readback.Assignments
import EcmaStack.Proofs.Readback.Expressions
import EcmaStack.Proofs.Readback.Formula
import EcmaStack.Proofs.Readback.Laws
import EcmaStack.Proofs.Readback.Numerals
import EcmaStack.Proofs.Readback.Openings
import EcmaStack.Proofs.Readback.Printed
import EcmaStack.Proofs.Readback.Roundtrip
import EcmaStack.Proofs.Readback.Scanning
import EcmaStack.Proofs.Scope.Gains
import EcmaStack.Proofs.Scope.Growth
import EcmaStack.Proofs.Scope.Histories
import EcmaStack.Proofs.Scope.Homes
import EcmaStack.Proofs.Scope.InPlace
import EcmaStack.Proofs.Source.Positions
import EcmaStack.Proofs.Text.Decoding
import EcmaStack.Proofs.Text.Encoded
import EcmaStack.Proofs.Token.CodeUnits
import EcmaStack.Proofs.Token.InPlace
import EcmaStack.Proofs.Token.Names
import EcmaStack.Proofs.Token.NumericGrammar
import EcmaStack.Proofs.Token.NumericLiteral
import EcmaStack.Proofs.Token.Progress
import EcmaStack.Proofs.Token.Reading
import EcmaStack.Proofs.Token.RegExpLiteral
import EcmaStack.Proofs.Token.StringLiteral
import EcmaStack.Proofs.Token.TemplateLiteral
import EcmaStack.Proofs.Token.Tiling
import EcmaStack.Proofs.Token.Unescaping
import EcmaStack.Proofs.Tree.Described
import EcmaStack.Proofs.Tree.Formed
import EcmaStack.Proofs.Tree.Grammatical
import EcmaStack.Proofs.Tree.Induction
import EcmaStack.Proofs.Tree.Resolved
import EcmaStack.Scope.Basic
import EcmaStack.Scope.Table
import EcmaStack.Settings.Basic
import EcmaStack.Settings.Load
import EcmaStack.Settings.Notation
import EcmaStack.Source.File
import EcmaStack.Text.CharClass
import EcmaStack.Text.CharRanges
import EcmaStack.Text.Encoding
import EcmaStack.Text.Piece
import EcmaStack.Text.Quoted
import EcmaStack.Token.Basic
import EcmaStack.Token.Escape
import EcmaStack.Token.Identifier
import EcmaStack.Token.Kind
import EcmaStack.Token.Number
import EcmaStack.Token.Quotation
import EcmaStack.Token.RegExp
import EcmaStack.Token.Scan
import EcmaStack.Token.Trivia
import EcmaStack.Tree.Basic
import EcmaStack.Tree.Description
import EcmaStack.Tree.Node
