import ScriptFront.Error
import ScriptFront.Value
import ScriptFront.Double.Read
import ScriptFront.Token.Lexer
import ScriptFront.Script.Modes
import ScriptFront.Parsing.Parser
import ScriptFront.Script.Grammar.Leaf
import ScriptFront.Script.Grammar.Expression
import ScriptFront.Script.Parse
import ScriptFront.Eval.Evaluate
import ScriptFront.Script.Walk
import ScriptFront.Proofs.Tiling
import ScriptFront.Proofs.Forward
import ScriptFront.Proofs.Grammar.Forward
import ScriptFront.Proofs.Grammar.Progress
import ScriptFront.Proofs.Landing
import ScriptFront.Proofs.Spans.Extent
import ScriptFront.Proofs.Everywhere
import ScriptFront.Proofs.Lexed
import ScriptFront.Proofs.Spans.Laid
import ScriptFront.Proofs.Spans.Expressions
import ScriptFront.Proofs.Spans.Callables
import ScriptFront.Proofs.Spans.Statements
import ScriptFront.Proofs.Spans.Program
import ScriptFront.Proofs.Erase
import ScriptFront.Proofs.Piece
import ScriptFront.Proofs.Reading
import ScriptFront.Proofs.RoundTrip.Written
import ScriptFront.Proofs.RoundTrip.Spelling
import ScriptFront.Proofs.RoundTrip.Parsing
import ScriptFront.Proofs.RoundTrip.Layers
import ScriptFront.Proofs.RoundTrip.Readable
import ScriptFront.Proofs.RoundTrip.Program
import ScriptFront.Proofs.Nesting
import ScriptFront.Proofs.Shape
import ScriptFront.Proofs.Derivation.Basic
import ScriptFront.Proofs.Derivation.Yields
import ScriptFront.Proofs.Derivation.Steps
import ScriptFront.Proofs.Derivation.Leaves
import ScriptFront.Proofs.Derivation.Callables
import ScriptFront.Proofs.Derivation.Expressions
import ScriptFront.Proofs.Derivation.Statements
import ScriptFront.Proofs.Derivation.Whole
import ScriptFront.Proofs.WellFormed
import ScriptFront.Proofs.SourceType
import ScriptFront.Proofs.Scanned
import ScriptFront.Proofs.Delimiters
import ScriptFront.Proofs.Fidelity
import ScriptFront.Proofs.Lockstep.Basic
import ScriptFront.Proofs.Session
import ScriptFront.Proofs.Lockstep.Callables
import ScriptFront.Proofs.Lockstep.Expressions
import ScriptFront.Proofs.Lockstep.Statements
import ScriptFront.Proofs.Lockstep.Whole
import ScriptFront.Proofs.Anchoring
import ScriptFront.Proofs.Arrows
import ScriptFront.Proofs.Composition.Lexing
import ScriptFront.Proofs.Composition.Program
import ScriptFront.Proofs.Layout
import ScriptFront.Proofs.Evaluation
import ScriptFront.Proofs.Scopes
import ScriptFront.Proofs.Composition.Interpolation
import ScriptFront.Proofs.Template.Reading
import ScriptFront.Proofs.Template.Order
import ScriptFront.Proofs.Quoting
import ScriptFront.Proofs.Munch
import ScriptFront.Proofs.Unterminated
import ScriptFront.Proofs.Refusals
import ScriptFront.Proofs.Parting.Stops
import ScriptFront.Proofs.Parting.Ends
import ScriptFront.Proofs.Parting.Neighbours
import ScriptFront.Proofs.Parting.Inside
import ScriptFront.Proofs.Parting.Nested
import ScriptFront.Proofs.Parting.Statements
import ScriptFront.Proofs.Parting.Program
import ScriptFront.Proofs.Header.Sheltered
import ScriptFront.Proofs.Header.Persists
import ScriptFront.Proofs.Header.Expressions
import ScriptFront.Proofs.Header.Statements
import ScriptFront.Proofs.Header.Copy
import ScriptFront.Proofs.Header.Lexing
import ScriptFront.Proofs.Header.Loop
import ScriptFront.Proofs.Header.Program
import ScriptFront.Proofs.Comments
import ScriptFront.Proofs.Switch.Machine
import ScriptFront.Proofs.Switch.Callables
import ScriptFront.Proofs.Switch.Expressions
import ScriptFront.Proofs.Switch.Statements
import ScriptFront.Proofs.Switch.Requests
import ScriptFront.Proofs.Variants
import ScriptFront.Proofs.Sums
import ScriptFront.Proofs.Framing
import ScriptFront.Proofs.Escapes
