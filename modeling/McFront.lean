import McFront.Analysis.Analyzer
import McFront.Analysis.Production
import McFront.Breach
import McFront.Command.Arguments
import McFront.Command.Task
import McFront.Compile
import McFront.CompileError
import McFront.Complaint
import McFront.Diagnostic
import McFront.Grammar.Declarations
import McFront.Grammar.Expressions
import McFront.Grammar.Parser
import McFront.Grammar.Statements
import McFront.Interner
import McFront.Lexicon.Escape
import McFront.Lexicon.Keyword
import McFront.Lexicon.Operator
import McFront.Lexicon.Punctuation
import McFront.Lexicon.Radix
import McFront.Lexicon.Scalar
import McFront.Main
import McFront.Number.Binary64
import McFront.Number.Decimal
import McFront.Number.Shortest
import McFront.Proofs.Analysis.Declaring
import McFront.Proofs.Analysis.Gains
import McFront.Proofs.Analysis.Invariant
import McFront.Proofs.Analysis.Structure
import McFront.Proofs.Lexing.Calls
import McFront.Proofs.Lexing.Complaints
import McFront.Proofs.Lexing.Continuation
import McFront.Proofs.Lexing.Drawing
import McFront.Proofs.Lexing.Extent
import McFront.Proofs.Lexing.Integers
import McFront.Proofs.Lexing.Lines
import McFront.Proofs.Lexing.Listing
import McFront.Proofs.Lexing.Munch
import McFront.Proofs.Lexing.Outlook
import McFront.Proofs.Lexing.Placement
import McFront.Proofs.Lexing.Printing
import McFront.Proofs.Lexing.Symbols
import McFront.Proofs.Lexing.Vocabulary
import McFront.Proofs.Number.Numeral
import McFront.Proofs.Number.Rounding
import McFront.Proofs.Number.Shortest
import McFront.Proofs.Parsing.Achieves
import McFront.Proofs.Parsing.Branching
import McFront.Proofs.Parsing.Budget
import McFront.Proofs.Parsing.Buffer
import McFront.Proofs.Parsing.Climbing
import McFront.Proofs.Parsing.CompileRun
import McFront.Proofs.Parsing.DeclarationGiven
import McFront.Proofs.Parsing.DeclarationRun
import McFront.Proofs.Parsing.Endings
import McFront.Proofs.Parsing.Ensures
import McFront.Proofs.Parsing.ExpressionGiven
import McFront.Proofs.Parsing.ExpressionRun
import McFront.Proofs.Parsing.Frame
import McFront.Proofs.Parsing.Ladder
import McFront.Proofs.Parsing.Longer
import McFront.Proofs.Parsing.Nesting
import McFront.Proofs.Parsing.Reading
import McFront.Proofs.Parsing.Release
import McFront.Proofs.Parsing.Sentence
import McFront.Proofs.Parsing.SentenceGiven
import McFront.Proofs.Parsing.SentenceRun
import McFront.Proofs.Parsing.Spelling
import McFront.Proofs.Parsing.Stance
import McFront.Proofs.Parsing.Sweeping
import McFront.Proofs.Parsing.Telling
import McFront.Proofs.Parsing.TypePhrases
import McFront.Proofs.Parsing.Unlimited
import McFront.Proofs.Parsing.Yield
import McFront.Proofs.Relocation.Alike
import McFront.Proofs.Relocation.CompileInStep
import McFront.Proofs.Relocation.InStep
import McFront.Proofs.Relocation.Layout
import McFront.Proofs.Relocation.Names
import McFront.Proofs.Relocation.Phrases
import McFront.Proofs.Relocation.Pulling
import McFront.Proofs.Relocation.Renaming
import McFront.Proofs.Relocation.Respelling
import McFront.Proofs.Relocation.Rules
import McFront.Proofs.Relocation.Sentences
import McFront.Proofs.Relocation.SinglePass
import McFront.Proofs.Relocation.Steps
import McFront.Proofs.Scoping.History
import McFront.Proofs.Scoping.Law
import McFront.Proofs.Scoping.Owned
import McFront.Proofs.Scoping.Resolution
import McFront.Proofs.Text.Label
import McFront.Proofs.Text.LineEnd
import McFront.Proofs.Text.Offset
import McFront.Proofs.Text.Order
import McFront.Proofs.Text.Run
import McFront.Proofs.Totality
import McFront.Proofs.Tree.Dump
import McFront.Proofs.Tree.DumpLines
import McFront.Proofs.Tree.DumpTrees
import McFront.Proofs.Tree.Height
import McFront.Proofs.Tree.Leaves
import McFront.Proofs.Tree.Nodes
import McFront.Proofs.Tree.Outlines
import McFront.Proofs.Tree.TypeText
import McFront.Proofs.Typing.Acceptance
import McFront.Proofs.Typing.Conversions
import McFront.Proofs.Typing.Heights
import McFront.Proofs.Typing.Keeping
import McFront.Proofs.Typing.Mismatches
import McFront.Proofs.Typing.Operands
import McFront.Proofs.Typing.Places
import McFront.Proofs.Typing.Rules
import McFront.Proofs.Typing.WellTyped
import McFront.Scope
import McFront.Text.Invisible
import McFront.Text.Location
import McFront.Text.Quoted
import McFront.Text.Source
import McFront.Token.Attribute
import McFront.Token.Basic
import McFront.Token.Display
import McFront.Token.Lexeme
import McFront.Token.Stream
import McFront.Tree.Basic
import McFront.Tree.Definition
import McFront.Tree.Operation
import McFront.Tree.Outline
import McFront.Ty
import McFront.Typing.Conversion
import McFront.Typing.Operand
import McFront.Typing.Rule
