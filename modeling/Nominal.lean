import Nominal.Source.Position
import Nominal.Source.Cursor
import Nominal.Source.Line
import Nominal.Text.Blank
import Nominal.Text.Unprintable
import Nominal.Text.Extender
import Nominal.Text.Ignorable
import Nominal.Text.Quoted
import Nominal.Text.Integer
import Nominal.Table
import Nominal.Diagnostic.Cause
import Nominal.Diagnostic.Basic
import Nominal.Diagnostic.Excerpt
import Nominal.Token.Kind
import Nominal.Token.Basic
import Nominal.Token.Lexeme
import Nominal.Token.Scan
import Nominal.Token.Stream
import Nominal.Syntax.Tree
import Nominal.Syntax.Grammar
import Nominal.Syntax.Parse
import Nominal.Syntax.Rules
import Nominal.Syntax.Program
import Nominal.Syntax.Reader
import Nominal.Mode
import Nominal.DeclId
import Nominal.Ty.Basic
import Nominal.Ty.Signature
import Nominal.Ty.Classes
import Nominal.Registry
import Nominal.Scope.Frame
import Nominal.Scope.Chain
import Nominal.Scope.Tree
import Nominal.Typed.Tree
import Nominal.Typing.Context
import Nominal.Typing.Types
import Nominal.Typing.Declarations
import Nominal.Typing.Expressions
import Nominal.Typing.Statements
import Nominal.Typing.Check
import Nominal.Session
import Nominal.Text.Outline
import Nominal.Typed.Outline
import Nominal.Main
import Nominal.Proofs.Registry
import Nominal.Proofs.Typing.Ends
import Nominal.Proofs.Typing.Declared
import Nominal.Proofs.Typing.Records
import Nominal.Proofs.Typing.Keeps
import Nominal.Proofs.Typing.Bookkeeping
import Nominal.Proofs.Session.Reachable
import Nominal.Proofs.Scope.Frame
import Nominal.Proofs.Session.Atomicity
import Nominal.Proofs.Typing.FrameEffect
import Nominal.Proofs.Session.RootFrame
import Nominal.Proofs.Typing.Sound
import Nominal.Proofs.Typing.Typed
import Nominal.Proofs.Typing.Soundness.Expressions
import Nominal.Proofs.Typing.Soundness.Statements
import Nominal.Proofs.Typing.Soundness.Classes
import Nominal.Proofs.Typing.Soundness.Trees
import Nominal.Proofs.Typing.Mentioned
import Nominal.Proofs.Session.Accepted
import Nominal.Proofs.Token.Lexed
import Nominal.Proofs.Text.Decimal
import Nominal.Proofs.Syntax.Spelling
import Nominal.Proofs.Syntax.Precedence
import Nominal.Proofs.Syntax.Gives
import Nominal.Proofs.Syntax.Sound
import Nominal.Proofs.Syntax.Parsed
import Nominal.Proofs.Ty.Reading
import Nominal.Proofs.Syntax.Tidy
import Nominal.Proofs.Typing.Names
import Nominal.Proofs.Typing.Uniform
import Nominal.Proofs.Typing.Blind
import Nominal.Proofs.Typing.Retained
import Nominal.Proofs.Typing.Log
import Nominal.Proofs.Typing.Uses
import Nominal.Proofs.Session.Dangling
import Nominal.Proofs.Scope.Contained
import Nominal.Proofs.Typing.Confined.Basic
import Nominal.Proofs.Typing.Confined.Expressions
import Nominal.Proofs.Typing.Confined.Statements
import Nominal.Proofs.Typing.Confined.Classes
import Nominal.Proofs.Typing.Confined.Trees
import Nominal.Proofs.Typing.Points
import Nominal.Proofs.Typing.Coherent
import Nominal.Proofs.Session.Coherent
import Nominal.Proofs.Registry.History
import Nominal.Proofs.Source.Place
import Nominal.Proofs.Token.Lossless
import Nominal.Proofs.Syntax.Bare
import Nominal.Proofs.Syntax.Legible
import Nominal.Proofs.Syntax.Nesting
import Nominal.Proofs.Syntax.Printed
import Nominal.Proofs.Syntax.Succeeds
import Nominal.Proofs.Syntax.Complete.Expressions
import Nominal.Proofs.Syntax.Complete.Statements
import Nominal.Proofs.Syntax.RoundTrip
import Nominal.Proofs.Renaming.Types
import Nominal.Proofs.Renaming.Scopes
import Nominal.Proofs.Renaming.Trees
import Nominal.Proofs.Renaming.Checks
import Nominal.Proofs.Renaming.Expressions
import Nominal.Proofs.Renaming.Statements
import Nominal.Proofs.Renaming.Programs
import Nominal.Proofs.Session.Unaffected
import Nominal.Proofs.Ty.Assignable
import Nominal.Proofs.Typing.Runs
import Nominal.Proofs.Session.FunctionValues
import Nominal.Proofs.Typing.Returns.Basic
import Nominal.Proofs.Typing.Returns.Expressions
import Nominal.Proofs.Typing.Returns.Statements
import Nominal.Proofs.Typing.Returns.Trees
import Nominal.Proofs.Session.Returns
import Nominal.Proofs.Typing.Classes.Accepted
import Nominal.Proofs.Typing.Classes.Members
import Nominal.Proofs.Typing.Classes.Formed
import Nominal.Proofs.Session.Classes
import Nominal.Proofs.Syntax.ReadBack
import Nominal.Proofs.Syntax.Prefix.Fork
import Nominal.Proofs.Syntax.Prefix.Reread
import Nominal.Proofs.Syntax.Prefix.Stuck
import Nominal.Proofs.Syntax.Prefix.Expressions
import Nominal.Proofs.Syntax.Prefix.Statements
import Nominal.Proofs.Syntax.CorrectPrefix
import Nominal.Proofs.Syntax.Room
import Nominal.Proofs.Syntax.Fits
import Nominal.Proofs.Typing.Levels.Basic
import Nominal.Proofs.Typing.Levels.Expressions
import Nominal.Proofs.Typing.Levels.Statements
import Nominal.Proofs.Typing.Levels.Trees
import Nominal.Proofs.Session.Limit
import Nominal.Proofs.Syntax.Layout
import Nominal.Proofs.Syntax.Spans
import Nominal.Proofs.Scope.Tree
import Nominal.Proofs.Syntax.Stretches
import Nominal.Proofs.Typing.Mirrors.Relation
import Nominal.Proofs.Typing.Mirrors.Rendering
import Nominal.Proofs.Typing.Mirrors.Expressions
import Nominal.Proofs.Typing.Mirrors.Statements
import Nominal.Proofs.Typing.Mirrors.Trees
import Nominal.Proofs.Session.Outcomes
import Nominal.Proofs.Typing.Numbered
import Nominal.Proofs.Typing.Overloads
import Nominal.Proofs.Session.Calls
import Nominal.Proofs.Scope.Subsumption
import Nominal.Proofs.Ty.Values
import Nominal.Proofs.Typing.Values.Basic
import Nominal.Proofs.Typing.Values.Checks
import Nominal.Proofs.Typing.Values.Expressions
import Nominal.Proofs.Typing.Values.Statements
import Nominal.Proofs.Typing.Values.Trees
import Nominal.Proofs.Session.WrongTypes
import Nominal.Proofs.Typing.Always
import Nominal.Proofs.Token.Steps
import Nominal.Proofs.Syntax.Cut
import Nominal.Proofs.Typing.Annotations
import Nominal.Proofs.Token.Literal
import Nominal.Proofs.Token.Boundary
import Nominal.Proofs.Token.Marks
import Nominal.Proofs.Token.Joined
import Nominal.Proofs.Token.Respaced
import Nominal.Proofs.Syntax.Walks
import Nominal.Proofs.Source.Lines
import Nominal.Proofs.Diagnostic.Excerpt
import Nominal.Proofs.Diagnostic.Rendered
import Nominal.Proofs.Source.Paths
import Nominal.Proofs.Token.Closing
import Nominal.Proofs.Syntax.Course.Rules
import Nominal.Proofs.Syntax.Course.Follows
import Nominal.Proofs.Syntax.Course.Agrees
import Nominal.Proofs.Syntax.Course.Balance
