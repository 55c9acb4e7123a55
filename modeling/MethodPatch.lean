import MethodPatch.Class.Pool
import MethodPatch.Class.StoredPool
import MethodPatch.Code.Body
import MethodPatch.Code.Instr
import MethodPatch.Code.Listing
import MethodPatch.Code.Opcode
import MethodPatch.Decimal
import MethodPatch.Generator.Basic
import MethodPatch.Generator.Expr
import MethodPatch.Generator.Member
import MethodPatch.Generator.Stmt
import MethodPatch.Host.Basic
import MethodPatch.Json.Decode
import MethodPatch.Json.Scalar
import MethodPatch.Json.Value
import MethodPatch.Locals.Allocator
import MethodPatch.Locals.Basic
import MethodPatch.Main
import MethodPatch.Patch.Error
import MethodPatch.Patch.Generation
import MethodPatch.Patch.Pass
import MethodPatch.Patch.Session
import MethodPatch.Proofs.Composition.Emit
import MethodPatch.Proofs.Composition.Expr
import MethodPatch.Proofs.Composition.Names
import MethodPatch.Proofs.Composition.Operands
import MethodPatch.Proofs.Composition.Parallel
import MethodPatch.Proofs.Composition.Parts
import MethodPatch.Proofs.Composition.Repeats
import MethodPatch.Proofs.Composition.Stmt
import MethodPatch.Proofs.Composition.Types
import MethodPatch.Proofs.Constants.Again
import MethodPatch.Proofs.Constants.Calls
import MethodPatch.Proofs.Constants.Decode
import MethodPatch.Proofs.Constants.Growth
import MethodPatch.Proofs.Constants.References
import MethodPatch.Proofs.Constants.Stored
import MethodPatch.Proofs.Descent.Ends
import MethodPatch.Proofs.Descent.Expr
import MethodPatch.Proofs.Descent.Operators
import MethodPatch.Proofs.Descent.Parts
import MethodPatch.Proofs.Descent.Spending
import MethodPatch.Proofs.Descent.Stmt
import MethodPatch.Proofs.Descent.Tokens
import MethodPatch.Proofs.Descent.Types
import MethodPatch.Proofs.Emission.Appends
import MethodPatch.Proofs.Emission.Binds
import MethodPatch.Proofs.Emission.Builds
import MethodPatch.Proofs.Emission.Creation
import MethodPatch.Proofs.Emission.Lays
import MethodPatch.Proofs.Emission.Origins
import MethodPatch.Proofs.Emission.Stmt
import MethodPatch.Proofs.Emission.Yields
import MethodPatch.Proofs.Encoding.Body
import MethodPatch.Proofs.Encoding.Instr
import MethodPatch.Proofs.Encoding.Lines
import MethodPatch.Proofs.Guards.Blame
import MethodPatch.Proofs.Guards.Expr
import MethodPatch.Proofs.Guards.Operators
import MethodPatch.Proofs.Guards.Size
import MethodPatch.Proofs.Guards.Stmt
import MethodPatch.Proofs.Joining.Builder
import MethodPatch.Proofs.Joining.Machine
import MethodPatch.Proofs.Joining.Summands
import MethodPatch.Proofs.Layout.Block
import MethodPatch.Proofs.Layout.Chunk
import MethodPatch.Proofs.Locals.Extends
import MethodPatch.Proofs.Locals.Order
import MethodPatch.Proofs.Locals.Parameters
import MethodPatch.Proofs.Locals.Requests
import MethodPatch.Proofs.Locals.Scope
import MethodPatch.Proofs.Locals.Seeded
import MethodPatch.Proofs.Lowering.Assign
import MethodPatch.Proofs.Lowering.Executes
import MethodPatch.Proofs.Lowering.Expr
import MethodPatch.Proofs.Lowering.Frame
import MethodPatch.Proofs.Lowering.Instrs
import MethodPatch.Proofs.Lowering.Lowered
import MethodPatch.Proofs.Lowering.Operators
import MethodPatch.Proofs.Lowering.Performs
import MethodPatch.Proofs.Lowering.Stmt
import MethodPatch.Proofs.Lowering.Types
import MethodPatch.Proofs.Machine.Block
import MethodPatch.Proofs.Machine.Chunk
import MethodPatch.Proofs.Machine.Outcome
import MethodPatch.Proofs.Machine.Step
import MethodPatch.Proofs.Machine.Word
import MethodPatch.Proofs.Meaning.Expr
import MethodPatch.Proofs.Meaning.Scalar
import MethodPatch.Proofs.Meaning.Stmt
import MethodPatch.Proofs.Meaning.Typed
import MethodPatch.Proofs.Patch.Adoption
import MethodPatch.Proofs.Patch.Binding
import MethodPatch.Proofs.Patch.Commits
import MethodPatch.Proofs.Patch.Created
import MethodPatch.Proofs.Patch.Edits
import MethodPatch.Proofs.Patch.Extraction
import MethodPatch.Proofs.Patch.Failure
import MethodPatch.Proofs.Patch.Generated
import MethodPatch.Proofs.Patch.Invoked
import MethodPatch.Proofs.Patch.Located
import MethodPatch.Proofs.Patch.Matching
import MethodPatch.Proofs.Patch.Neutral
import MethodPatch.Proofs.Patch.Operands
import MethodPatch.Proofs.Patch.Parallel
import MethodPatch.Proofs.Patch.Pass
import MethodPatch.Proofs.Patch.Placing
import MethodPatch.Proofs.Patch.References
import MethodPatch.Proofs.Patch.Repeats
import MethodPatch.Proofs.Patch.Session
import MethodPatch.Proofs.Patch.Settled
import MethodPatch.Proofs.Patch.Slots
import MethodPatch.Proofs.Probing.Expr
import MethodPatch.Proofs.Probing.Foretold
import MethodPatch.Proofs.Probing.Lowered
import MethodPatch.Proofs.Probing.Operators
import MethodPatch.Proofs.Shell.Complete
import MethodPatch.Proofs.Stack.Assign
import MethodPatch.Proofs.Stack.Chunk
import MethodPatch.Proofs.Stack.Counted
import MethodPatch.Proofs.Stack.Depths
import MethodPatch.Proofs.Stack.Emit
import MethodPatch.Proofs.Stack.Expr
import MethodPatch.Proofs.Stack.Lowered
import MethodPatch.Proofs.Stack.Name
import MethodPatch.Proofs.Stack.Operators
import MethodPatch.Proofs.Stack.Raises
import MethodPatch.Proofs.Stack.Stmt
import MethodPatch.Proofs.Stack.Tracked
import MethodPatch.Proofs.Syntax.Decimals
import MethodPatch.Proofs.Syntax.Escapes
import MethodPatch.Proofs.Syntax.Loops
import MethodPatch.Proofs.Syntax.Nested
import MethodPatch.Proofs.Syntax.Numbers
import MethodPatch.Proofs.Syntax.Parsing
import MethodPatch.Proofs.Syntax.Places
import MethodPatch.Proofs.Syntax.Precedence
import MethodPatch.Proofs.Syntax.Printed
import MethodPatch.Proofs.Syntax.Progress
import MethodPatch.Proofs.Syntax.Reading
import MethodPatch.Proofs.Syntax.Scanned
import MethodPatch.Proofs.Syntax.Spaced
import MethodPatch.Proofs.Syntax.Spelling
import MethodPatch.Proofs.Syntax.Written
import MethodPatch.Proofs.Text.ModifiedUtf8
import MethodPatch.Proofs.Types.Descriptor
import MethodPatch.Proofs.Types.Grammar
import MethodPatch.Proofs.Types.SourceName
import MethodPatch.Proofs.Typing.Converts
import MethodPatch.Proofs.Typing.Passes
import MethodPatch.Proofs.Typing.Selection
import MethodPatch.Proofs.Visiting.Agrees
import MethodPatch.Proofs.Visiting.Expr
import MethodPatch.Proofs.Visiting.Operators
import MethodPatch.Proofs.Visiting.Visited
import MethodPatch.Proofs.Workspace.Hierarchy
import MethodPatch.Proofs.Workspace.Methods
import MethodPatch.Scope
import MethodPatch.Shell.Arguments
import MethodPatch.Shell.Command
import MethodPatch.Shell.Folder
import MethodPatch.Shell.Repl
import MethodPatch.Shell.Report
import MethodPatch.Source.Position
import MethodPatch.Source.SourceError
import MethodPatch.Syntax.Descent.Expr
import MethodPatch.Syntax.Descent.Stmt
import MethodPatch.Syntax.Lexer
import MethodPatch.Syntax.Parse.Expr
import MethodPatch.Syntax.Parse.Stmt
import MethodPatch.Syntax.Parse.Type
import MethodPatch.Syntax.Scan
import MethodPatch.Syntax.Token
import MethodPatch.Syntax.Tree
import MethodPatch.Text.Cluster
import MethodPatch.Text.Letter
import MethodPatch.Text.Mark
import MethodPatch.Text.Plain
import MethodPatch.Text.Quoted
import MethodPatch.Text.Utf16
import MethodPatch.Total
import MethodPatch.Types.FieldType
import MethodPatch.Types.Signature
import MethodPatch.Types.SourceName
import MethodPatch.Typing.Assignable
import MethodPatch.Typing.Call
import MethodPatch.Typing.Infer
import MethodPatch.Typing.Operands
import MethodPatch.Visit.Expr
import MethodPatch.Visit.Guarded
import MethodPatch.Visit.Member
import MethodPatch.Visit.Stmt
import MethodPatch.Workspace.Basic
import MethodPatch.Workspace.Hierarchy
import MethodPatch.Workspace.Host
import MethodPatch.Workspace.Platform
import MethodPatch.Workspace.Read
import MethodPatch.Workspace.Write
