import TypeReify.Check.Lexical
import TypeReify.Check.Resolve
import TypeReify.Check.Sources
import TypeReify.Check.State
import TypeReify.Check.Walk
import TypeReify.Disk.Basic
import TypeReify.Disk.Write
import TypeReify.Emit
import TypeReify.Json.Basic
import TypeReify.Json.Read
import TypeReify.LogFormat
import TypeReify.Marker.Basic
import TypeReify.Marker.Reified
import TypeReify.Marker.Reifier
import TypeReify.Marker.Settings
import TypeReify.Modules.Loader
import TypeReify.Modules.Lookup
import TypeReify.Modules.Manifest
import TypeReify.Modules.Specifier
import TypeReify.Oracle
import TypeReify.Path.Basic
import TypeReify.Path.Normal
import TypeReify.Program
import TypeReify.Scope.Basic
import TypeReify.Scope.Bind
import TypeReify.Syntax.Arena
import TypeReify.Syntax.Build
import TypeReify.Syntax.Draft
import TypeReify.Syntax.Flags
import TypeReify.Syntax.Kind
import TypeReify.Syntax.Payload
import TypeReify.Syntax.Print
import TypeReify.Syntax.Rebuild
import TypeReify.Syntax.SourceFile
import TypeReify.Syntax.Walk
import TypeReify.Text.Alphabetic
import TypeReify.Text.Blank
import TypeReify.Text.Identifier
import TypeReify.Text.Numeral
import TypeReify.Text.Numeric
import TypeReify.Text.Quoted
import TypeReify.Text.Ranges
import TypeReify.Types.Basic
import TypeReify.Types.Declaration
import TypeReify.Types.Interner
import TypeReify.Types.Render
import TypeReify.Proofs.Syntax.Growth
import TypeReify.Proofs.Syntax.Appends
import TypeReify.Proofs.Syntax.Print
import TypeReify.Proofs.Syntax.Traverse
import TypeReify.Proofs.Syntax.Tree
import TypeReify.Proofs.Syntax.Visit
import TypeReify.Proofs.Marker.Literal
import TypeReify.Proofs.Marker.Image
import TypeReify.Proofs.Check.Sources
import TypeReify.Proofs.Scope.Declared
import TypeReify.Proofs.Check.Callee
import TypeReify.Proofs.Check.Walk
import TypeReify.Proofs.Types.Interner
import TypeReify.Proofs.Check.State
import TypeReify.Proofs.Check.Members
import TypeReify.Proofs.Check.Objects
import TypeReify.Proofs.Check.Works
import TypeReify.Proofs.Check.Resolve
import TypeReify.Proofs.Check.Signatures
import TypeReify.Proofs.Marker.Calls
import TypeReify.Proofs.Check.Interfaces
import TypeReify.Proofs.Marker.Frame
import TypeReify.Proofs.Marker.Kept
import TypeReify.Proofs.Marker.Again
import TypeReify.Proofs.Scope.Trees
import TypeReify.Proofs.Marker.Names
import TypeReify.Proofs.Marker.Fresh
import TypeReify.Proofs.Check.Depth
import TypeReify.Proofs.Marker.Order
import TypeReify.Proofs.Check.Adds
import TypeReify.Proofs.Types.Same
import TypeReify.Proofs.Check.Alike
import TypeReify.Proofs.Check.Parallel
import TypeReify.Proofs.Check.Strictness
import TypeReify.Proofs.Check.Closed
import TypeReify.Proofs.Marker.Strictness
import TypeReify.Proofs.Marker.SameKey
import TypeReify.Proofs.Syntax.Opening
import TypeReify.Proofs.Marker.Opening
import TypeReify.Proofs.Path.Normal
import TypeReify.Proofs.Syntax.Handed
import TypeReify.Proofs.Check.Hoisted
import TypeReify.Proofs.Text.Reading
import TypeReify.Proofs.Types.Tree
import TypeReify.Proofs.Types.Read
import TypeReify.Proofs.Types.Unambiguous
import TypeReify.Proofs.Syntax.Sharing
import TypeReify.Proofs.Text.Literal
import TypeReify.Proofs.Check.Properties
import TypeReify.Proofs.Check.Optional
import TypeReify.Proofs.Check.Order
import TypeReify.Proofs.Types.Calls
import TypeReify.Proofs.Types.Union
import TypeReify.Proofs.Disk.Lookup
import TypeReify.Proofs.Modules.Loader
import TypeReify.Proofs.Path.Ancestors
import TypeReify.Proofs.Disk.Spelling
import TypeReify.Proofs.Modules.Respelling
import TypeReify.Proofs.Modules.Packages
import TypeReify.Proofs.Check.Again
import TypeReify.Proofs.Check.Repeat
import TypeReify.Proofs.Check.Records
import TypeReify.Proofs.Syntax.Read
import TypeReify.Proofs.Syntax.Expressions
import TypeReify.Proofs.Syntax.TypeNodes
import TypeReify.Proofs.Scope.DeclaredTypes
import TypeReify.Proofs.Check.Binders
import TypeReify.Proofs.Check.ComesTo
import TypeReify.Proofs.Check.Annotations
import TypeReify.Proofs.Text.Numeral
import TypeReify.Proofs.Types.Keys
import TypeReify.Proofs.Marker.Keys
import TypeReify.Proofs.Check.Counters
