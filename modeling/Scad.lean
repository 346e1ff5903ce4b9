import Scad.Analysis
import Scad.Candidate
import Scad.CommandLine
import Scad.Declaration
import Scad.Disk
import Scad.Doc
import Scad.Doc.Markdown
import Scad.Document
import Scad.FilePath
import Scad.Json
import Scad.Json.Reader
import Scad.Json.Shape
import Scad.Json.Writer
import Scad.Layout
import Scad.Main
import Scad.Number.Double
import Scad.Number.Shortest
import Scad.Outline
import Scad.Outline.Bracket
import Scad.Outline.Fault
import Scad.Outline.Item
import Scad.Outline.Leaf
import Scad.Place
import Scad.Position
import Scad.Protocol.Answer
import Scad.Protocol.Capability
import Scad.Protocol.Completion
import Scad.Protocol.Diagnostic
import Scad.Protocol.Range
import Scad.Protocol.Shape
import Scad.Protocol.Symbol
import Scad.Rpc
import Scad.Rpc.Frame
import Scad.Rpc.Method
import Scad.Rpc.Params
import Scad.Server
import Scad.Server.Error
import Scad.Server.Query
import Scad.Server.Settings
import Scad.Session
import Scad.SessionLog
import Scad.Signature
import Scad.Table
import Scad.Text.Blank
import Scad.Text.CodeTable
import Scad.Text.Composed
import Scad.Text.Letter
import Scad.Text.Line
import Scad.Text.Mark
import Scad.Text.Printable
import Scad.Text.Quoted
import Scad.Text.Similarity
import Scad.Text.Terminal
import Scad.Text.Utf8
import Scad.Token
import Scad.Token.Lexer
import Scad.Uri
import Scad.Uri.Domain
import Scad.Uri.Domain.Direction
import Scad.Uri.Domain.Joiner
import Scad.Uri.Domain.Mapping
import Scad.Uri.Fault
import Scad.Uri.File
import Scad.Uri.Host
import Scad.Uri.Percent
import Scad.Uri.Punycode
import Scad.Workspace
import Scad.Proofs.Text
import Scad.Proofs.Position
import Scad.Proofs.Position.Inverse
import Scad.Proofs.Token.Lexeme
import Scad.Proofs.Token.Reads
import Scad.Proofs.Layout.Relaid
import Scad.Proofs.Layout.Render
import Scad.Proofs.Layout.Format
import Scad.Proofs.Doc
import Scad.Proofs.Doc.Lines
import Scad.Proofs.Doc.Written
import Scad.Proofs.Outline.Leaf
import Scad.Proofs.Outline.Item
import Scad.Proofs.Outline.Order
import Scad.Proofs.Outline.Alike
import Scad.Proofs.Layout.Verbatim
import Scad.Proofs.Layout.Depth
import Scad.Proofs.Layout.Row
import Scad.Proofs.Session.Effect
import Scad.Proofs.Session.Mirror
import Scad.Proofs.Outline.Format
import Scad.Proofs.Session.Format
import Scad.Proofs.Forest
import Scad.Proofs.Session.Plain
import Scad.Proofs.Session.Independent
import Scad.Proofs.Outline.Extent
import Scad.Proofs.Outline.Nesting
import Scad.Proofs.Outline.Bracket
import Scad.Proofs.Outline.State
import Scad.Proofs.Outline.Grammar
import Scad.Proofs.Outline.Conditional
import Scad.Proofs.Outline.Core
import Scad.Proofs.Outline.Recovery
import Scad.Proofs.Outline.Brace
import Scad.Proofs.Outline.Block
import Scad.Proofs.Outline.Hidden
import Scad.Proofs.Diagnostic
import Scad.Proofs.Workspace.History
import Scad.Proofs.FilePath
import Scad.Proofs.Workspace.Reference
import Scad.Proofs.Token.Partition
import Scad.Proofs.Token.Gap
import Scad.Proofs.Token.Insert
import Scad.Proofs.Token.Spacing
import Scad.Proofs.Signature
import Scad.Proofs.Workspace.Signature
import Scad.Proofs.Outline.Comment
import Scad.Proofs.Outline.Documented
import Scad.Proofs.Workspace.Library
import Scad.Proofs.Workspace.Scope
import Scad.Proofs.Workspace.Visible
import Scad.Proofs.Workspace.Definition
import Scad.Proofs.Session.Query
import Scad.Proofs.Session.Failure
import Scad.Proofs.Session.Settings
import Scad.Proofs.Checked.Access
import Scad.Proofs.Checked.Token
import Scad.Proofs.Checked.Leaf
import Scad.Proofs.Checked.Item
import Scad.Proofs.Checked.Outline
import Scad.Proofs.Checked.Layout
import Scad.Proofs.Checked.Analysis
import Scad.Proofs.Checked.Workspace
import Scad.Proofs.Descent.Plan
import Scad.Proofs.Descent.Scan
import Scad.Proofs.Descent.Outline
