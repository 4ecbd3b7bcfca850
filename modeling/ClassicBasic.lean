import ClassicBasic.LogFormat
import ClassicBasic.Main
import ClassicBasic.Node.Equality
import ClassicBasic.Proofs.CommandLine
import ClassicBasic.Proofs.Declaration.External
import ClassicBasic.Proofs.Declaration.Variables
import ClassicBasic.Proofs.Header.ClassForm
import ClassicBasic.Proofs.Header.Flag
import ClassicBasic.Proofs.IntegerLiteral
import ClassicBasic.Proofs.Line.Columns
import ClassicBasic.Proofs.Line.Comment
import ClassicBasic.Proofs.Line.Instruction
import ClassicBasic.Proofs.Line.Texts
import ClassicBasic.Proofs.Line.Words
import ClassicBasic.Proofs.Member.Rendering
import ClassicBasic.Proofs.Module.Cancelling
import ClassicBasic.Proofs.Module.Comments
import ClassicBasic.Proofs.Module.Ending
import ClassicBasic.Proofs.Module.Enumeration
import ClassicBasic.Proofs.Module.Leaving
import ClassicBasic.Proofs.Module.Log
import ClassicBasic.Proofs.Module.Malformed
import ClassicBasic.Proofs.Module.Origin
import ClassicBasic.Proofs.Module.Renaming
import ClassicBasic.Proofs.Module.Spans
import ClassicBasic.Proofs.Module.Unterminated
import ClassicBasic.Proofs.Node.Attributes
import ClassicBasic.Proofs.Node.Json
import ClassicBasic.Proofs.Node.Origin
import ClassicBasic.Proofs.Node.Walk
import ClassicBasic.Proofs.Parameter.Rendering
import ClassicBasic.Proofs.Session
import ClassicBasic.Proofs.Signature.Rendering
import ClassicBasic.Proofs.Text.Literal
import ClassicBasic.Proofs.Token.Comments
import ClassicBasic.Proofs.Token.Labels
import ClassicBasic.Proofs.Token.Layout
import ClassicBasic.Proofs.Token.Stream
