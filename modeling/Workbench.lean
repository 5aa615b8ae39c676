import Workbench.Browser.Basic
import Workbench.Console.BoundedLog
import Workbench.Console.Event
import Workbench.Page.Document
import Workbench.Project.Starter
import Workbench.Proofs.Pattern.Reading
import Workbench.Studio.Basic
import Workbench.View.Basic
import Workbench.Proofs.Pattern.Captures
import Workbench.Proofs.Pattern.Cut
import Workbench.Proofs.Markup.ScriptEnd
import Workbench.Proofs.Console.Instrument
import Workbench.Proofs.Page.ScriptElement
import Workbench.Proofs.Pattern.Seam
import Workbench.Proofs.Script.Leftover
import Workbench.Proofs.Script.Line
import Workbench.Proofs.Script.StatementKind
import Workbench.Proofs.Script.LineShape
import Workbench.Proofs.Script.LineReading
import Workbench.Proofs.Script.LineByLine
import Workbench.Proofs.Project.FirstName
import Workbench.Proofs.Page.Rearranged
import Workbench.Proofs.File.Recognition
import Workbench.Proofs.Studio.Kinds
import Workbench.Proofs.Console.BoundedLog
import Workbench.Proofs.View.Select
import Workbench.Proofs.Studio.Console
import Workbench.Proofs.View.Panels
import Workbench.Proofs.View.Editor
import Workbench.Proofs.Studio.ActiveFile
import Workbench.Proofs.Console.Acceptance
import Workbench.Proofs.File.ModuleSyntax
import Workbench.Proofs.Script.Names
import Workbench.Proofs.Script.Concatenation
import Workbench.Proofs.Project.Lives
import Workbench.Proofs.Paths.Entries
import Workbench.Proofs.Page.FirstScript
import Workbench.Proofs.Text.Base64
import Workbench.Proofs.Pattern.Fence
import Workbench.Proofs.Page.StyleElement
import Workbench.Proofs.Paths.Index
import Workbench.Proofs.Page.Hidden
import Workbench.Proofs.Pattern.Parts
import Workbench.Proofs.Page.DataUrl
import Workbench.Proofs.Markup.UrlToken
import Workbench.Proofs.Page.Embedded
import Workbench.Proofs.Studio.Upload
import Workbench.Proofs.Markup.ScriptReference
import Workbench.Proofs.Page.LocalScripts
import Workbench.Proofs.Paths.Normal
import Workbench.Proofs.Pattern.First
import Workbench.Proofs.Text.Trim
import Workbench.Proofs.Markup.Body
import Workbench.Proofs.Markup.AssetReference
import Workbench.Proofs.Page.StyleAttribute
import Workbench.Proofs.Page.QuotedReference
import Workbench.Proofs.Pattern.InPlace
import Workbench.Proofs.Page.Unresolved
import Workbench.Proofs.Page.SecondPass
import Workbench.Proofs.Pattern.Stay
import Workbench.Proofs.Page.UrlCall
import Workbench.Proofs.Pattern.Delimited
import Workbench.Proofs.Markup.TagParts
import Workbench.Proofs.Markup.Fragment
import Workbench.Proofs.Markup.QuotedHref
import Workbench.Proofs.Markup.ElementReading
import Workbench.Proofs.Markup.Stripped
import Workbench.Proofs.Studio.ImportOrder
import Workbench.Proofs.Text.Bytes
import Workbench.Proofs.Page.Authored
import Workbench.Proofs.Page.NameComment
import Workbench.Proofs.Markup.External
import Workbench.Proofs.Markup.RemoteLink
import Workbench.Proofs.Studio.EditableUpload
import Workbench.Proofs.Studio.Revision
import Workbench.Proofs.Console.LogHistory
import Workbench.Proofs.Browser.TabAddress
import Workbench.Proofs.Studio.TabAddress
import Workbench.Proofs.File.AddedLines
