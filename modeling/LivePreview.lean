import LivePreview.Main
import LivePreview.Source.Basic
import LivePreview.Text.Matching
import LivePreview.Proofs.Session.Run
import LivePreview.Proofs.Session.Update
import LivePreview.Proofs.Session.Overlay
import LivePreview.Proofs.Session.Live
import LivePreview.Proofs.Session.Release
import LivePreview.Proofs.Document.Enclosure
import LivePreview.Proofs.Source.ExportLine
import LivePreview.Proofs.Source.ModuleSyntax
import LivePreview.Proofs.Source.Settled
import LivePreview.Proofs.Session.Edits
import LivePreview.Proofs.Session.Generation
import LivePreview.Proofs.Session.Silence
import LivePreview.Proofs.Session.Coherence
import LivePreview.Proofs.Session.Timeout
import LivePreview.Proofs.Surface.Slot
import LivePreview.Proofs.Surface.Turn
import LivePreview.Proofs.Surface.Refresh
import LivePreview.Proofs.Surface.Incarnation
import LivePreview.Proofs.Surface.Served
import LivePreview.Proofs.Surface.Board
import LivePreview.Proofs.Surface.Joining
import LivePreview.Proofs.Surface.Closing
import LivePreview.Proofs.Surface.Isolation
import LivePreview.Proofs.Surface.Saves
import LivePreview.Proofs.Text.Occurrence
import LivePreview.Proofs.Source.ImportLayout
import LivePreview.Proofs.Source.ImportLine
import LivePreview.Proofs.Source.ImportRole
import LivePreview.Proofs.Source.ImportEnding
import LivePreview.Proofs.Source.ImportNames
import LivePreview.Proofs.Source.Passage
import LivePreview.Proofs.Source.ImportRemoval
import LivePreview.Proofs.Source.BindingList
import LivePreview.Proofs.Source.ListPart
import LivePreview.Proofs.Source.LineImage
import LivePreview.Proofs.Source.ExportProse
import LivePreview.Proofs.Session.GuestLog
import LivePreview.Proofs.Session.ShownSource
import LivePreview.Proofs.Session.Ticks
import LivePreview.Proofs.Surface.Timers
import LivePreview.Proofs.Source.LiteralBody
import LivePreview.Proofs.Source.Escaping
import LivePreview.Proofs.Source.DefaultExport
import LivePreview.Proofs.Text.Legible
import LivePreview.Proofs.Json.NumberText
import LivePreview.Proofs.Document.Embedding
import LivePreview.Proofs.Document.Inputs
import LivePreview.Proofs.Data.InPlace
import LivePreview.Proofs.Source.ConstantDeclaration
import LivePreview.Proofs.Text.LineEnding
import LivePreview.Proofs.Source.LineEnding
import LivePreview.Proofs.Json.Reading
import LivePreview.Proofs.Json.Nesting
import LivePreview.Proofs.Document.ReadBack
import LivePreview.Proofs.Document.ConstantsScript
import LivePreview.Proofs.Surface.ShellPage
import LivePreview.Proofs.Text.Fingerprint
import LivePreview.Proofs.Text.Percent
import LivePreview.Proofs.Data.QueryAddress
import LivePreview.Proofs.Data.Polling
