import PixelBrush.Main
import PixelBrush.Viewer.Basic
import PixelBrush.Proofs.MidpointWalk
import PixelBrush.Proofs.Recording
import PixelBrush.Proofs.RingWalk
import PixelBrush.Proofs.ValidatedRuns
import PixelBrush.Proofs.FailedRuns
import PixelBrush.Proofs.Cursors
import PixelBrush.Proofs.Replay
import PixelBrush.Proofs.ParserSoundness
import PixelBrush.Proofs.ParserCompleteness
import PixelBrush.Proofs.Printing
import PixelBrush.Proofs.ScannedMarks
import PixelBrush.Proofs.PrintedPrograms
import PixelBrush.Proofs.PrintedNames
import PixelBrush.Proofs.RoundTrip
import PixelBrush.Proofs.WellFormedMachines
import PixelBrush.Proofs.Cells
import PixelBrush.Proofs.Flooding
import PixelBrush.Proofs.Enclosure
import PixelBrush.Proofs.CompiledPrograms
import PixelBrush.Proofs.Kinds
import PixelBrush.Proofs.LiteralPrograms
import PixelBrush.Proofs.GrowingHistories
import PixelBrush.Proofs.StepLimits
import PixelBrush.Proofs.TokenPlaces
import PixelBrush.Proofs.NamesApart
import PixelBrush.Proofs.SegmentWalk
import PixelBrush.Proofs.SessionRuns
import PixelBrush.Proofs.ErrorPlaces
import PixelBrush.Proofs.ViewerCursor
import PixelBrush.Proofs.Journals
import PixelBrush.Proofs.TokenShapes
import PixelBrush.Proofs.NormalForm
import PixelBrush.Proofs.HyphensAfterNames
import PixelBrush.Proofs.StraightSegments
import PixelBrush.Proofs.DrawnLines
import PixelBrush.Proofs.FailedInstructions
import PixelBrush.Proofs.NodeOrder
import PixelBrush.Proofs.Warnings
import PixelBrush.Proofs.WarningOrder
import PixelBrush.Proofs.RoundRings
import PixelBrush.Proofs.ExactArithmetic
import PixelBrush.Proofs.ConstantConditions
import PixelBrush.Proofs.LargerCanvases
import PixelBrush.Proofs.NodePlaces
import PixelBrush.Proofs.FocusInView
import PixelBrush.Proofs.HighlightedLines
import PixelBrush.Proofs.HighlightedTokens
import PixelBrush.Proofs.WordDrawing
