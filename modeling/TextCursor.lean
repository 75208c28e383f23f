import TextCursor.Arguments.Grammar
import TextCursor.Main
import TextCursor.Proofs.LineEndings
import TextCursor.Proofs.LineStatistics
import TextCursor.Proofs.SavedFlags
import TextCursor.Proofs.LaidOver
import TextCursor.Proofs.ArgumentFlags
import TextCursor.Proofs.LogCalls
import TextCursor.Proofs.Inspection
import TextCursor.Proofs.SavedDefaults
import TextCursor.Proofs.Footprint
import TextCursor.Proofs.TokenPlaces
import TextCursor.Proofs.Restarting
import TextCursor.Proofs.Matching
import TextCursor.Proofs.LineStarts
import TextCursor.Proofs.SettingsLayout
import TextCursor.Proofs.SamePlace
import TextCursor.Proofs.SettingsTree
