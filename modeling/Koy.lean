import Koy.CommandLine
import Koy.HostValue
import Koy.Main
import Koy.Value.Narrowing
import Koy.Workspace
import Koy.Proofs.NameMap
import Koy.Proofs.ValueEquality
import Koy.Proofs.Effects
import Koy.Proofs.Scopes
import Koy.Proofs.ScopeDiscipline
import Koy.Proofs.DepthLimit
import Koy.Proofs.Glyphs
import Koy.Proofs.LexerSteps
import Koy.Proofs.Appending
import Koy.Proofs.LexingStability
import Koy.Proofs.SemicolonInsertion
import Koy.Proofs.Budget
import Koy.Proofs.Decimal
import Koy.Proofs.Finality
import Koy.Proofs.PrintedWords
import Koy.Proofs.Reading
import Koy.Proofs.Rescue
import Koy.Proofs.Chunks
import Koy.Proofs.RoundTrip
import Koy.Proofs.Agreement
import Koy.Proofs.Observation
import Koy.Proofs.EntryPoints
import Koy.Proofs.ReadableValues
import Koy.Proofs.GatheredEntries
import Koy.Proofs.TraceLines
import Koy.Proofs.SoundWorlds
import Koy.Proofs.CallLog
import Koy.Proofs.SharedChains
import Koy.Proofs.FaithfulReading
import Koy.Proofs.Precedence
import Koy.Proofs.SetExtensionality
import Koy.Proofs.LabeledCalls
import Koy.Proofs.TruePlaces
import Koy.Proofs.LosslessLexing
import Koy.Proofs.Updates
import Koy.Proofs.ScopeLaws
import Koy.Proofs.Termination
import Koy.Proofs.ElseLines
import Koy.Proofs.DataHeight
import Koy.Proofs.Division
import Koy.Proofs.IntegerLiterals
import Koy.Proofs.FirstLines
import Koy.Proofs.EqualOperands
import Koy.Proofs.EqualTexts
import Koy.Proofs.FlagSpelling
import Koy.Proofs.LexerProgress
import Koy.Proofs.ParserProgress
