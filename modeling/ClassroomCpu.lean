import ClassroomCpu.Machine.Summary
import ClassroomCpu.Main
import ClassroomCpu.Proofs.Assembly.BlankLines
import ClassroomCpu.Proofs.Assembly.CheckedBuild
import ClassroomCpu.Proofs.Assembly.ForwardWords
import ClassroomCpu.Proofs.Assembly.LabelPlaces
import ClassroomCpu.Proofs.Assembly.LetterCase
import ClassroomCpu.Proofs.Assembly.Overlap
import ClassroomCpu.Proofs.Assembly.QuoteScan
import ClassroomCpu.Proofs.Catalog.Calls
import ClassroomCpu.Proofs.Catalog.Comparison
import ClassroomCpu.Proofs.Catalog.Footprint
import ClassroomCpu.Proofs.Catalog.Retyping
import ClassroomCpu.Proofs.Catalog.Successor
import ClassroomCpu.Proofs.Event.Notification
import ClassroomCpu.Proofs.Event.Queueing
import ClassroomCpu.Proofs.Event.Roster
import ClassroomCpu.Proofs.Execution.Advance
import ClassroomCpu.Proofs.Execution.ByteCost
import ClassroomCpu.Proofs.Execution.Postfix
import ClassroomCpu.Proofs.Execution.Reference
import ClassroomCpu.Proofs.Execution.RunComposition
import ClassroomCpu.Proofs.Execution.RunCost
import ClassroomCpu.Proofs.Execution.Safety
import ClassroomCpu.Proofs.Execution.WordCost
import ClassroomCpu.Proofs.MemoryImage.RoundTrip
import ClassroomCpu.Proofs.Session.Refusal
import ClassroomCpu.Proofs.Session.Tables
import ClassroomCpu.Proofs.Assembly.Relexing
import ClassroomCpu.Proofs.Assembly.QuotedText
import ClassroomCpu.Proofs.Execution.ByteCodecs
import ClassroomCpu.Proofs.Execution.DoubleWord
import ClassroomCpu.Proofs.Catalog.DoubleWord
import ClassroomCpu.Proofs.Alu.Exact
import ClassroomCpu.Proofs.Assembly.LiteralGrammar
import ClassroomCpu.Proofs.Assembly.RecordedLines
