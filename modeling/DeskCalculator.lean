import DeskCalculator.Main
import DeskCalculator.Proofs.Binary64.Nearest
import DeskCalculator.Proofs.Binary64.Range
import DeskCalculator.Proofs.Binary64.TiesToEven
import DeskCalculator.Proofs.Binary64.Whole
import DeskCalculator.Proofs.CommandLine.Expressions
import DeskCalculator.Proofs.CommandLine.Footprint
import DeskCalculator.Proofs.CommandLine.History
import DeskCalculator.Proofs.Decimal.Canonical
import DeskCalculator.Proofs.Decimal.Digits
import DeskCalculator.Proofs.Decimal.FewDigits
import DeskCalculator.Proofs.Decimal.Layout
import DeskCalculator.Proofs.Decimal.Literal
import DeskCalculator.Proofs.Decimal.Plain
import DeskCalculator.Proofs.Decimal.Reading
import DeskCalculator.Proofs.Decimal.Shortest
import DeskCalculator.Proofs.Decimal.Whole
import DeskCalculator.Proofs.Desk.Chaining
import DeskCalculator.Proofs.Desk.EntryLine
import DeskCalculator.Proofs.Desk.Failures
import DeskCalculator.Proofs.Desk.Independence
import DeskCalculator.Proofs.Desk.KeyStream
import DeskCalculator.Proofs.Desk.Notation
import DeskCalculator.Proofs.Desk.Once
import DeskCalculator.Proofs.Desk.Panel
import DeskCalculator.Proofs.Desk.Press
import DeskCalculator.Proofs.Desk.Provenance
import DeskCalculator.Proofs.Disk.Following
import DeskCalculator.Proofs.Disk.Making
import DeskCalculator.Proofs.Disk.Stages
import DeskCalculator.Proofs.Entry.KeyLines
import DeskCalculator.Proofs.Entry.Operators
import DeskCalculator.Proofs.Entry.Spelling
import DeskCalculator.Proofs.Entry.Typing
import DeskCalculator.Proofs.Expression.AsWritten
import DeskCalculator.Proofs.Expression.Calls
import DeskCalculator.Proofs.Expression.Grammar
import DeskCalculator.Proofs.Expression.Machine
import DeskCalculator.Proofs.Expression.Meaning
import DeskCalculator.Proofs.Expression.Munch
import DeskCalculator.Proofs.Expression.Nesting
import DeskCalculator.Proofs.Expression.Pieces
import DeskCalculator.Proofs.Expression.Scan
import DeskCalculator.Proofs.Expression.Signed
import DeskCalculator.Proofs.Expression.Transform
import DeskCalculator.Proofs.Expression.Whole
import DeskCalculator.Proofs.Logbook.Calls
import DeskCalculator.Proofs.Logbook.Copy
import DeskCalculator.Proofs.Logbook.Loading
import DeskCalculator.Proofs.Logbook.Shared
import DeskCalculator.Proofs.Storage.Crash
import DeskCalculator.Proofs.Storage.Directory
import DeskCalculator.Proofs.Storage.FailedWrites
import DeskCalculator.Proofs.Storage.KeysApart
import DeskCalculator.Proofs.Storage.ReadBack
import DeskCalculator.Proofs.Text.ArraySyntax
import DeskCalculator.Proofs.Text.Lines
