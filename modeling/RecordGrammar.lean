import RecordGrammar.Main
import RecordGrammar.Pattern.Reading
import RecordGrammar.Proofs.Match.History
import RecordGrammar.Proofs.Match.Simplification
import RecordGrammar.Proofs.Outline.Lines
import RecordGrammar.Proofs.Parse.Conformance
import RecordGrammar.Proofs.Parse.Positions
import RecordGrammar.Proofs.Rule.Lexing
import RecordGrammar.Proofs.Rule.Literals
import RecordGrammar.Proofs.Scanner.Printing
import RecordGrammar.Proofs.Scanner.Tracking
import RecordGrammar.Proofs.Scope.History
import RecordGrammar.Proofs.Tree.Complaint
import RecordGrammar.Proofs.Tree.References
import RecordGrammar.Proofs.Tree.RoundTrip
import RecordGrammar.Proofs.Worked.Ini.Printed
import RecordGrammar.Proofs.Worked.Json.Printed
