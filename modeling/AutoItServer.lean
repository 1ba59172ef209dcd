import AutoItServer.Editor.Session
import AutoItServer.Main
import AutoItServer.Proofs.Call.Comment
import AutoItServer.Proofs.Call.Continued
import AutoItServer.Proofs.Call.Nested
import AutoItServer.Proofs.Checker.Display
import AutoItServer.Proofs.Document.Overrun
import AutoItServer.Proofs.Document.Reported
import AutoItServer.Proofs.Editor.Authority
import AutoItServer.Proofs.Editor.Coherence
import AutoItServer.Proofs.Editor.Remembered
import AutoItServer.Proofs.Function.Continued
import AutoItServer.Proofs.Function.Parameter
import AutoItServer.Proofs.Function.Written
import AutoItServer.Proofs.Include.Generation
import AutoItServer.Proofs.Include.History
import AutoItServer.Proofs.Include.Precedence
import AutoItServer.Proofs.Index.Settled
import AutoItServer.Proofs.Source.Blind
import AutoItServer.Proofs.Source.Literal
import AutoItServer.Proofs.Symbol.Agreement
import AutoItServer.Proofs.Symbol.Apart
import AutoItServer.Proofs.Symbol.Blind
import AutoItServer.Proofs.Symbol.Options
import AutoItServer.Proofs.Symbol.Sound
import AutoItServer.Proofs.Text.Position
import AutoItServer.Sample
import AutoItServer.Proofs.Symbol.Kind
import AutoItServer.Proofs.Header.Written
import AutoItServer.Proofs.Text.Inserted
import AutoItServer.Proofs.Function.Line
import AutoItServer.Proofs.Header.Behind
import AutoItServer.Proofs.Editor.Insertion
import AutoItServer.Proofs.Symbol.Bracket
import AutoItServer.Proofs.Lookup.Site
import AutoItServer.Proofs.Disk.Transparent
import AutoItServer.Proofs.Include.Candidates
import AutoItServer.Proofs.Include.Spelling
import AutoItServer.Proofs.Include.CodeLine
import AutoItServer.Proofs.Checker.Written
import AutoItServer.Proofs.Index.Union
import AutoItServer.Proofs.Settings.Isolated
import AutoItServer.Proofs.Lookup.Token
import AutoItServer.Proofs.Include.Respelled
import AutoItServer.Proofs.Text.Terminator
