import ParseMarkup.Dump.Session
import ParseMarkup.Json.Read
import ParseMarkup.Json.Text
import ParseMarkup.Json.Tree
import ParseMarkup.Markup.Step
import ParseMarkup.Stream.Failing
import ParseMarkup.Transport.Faulty
import ParseMarkup.Value
import ParseMarkup.Proofs.Dump.Replay
import ParseMarkup.Proofs.Markup.Agreement
import ParseMarkup.Proofs.Xml.Entity
import ParseMarkup.Proofs.Xml.Forest
import ParseMarkup.Proofs.Xml.Reader
import ParseMarkup.Proofs.Dump.Reader
import ParseMarkup.Proofs.Xml.Lockstep
import ParseMarkup.Proofs.Dump.Faults
import ParseMarkup.Proofs.Stream.Calls
import ParseMarkup.Proofs.Stream.Nesting
import ParseMarkup.Proofs.Xml.Discipline
import ParseMarkup.Proofs.Tree.Paths
import ParseMarkup.Proofs.Dump.Discipline
import ParseMarkup.Proofs.Dump.DepthLimit
import ParseMarkup.Proofs.Xml.History
import ParseMarkup.Proofs.Dump.Alike
import ParseMarkup.Proofs.Transport.Interrupted
import ParseMarkup.Proofs.Xml.Chunks
import ParseMarkup.Proofs.Dump.Displayed
import ParseMarkup.Proofs.Xml.Closed
import ParseMarkup.Proofs.Xml.Session
import ParseMarkup.Proofs.Xml.StartTag
import ParseMarkup.Proofs.Tree.Leaves
import ParseMarkup.Proofs.Markup.Locality
import ParseMarkup.Proofs.Dump.WellFormed
import ParseMarkup.Proofs.Dump.Log
import ParseMarkup.Proofs.Text.Location
import ParseMarkup.Proofs.Markup.Append
import ParseMarkup.Proofs.Markup.Unambiguous
import ParseMarkup.Proofs.Json.ReadBack
import ParseMarkup.Proofs.Dump.Counter
