import ClientGen.Document.Encode
import ClientGen.Files.Store
import ClientGen.Main
import ClientGen.Proofs.Client.Accounted
import ClientGen.Proofs.Client.Balance
import ClientGen.Proofs.Client.ClassMembers
import ClientGen.Proofs.Client.Degradation
import ClientGen.Proofs.Client.ExactlyOnce
import ClientGen.Proofs.Client.Extension
import ClientGen.Proofs.Client.ImportBlock
import ClientGen.Proofs.Client.ImportedSymbols
import ClientGen.Proofs.Client.Policy
import ClientGen.Proofs.Client.References
import ClientGen.Proofs.Client.Rejected
import ClientGen.Proofs.Client.TidyFile
import ClientGen.Proofs.Client.UsableNames
import ClientGen.Proofs.Document.Inheritance
import ClientGen.Proofs.Document.PathEdits
import ClientGen.Proofs.Document.RoundTrip
import ClientGen.Proofs.Endpoint.DistinctIds
import ClientGen.Proofs.Endpoint.Insertion
import ClientGen.Proofs.Files.Outcome
import ClientGen.Proofs.Path.Filled
import ClientGen.Proofs.Script.Language
import ClientGen.Proofs.Script.ReportedLine
import ClientGen.Proofs.Script.UnambiguousTypes
