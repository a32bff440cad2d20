import Fonoteca.Genre
import Fonoteca.Main
import Fonoteca.Proofs.Query.Condition
import Fonoteca.Proofs.Query.Recognition
import Fonoteca.Proofs.Query.RoundTrip
import Fonoteca.Proofs.Store.Step
import Fonoteca.Proofs.Text.ByteOrder
import Fonoteca.Proofs.Text.Containment
import Fonoteca.Store.Request
import Fonoteca.Proofs.Store.Reachable
import Fonoteca.Proofs.Store.Sound
import Fonoteca.Proofs.Store.Joined
import Fonoteca.Proofs.Store.Insertion
import Fonoteca.Proofs.Scan.Ingestion
import Fonoteca.Proofs.Text.Rounding
import Fonoteca.Proofs.Text.ShortLiteral
import Fonoteca.Proofs.Text.Spelling
import Fonoteca.Proofs.Query.Truth
import Fonoteca.Proofs.Store.Matching
import Fonoteca.Proofs.Store.SearchBar
import Fonoteca.Proofs.Scan.Completion
import Fonoteca.Proofs.Store.Integrity
import Fonoteca.Proofs.Scan.Reingestion
import Fonoteca.Proofs.Store.Failure
import Fonoteca.Proofs.Store.Permanence
import Fonoteca.Proofs.Store.Songs
import Fonoteca.Proofs.Scan.Order
import Fonoteca.Scan.Pipeline
import Fonoteca.Proofs.Scan.Extraction
import Fonoteca.Proofs.Scan.Pipeline
import Fonoteca.Proofs.Scan.Delivery
import Fonoteca.Proofs.Scan.Interleaving
import Fonoteca.Proofs.Store.Identity
import Fonoteca.Proofs.Scan.Location
import Fonoteca.Proofs.CommandLine.Names
import Fonoteca.Store.Library
import Fonoteca.Proofs.Store.Reopening
import Fonoteca.Proofs.Store.Independence
import Fonoteca.Proofs.CommandLine.Folders
import Fonoteca.Proofs.Settings.Saving
import Fonoteca.Proofs.Store.Admission
import Fonoteca.Proofs.Store.Junction
import Fonoteca.Proofs.CommandLine.Editing
import Fonoteca.Proofs.Store.Complement
import Fonoteca.Proofs.Store.Binding
import Fonoteca.Proofs.Query.Placeholders
import Fonoteca.Proofs.Scan.Lookup
import Fonoteca.Proofs.Scan.Consumer
import Fonoteca.Proofs.Store.Decoding
import Fonoteca.Proofs.Disk.Listing
import Fonoteca.Proofs.Scan.Albums
import Fonoteca.Proofs.Tags.Normalization
import Fonoteca.Proofs.Store.Membership
import Fonoteca.Proofs.CommandLine.Files
import Fonoteca.Proofs.CommandLine.Classifying
import Fonoteca.Proofs.Settings.Keeping
import Fonoteca.Proofs.Text.Numeral
import Fonoteca.Proofs.Tags.Genres
import Fonoteca.Proofs.Store.Destination
import Fonoteca.Proofs.Track
