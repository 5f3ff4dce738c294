import Munch.Main
import Munch.Session
import Munch.Proofs.Text.Position
import Munch.Proofs.Table.Matching
import Munch.Proofs.Table.Growth
import Munch.Proofs.Table.Names
import Munch.Proofs.Scan.Taking
import Munch.Proofs.Scan.Calls
import Munch.Proofs.Scan.Lossless
import Munch.Proofs.Scan.Positions
import Munch.Proofs.Lexing
import Munch.Proofs.Scan.Lexing
import Munch.Proofs.Session.Reached
import Munch.Proofs.Session.Tables
import Munch.Proofs.Session.Positions
import Munch.Proofs.Session.Keywords
import Munch.Proofs.Scan.Comparing
import Munch.Proofs.Table.Accepting
import Munch.Proofs.Table.Order
import Munch.Proofs.Scan.Placement
import Munch.Proofs.Scan.Ties
import Munch.Proofs.Grammar.Form
import Munch.Proofs.Grammar.Loading
import Munch.Proofs.Scan.Ending
import Munch.Proofs.Session.Apart
import Munch.Proofs.Table.Refusing
import Munch.Proofs.Grammar.Refusing
import Munch.Proofs.Grammar.Shape
import Munch.Proofs.Grammar.Files
import Munch.Proofs.CommandLine.Stages
import Munch.Proofs.Text.Quoted
import Munch.Proofs.CommandLine.Lines
import Munch.Proofs.CommandLine.Logging
import Munch.Proofs.Scan.Progress
import Munch.Proofs.Table.Adding
import Munch.Proofs.Scan.Resuming
import Munch.Proofs.Session.Ending
import Munch.Proofs.Session.Registering
import Munch.Proofs.Table.Extending
import Munch.Proofs.Scan.Renaming
import Munch.Proofs.Scan.Extending
import Munch.Proofs.Grammar.Joining
import Munch.Proofs.Text.Offset
import Munch.Proofs.Scan.Locating
import Munch.Proofs.Scan.Asking
import Munch.Proofs.Scan.Consuming
import Munch.Proofs.Session.Bounds
import Munch.Proofs.Scan.Restarting
import Munch.Proofs.Text.Unquoting
import Munch.Proofs.CommandLine.Decoding
import Munch.Proofs.Text.Advancing
import Munch.Proofs.Table.Ignoring
import Munch.Proofs.Scan.Ignoring
import Munch.Proofs.Text.Encoding
import Munch.Proofs.Grammar.Attributing
