import SodiumDecl.Main
import SodiumDecl.Proofs.ByName
import SodiumDecl.Proofs.Results
import SodiumDecl.Proofs.Runs
import SodiumDecl.Proofs.Paths
import SodiumDecl.Proofs.Entries
import SodiumDecl.Proofs.Writing
import SodiumDecl.Proofs.Declaring
import SodiumDecl.Proofs.Contents
import SodiumDecl.Proofs.Scratch
import SodiumDecl.Proofs.AllOrNothing
import SodiumDecl.Proofs.Outline
import SodiumDecl.Proofs.Rendering
import SodiumDecl.Proofs.Reading
import SodiumDecl.Proofs.Sessions
import SodiumDecl.Proofs.Profiles
import SodiumDecl.Proofs.Listing
import SodiumDecl.Proofs.Precedence
import SodiumDecl.Proofs.Numbers
import SodiumDecl.Proofs.Gate
import SodiumDecl.Proofs.Language
import SodiumDecl.Proofs.Lifecycle
import SodiumDecl.Proofs.Loading
import SodiumDecl.Proofs.Acceptance
import SodiumDecl.Proofs.Minimum
import SodiumDecl.Proofs.Signatures
import SodiumDecl.Proofs.Scanning
import SodiumDecl.Proofs.Trees
import SodiumDecl.Proofs.Grammar
import SodiumDecl.Proofs.Recognition
import SodiumDecl.Proofs.Values
import SodiumDecl.Proofs.Records
import SodiumDecl.Proofs.Descriptions
import SodiumDecl.Proofs.Rearrangement
import SodiumDecl.Proofs.Overloads
import SodiumDecl.Proofs.Composites
import SodiumDecl.Proofs.ShapeOrder
import SodiumDecl.Proofs.Unions
import SodiumDecl.Proofs.Addresses
import SodiumDecl.Proofs.Spelling
import SodiumDecl.Proofs.Configuration
