import SyntaxGraph.Compiler.Codec
import SyntaxGraph.Json.Reader
import SyntaxGraph.Node.Identity
import SyntaxGraph.Settings
import SyntaxGraph.Proofs.Agreement
import SyntaxGraph.Proofs.Ceilings
import SyntaxGraph.Proofs.Lexical
import SyntaxGraph.Proofs.Symbols
import SyntaxGraph.Proofs.Branches
import SyntaxGraph.Proofs.Reads
import SyntaxGraph.Proofs.Indexes
import SyntaxGraph.Proofs.Relocation
import SyntaxGraph.Proofs.Tally
import SyntaxGraph.Proofs.Fittings
import SyntaxGraph.Proofs.Closures
import SyntaxGraph.Proofs.Batches
import SyntaxGraph.Proofs.Positions
import SyntaxGraph.Proofs.Seeds
import SyntaxGraph.Proofs.Counts
import SyntaxGraph.Proofs.Arities
import SyntaxGraph.Proofs.Diagnostics
import SyntaxGraph.Proofs.Rebinding
import SyntaxGraph.Proofs.Alternatives
import SyntaxGraph.Proofs.SourceOrder
import SyntaxGraph.Proofs.Coverage
import SyntaxGraph.Proofs.Signs
import SyntaxGraph.Proofs.Shelter
import SyntaxGraph.Proofs.Sizes
import SyntaxGraph.Proofs.Spellings
import SyntaxGraph.Proofs.Encodings
import SyntaxGraph.Proofs.Texts
import SyntaxGraph.Proofs.Handover
import SyntaxGraph.Proofs.Specifications
import SyntaxGraph.Proofs.Histories
import SyntaxGraph.Proofs.Saving
import SyntaxGraph.Proofs.Discipline
import SyntaxGraph.Proofs.Prefixes
import SyntaxGraph.Proofs.Targets
