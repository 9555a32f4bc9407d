import EcmaSyntax.Main
import EcmaSyntax.Proofs.Arrows
import EcmaSyntax.Proofs.Covers
import EcmaSyntax.Proofs.Errors
import EcmaSyntax.Proofs.Features
import EcmaSyntax.Proofs.Places.Placed
import EcmaSyntax.Proofs.Regions
import EcmaSyntax.Proofs.Spans
import EcmaSyntax.Proofs.Speculation
import EcmaSyntax.Proofs.Termination
import EcmaSyntax.Proofs.Transparency
import EcmaSyntax.Proofs.Texts
import EcmaSyntax.Proofs.Nesting
import EcmaSyntax.Proofs.Rights
import EcmaSyntax.Proofs.Towers
import EcmaSyntax.Proofs.Inertness
import EcmaSyntax.Proofs.Strictness
import EcmaSyntax.Proofs.TypeLevels
import EcmaSyntax.Proofs.Grouping
import EcmaSyntax.Proofs.Flat.Reading
import EcmaSyntax.Proofs.Token.Spaced
import EcmaSyntax.Proofs.LoopHeads
import EcmaSyntax.Proofs.Token.RegularExpression
import EcmaSyntax.Proofs.Token.Trivia
import EcmaSyntax.Proofs.Arguments
import EcmaSyntax.Proofs.Calls
import EcmaSyntax.Proofs.Children
import EcmaSyntax.Proofs.Callees
import EcmaSyntax.Proofs.Enclosure
import EcmaSyntax.Proofs.Exports
import EcmaSyntax.Proofs.Coverage
import EcmaSyntax.Proofs.Pointing
import EcmaSyntax.Proofs.Directives
import EcmaSyntax.Proofs.Repeats
import EcmaSyntax.Proofs.Positions
import EcmaSyntax.Proofs.Token.Names
import EcmaSyntax.Proofs.Token.Numerals
import EcmaSyntax.Proofs.Token.Punctuators
import EcmaSyntax.Proofs.Wording
import EcmaSyntax.Proofs.Gates
