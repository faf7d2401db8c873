import Reckon.Frame
import Reckon.Grammar
import Reckon.Main
import Reckon.Proofs.Number.Bits
import Reckon.Proofs.Number.Nearest
import Reckon.Proofs.Number.Literal
import Reckon.Proofs.Number.Rounding
import Reckon.Proofs.Number.Magnitude
import Reckon.Proofs.Number.Fewest
import Reckon.Proofs.Number.Numeral
import Reckon.Proofs.Number.Special
import Reckon.Proofs.Except
import Reckon.Proofs.Scanning
import Reckon.Proofs.Plain
import Reckon.Proofs.Derivation
import Reckon.Proofs.Gaps
import Reckon.Proofs.Lexical
import Reckon.Proofs.Spelling
import Reckon.Proofs.Splitting
import Reckon.Proofs.Pending
import Reckon.Proofs.Ordering
import Reckon.Proofs.Balance
import Reckon.Proofs.Operands
import Reckon.Proofs.Listings
import Reckon.Proofs.Failures
import Reckon.Proofs.Meaning
import Reckon.Proofs.Acceptance
import Reckon.Proofs.Absorption
import Reckon.Proofs.Transparency
import Reckon.Proofs.Recency
import Reckon.Proofs.Eviction
import Reckon.Proofs.Grouping
import Reckon.Proofs.Substitution
import Reckon.Proofs.Glyphs
import Reckon.Proofs.Continuation
import Reckon.Proofs.Repetition
import Reckon.Proofs.Guard
import Reckon.Proofs.Keys
import Reckon.Proofs.Parentheses
import Reckon.Proofs.Outcomes
import Reckon.Proofs.Sequences
import Reckon.Proofs.Stretches
import Reckon.Proofs.Latest
import Reckon.Proofs.Respelling
import Reckon.Proofs.Lines
import Reckon.Proofs.Records
import Reckon.Proofs.Agreement
import Reckon.Proofs.Positions
import Reckon.Proofs.Fields
import Reckon.Proofs.Precedence
import Reckon.Proofs.Surplus
import Reckon.Proofs.Saved
import Reckon.Proofs.Frames
