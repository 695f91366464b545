import Precedence.Main
import Precedence.Proofs.Phrase
import Precedence.Proofs.Strata
import Precedence.Proofs.Locality
import Precedence.Proofs.OperatorTable
import Precedence.Proofs.ViablePrefix
import Precedence.Proofs.Blame
import Precedence.Proofs.Splitting
import Precedence.Proofs.Limit
import Precedence.Proofs.Yield
import Precedence.Proofs.Caret
import Precedence.Proofs.Respell
import Precedence.Proofs.Replay
import Precedence.Proofs.Extension
import Precedence.Proofs.Operation
import Precedence.Proofs.LongestMatch
import Precedence.Proofs.Parentheses
import Precedence.Proofs.Session
import Precedence.Proofs.Floor
import Precedence.Proofs.Machine
import Precedence.Proofs.Levels
import Precedence.Proofs.LeftChain
import Precedence.Proofs.Termination
import Precedence.Proofs.Exhaustion
import Precedence.Proofs.Rendering
import Precedence.Proofs.UniqueReading
import Precedence.Proofs.LineLookup
import Precedence.Proofs.Layout
import Precedence.Proofs.Benchmark
