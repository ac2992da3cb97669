import BytePattern.Proofs.Automaton.Cycles
import BytePattern.Proofs.Automaton.Table
import BytePattern.Proofs.Postorder.Inventory
import BytePattern.Proofs.Postorder.Recognition
import BytePattern.Proofs.Regex.Composition
import BytePattern.Proofs.Regex.Lenient
import BytePattern.Proofs.Regex.Meaning
import BytePattern.Proofs.Regex.Notices
import BytePattern.Proofs.Regex.Observation
import BytePattern.Proofs.Regex.Refusals
import BytePattern.Proofs.Regex.Rendering
import BytePattern.Proofs.Regex.Safety
import BytePattern.Proofs.Regex.Strict
import BytePattern.Proofs.Regex.Usefulness
import BytePattern.Proofs.Search.Ambiguity
import BytePattern.Proofs.Search.Discipline
import BytePattern.Proofs.Search.Termination
import BytePattern.Proofs.Search.Trail
import BytePattern.Proofs.Session
import BytePattern.Proofs.Text.Quoted
import BytePattern.Proofs.Token.Restoration
