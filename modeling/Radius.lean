import Radius.Main
import Radius.Proofs.SendReceive
import Radius.Proofs.Resend
import Radius.Proofs.MarkLoss
import Radius.Proofs.Grouping
import Radius.Proofs.Signing
import Radius.Proofs.SendLimits
import Radius.Proofs.FrameGrammar
import Radius.Proofs.Spelling
import Radius.Proofs.WireLayout
import Radius.Proofs.Adjacency
import Radius.Proofs.TableHistory
import Radius.Proofs.Placement
import Radius.Proofs.TagBoundary
import Radius.Proofs.Leftovers
import Radius.Proofs.Secrecy
import Radius.Proofs.SaltedBlocks
import Radius.Proofs.ValueBounds
import Radius.Proofs.TreeGrammar
import Radius.Proofs.Reassembly
import Radius.Proofs.NamedNumbers
import Radius.Proofs.AuthenticatorSearch
import Radius.Proofs.Worklist
import Radius.Proofs.Headroom
import Radius.Proofs.Verdict
import Radius.Proofs.CanonicalPrefix
import Radius.Proofs.PathText
import Radius.Proofs.Construction
import Radius.Proofs.SharedIdentifiers
import Radius.Proofs.DefinitionLookup
import Radius.Proofs.KeyedBlocks
import Radius.Proofs.DeclaredLengths
import Radius.Proofs.SealedField
