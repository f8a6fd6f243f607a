import Stencil.Node.Outline
import Stencil.Service
import Stencil.Main
import Stencil.Proofs.Strictness
import Stencil.Proofs.Inheritance
import Stencil.Proofs.Escaping
import Stencil.Proofs.Sessions
import Stencil.Proofs.Rescanning
import Stencil.Proofs.Reparsing
import Stencil.Proofs.Precedence
import Stencil.Proofs.Fallback
import Stencil.Proofs.Sequences
import Stencil.Proofs.Verbatim
import Stencil.Proofs.Progress
import Stencil.Proofs.WellScoped
import Stencil.Proofs.PlainData
import Stencil.Proofs.Confinement
import Stencil.Proofs.Candidates
import Stencil.Proofs.Emitting
import Stencil.Proofs.Probing
import Stencil.Proofs.Cursor
