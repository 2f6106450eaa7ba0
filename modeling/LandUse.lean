import LandUse.Main
import LandUse.Nl.Writer
import LandUse.Proofs.Catalog.Lengths
import LandUse.Proofs.Equation.Coherence
import LandUse.Proofs.Expansion.Termination
import LandUse.Proofs.Expansion.Tuples
import LandUse.Proofs.Grammar.Located
import LandUse.Proofs.Linear.Folding
import LandUse.Proofs.Nl.Consistency
import LandUse.Proofs.Problem.Agreement
import LandUse.Proofs.Problem.Allocation
import LandUse.Proofs.Problem.Export
import LandUse.Proofs.Problem.Validation
import LandUse.Proofs.Problem.Zones
import LandUse.Proofs.Reversal.Ranges
import LandUse.Proofs.Reversal.Twice
import LandUse.Proofs.Grammar.Scanning
import LandUse.Proofs.Table.Quoting
