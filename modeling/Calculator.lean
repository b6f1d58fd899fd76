import Calculator.Main
import Calculator.Proofs.Arities
import Calculator.Proofs.Calls
import Calculator.Proofs.Caps
import Calculator.Proofs.Division
import Calculator.Proofs.Lookups
import Calculator.Proofs.Maclaurin
import Calculator.Proofs.Nesting
import Calculator.Proofs.Oddness
import Calculator.Proofs.Powers
import Calculator.Proofs.Reduction
import Calculator.Proofs.Renderings
import Calculator.Proofs.Responses
import Calculator.Proofs.Results
import Calculator.Proofs.Stretches
import Calculator.Proofs.Tolerances
import Calculator.Proofs.WholeRoots
