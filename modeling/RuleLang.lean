import RuleLang.Main
import RuleLang.Proofs.Outcome
import RuleLang.Proofs.Postorder
import RuleLang.Proofs.Simulation
import RuleLang.Proofs.EngineAgreement
import RuleLang.Proofs.InfixGrammar
import RuleLang.Proofs.Reordering
import RuleLang.Proofs.ReorderingSteps
import RuleLang.Proofs.Reading
import RuleLang.Proofs.Parentheses
import RuleLang.Proofs.ParenthesisFaults
import RuleLang.Proofs.OperatorStack
import RuleLang.Proofs.Acceptance
import RuleLang.Proofs.Conservation
import RuleLang.Proofs.KindInference
import RuleLang.Proofs.DigitRuns
import RuleLang.Proofs.NumeralText
import RuleLang.Proofs.NumeralRange
import RuleLang.Proofs.MomentText
import RuleLang.Proofs.ArrayText
import RuleLang.Proofs.Classification
import RuleLang.Proofs.LexemeForms
import RuleLang.Proofs.Seams
import RuleLang.Proofs.Literals
import RuleLang.Proofs.Printing
import RuleLang.Proofs.Composition
import RuleLang.Proofs.Scales
import RuleLang.Proofs.Spelling
import RuleLang.Proofs.Rounding
import RuleLang.Proofs.Arithmetic
import RuleLang.Proofs.Results
import RuleLang.Proofs.JsonSpelling
import RuleLang.Proofs.Membership
import RuleLang.Proofs.Batch
import RuleLang.Proofs.InputLines
import RuleLang.Proofs.JsonReading
import RuleLang.Proofs.ArrayReadings
import RuleLang.Proofs.Lookahead
import RuleLang.Proofs.TokenWalk
import RuleLang.Proofs.Spacing
import RuleLang.Proofs.NumeralOrder
import RuleLang.Proofs.MomentOrder
import RuleLang.Proofs.Diagnostics
import RuleLang.Proofs.JsonLines
import RuleLang.Proofs.PlainLines
