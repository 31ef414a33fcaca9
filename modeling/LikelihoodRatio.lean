import LikelihoodRatio.Decimal.Rounding
import LikelihoodRatio.Outcome.Document
import LikelihoodRatio.Settings.Document
import LikelihoodRatio.Tally
import LikelihoodRatio.TwoSample
import LikelihoodRatio.Proofs.Tally.Counting
import LikelihoodRatio.Proofs.Checks
import LikelihoodRatio.Proofs.Fourfold.Basic
import LikelihoodRatio.Proofs.Tally.Table
import LikelihoodRatio.Proofs.Tally.Ranking
import LikelihoodRatio.Proofs.Tally.History
import LikelihoodRatio.Proofs.Exact.Basic
import LikelihoodRatio.Proofs.Exact.Gibbs
import LikelihoodRatio.Proofs.Exact.Fourfold
import LikelihoodRatio.Proofs.Table.Basic
import LikelihoodRatio.Proofs.Table.Validity
import LikelihoodRatio.Proofs.Exact.Entropy
import LikelihoodRatio.Proofs.Exact.Bounds
import LikelihoodRatio.Proofs.Exact.Fit
import LikelihoodRatio.Proofs.Binary64.Packing
import LikelihoodRatio.Proofs.Binary64.Doubling
import LikelihoodRatio.Proofs.Decision
import LikelihoodRatio.Proofs.Table.Decision
import LikelihoodRatio.Proofs.Screening
import LikelihoodRatio.Proofs.Fit.Decision
import LikelihoodRatio.Proofs.Refusals
import LikelihoodRatio.Proofs.Finite.Statistic
import LikelihoodRatio.Proofs.Exact.Tally
import LikelihoodRatio.Proofs.Binary64.Sign
import LikelihoodRatio.Proofs.Binary64.Lossless
import LikelihoodRatio.Proofs.Fourfold.Rounding
import LikelihoodRatio.Proofs.Failures
import LikelihoodRatio.Proofs.Table.Failures
import LikelihoodRatio.Proofs.Binary64.Scientific
import LikelihoodRatio.Proofs.Binary64.Fields
import LikelihoodRatio.Proofs.Decimal.Shortest
import LikelihoodRatio.Proofs.Json.Numeral
import LikelihoodRatio.Proofs.Json.Grammar
import LikelihoodRatio.Proofs.Json.Scanners
import LikelihoodRatio.Proofs.Json.Reader
import LikelihoodRatio.Proofs.Document
import LikelihoodRatio.Proofs.Fit.Failures
import LikelihoodRatio.Proofs.TwoSample
import LikelihoodRatio.Proofs.Fourfold.Marginals
import LikelihoodRatio.Proofs.Exact.FitSign
import LikelihoodRatio.Proofs.Exact.ExpectedCounts
import LikelihoodRatio.Proofs.Fourfold.Checked
import LikelihoodRatio.Proofs.Table.RowMajor
import LikelihoodRatio.Proofs.Settings
import LikelihoodRatio.Proofs.Binary64.Zeros
import LikelihoodRatio.Proofs.Table.Sums
import LikelihoodRatio.Proofs.Guarded
import LikelihoodRatio.Proofs.Table.Omission
import LikelihoodRatio.Proofs.Table.Vacant
import LikelihoodRatio.Proofs.Screening.Loop
import LikelihoodRatio.Proofs.Decimal.Plain
import LikelihoodRatio.Proofs.Messages
