import Criteria.Main
import Criteria.Proofs.Combination
import Criteria.Proofs.Rule.Cache
import Criteria.Proofs.Service.Idle
import Criteria.Proofs.Store.Persistence
import Criteria.Proofs.Store.History
import Criteria.Proofs.Store.LastWrite
import Criteria.Proofs.Service.Combined
import Criteria.Proofs.Formula.Place
import Criteria.Proofs.Service.Position
import Criteria.Proofs.Text.Utf8
import Criteria.Proofs.Combination.Refusal
import Criteria.Proofs.Service.Status
import Criteria.Proofs.Record.Loss
import Criteria.Proofs.Formula.Trace
import Criteria.Proofs.Rule.Grounds
import Criteria.Proofs.Program
import Criteria.Proofs.Rule.Fields
import Criteria.Proofs.Record.Spelling
import Criteria.Proofs.Comparison
import Criteria.Proofs.Token.Cover
import Criteria.Proofs.Formula.Limits
import Criteria.Proofs.Formula.FirstFault
import Criteria.Proofs.Formula.Spacing
import Criteria.Proofs.Formula.Expressible
import Criteria.Proofs.Formula.Encoding
import Criteria.Proofs.Store.Listing
import Criteria.Proofs.Store.Batch
import Criteria.Proofs.Store.Versions
import Criteria.Proofs.Settings.Precedence
import Criteria.Proofs.Grammar.Bookkeeping
import Criteria.Proofs.LogFilter
import Criteria.Proofs.LogFilter.Pattern
