import Recommender.Http.Server
import Recommender.Settings
import Recommender.Proofs.Truncation
import Recommender.Proofs.Exhaustion
import Recommender.Proofs.Choice
import Recommender.Proofs.Precedence
import Recommender.Proofs.Relevance
import Recommender.Proofs.Exact
import Recommender.Proofs.Reordering
import Recommender.Proofs.CatalogOrder
import Recommender.Proofs.Sharing
import Recommender.Proofs.Shelving
import Recommender.Proofs.Fetches
import Recommender.Proofs.Replies
import Recommender.Proofs.Spelling
import Recommender.Proofs.Identifiers
import Recommender.Proofs.Ledger
import Recommender.Proofs.Votes
import Recommender.Proofs.Enumeration
import Recommender.Proofs.Merit
import Recommender.Proofs.Bonuses
import Recommender.Proofs.WholeNumbers
import Recommender.Proofs.LikeCounts
import Recommender.Proofs.Uniformity
import Recommender.Proofs.Table
import Recommender.Proofs.Evidence
import Recommender.Proofs.WeightedMean
import Recommender.Proofs.Redundancy
import Recommender.Proofs.Assembly
import Recommender.Proofs.Paging
import Recommender.Proofs.Definedness
import Recommender.Proofs.RoundTrip
import Recommender.Proofs.Bodies
import Recommender.Proofs.Limits
import Recommender.Proofs.Loading
import Recommender.Proofs.Symmetry
import Recommender.Proofs.Angles
import Recommender.Proofs.Selection
import Recommender.Http.Message
