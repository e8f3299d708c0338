import Wikijump.Deepwell.Model
import Wikijump.Deepwell.Query
import Wikijump.Deepwell.Service
import Wikijump.Deepwell.Ledger
import Wikijump.Deepwell.Changes
import Wikijump.Deepwell.Runs
import Wikijump.Deepwell.Concurrency
import Wikijump.Deepwell.InFlight
import Wikijump.Deepwell.Redaction
import Wikijump.Deepwell.RowOrder
import Wikijump.Deepwell.Authentication
import Wikijump.Ftml.Typography
import Wikijump.Ftml.Surround
import Wikijump.Ftml.Ellipsis
import Wikijump.Ftml.Idempotence
import Wikijump.Ftml.Termination
import Wikijump.Ftml.Pieces
import Wikijump.Ftml.Factorization
import Wikijump.Ftml.Lines
