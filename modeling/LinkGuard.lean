import LinkGuard.CommandLine.Course
import LinkGuard.Main
import LinkGuard.Proofs.Counter.Foretold
import LinkGuard.Proofs.Counter.Ledger
import LinkGuard.Proofs.Gate.AllOrNothing
import LinkGuard.Proofs.Gate.Cap
import LinkGuard.Proofs.Gate.Lifetime
import LinkGuard.Proofs.Limiter.Backends
import LinkGuard.Proofs.Limiter.FailClosed
import LinkGuard.Proofs.Limiter.Hold
import LinkGuard.Proofs.Limiter.Interleaved
import LinkGuard.Proofs.Limiter.Others
import LinkGuard.Proofs.Limiter.Promise
import LinkGuard.Proofs.Limiter.Quota
import LinkGuard.Proofs.Limiter.Raised
import LinkGuard.Proofs.Limiter.Retry
import LinkGuard.Proofs.Limiter.Stuck
import LinkGuard.Proofs.Site.Spaces
import LinkGuard.Proofs.Token.Forgery
import LinkGuard.Proofs.Token.RoundTrip
import LinkGuard.Proofs.Token.Verdict
import LinkGuard.Settings.Json
import LinkGuard.Settings.Yaml
import LinkGuard.Proofs.Counter.Calendar
import LinkGuard.Proofs.Limiter.Standing
import LinkGuard.Proofs.Crypto.Hmac
import LinkGuard.Proofs.Token.Refused
import LinkGuard.Proofs.Settings.Fields
import LinkGuard.Proofs.Settings.RoundTrip
import LinkGuard.Proofs.Settings.Edited
import LinkGuard.Proofs.Settings.Loaders
import LinkGuard.Proofs.Settings.Sentinel
import LinkGuard.Proofs.Settings.Told
import LinkGuard.Proofs.Settings.Validated
