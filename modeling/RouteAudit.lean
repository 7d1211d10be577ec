import RouteAudit.Analysis.Script
import RouteAudit.Command.Run
import RouteAudit.Main
import RouteAudit.Proofs.Cache.Reopening
import RouteAudit.Proofs.Analysis.Independence
import RouteAudit.Proofs.Risk.Monotone
import RouteAudit.Proofs.Remedy.Log
import RouteAudit.Proofs.Store.Latest
import RouteAudit.Proofs.Store.Pending
import RouteAudit.Proofs.Pattern.Translation
import RouteAudit.Proofs.Store.Reading
import RouteAudit.Proofs.Remedy.Listing
import RouteAudit.Proofs.Pattern.Captures
import RouteAudit.Proofs.Remedy.Compiling
import RouteAudit.Proofs.Gate.RoundTrip
import RouteAudit.Proofs.Pattern.Facts
import RouteAudit.Proofs.Pattern.Blame
import RouteAudit.Proofs.Risk.Bodies
import RouteAudit.Proofs.Analysis.Knowledge
import RouteAudit.Proofs.Remedy.Targets
import RouteAudit.Proofs.Remedy.Params
import RouteAudit.Proofs.Analysis.Accounting
import RouteAudit.Proofs.Gate.Comparison
import RouteAudit.Proofs.Store.Faults
import RouteAudit.Proofs.Cache.Timeouts
import RouteAudit.Proofs.Cache.Failures
import RouteAudit.Proofs.Cache.Lookups
import RouteAudit.Proofs.Gate.Drift
import RouteAudit.Proofs.Pattern.Isolation
