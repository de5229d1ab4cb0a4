import TrainsAndTracks.Schema.Ingress
import TrainsAndTracks.Schema.RequestHash
import TrainsAndTracks.Admission.Windows
import TrainsAndTracks.Admission.RetryAfter
import TrainsAndTracks.Admission.Chaos
import TrainsAndTracks.Admission.Simulate
import TrainsAndTracks.Store.Orphans
import TrainsAndTracks.Store.Holds
import TrainsAndTracks.Store.Conflicts
import TrainsAndTracks.Store.Charges
import TrainsAndTracks.Store.Picks
import TrainsAndTracks.Store.Sweeps
import TrainsAndTracks.Store.Reexecution
import TrainsAndTracks.Store.RowByRow
import TrainsAndTracks.Pipeline.Intent
import TrainsAndTracks.Pipeline.Refusal
import TrainsAndTracks.Pipeline.Recovery
import TrainsAndTracks.Pipeline.Handler
import TrainsAndTracks.Pipeline.Reset
import TrainsAndTracks.Pipeline.OtherTrains
import TrainsAndTracks.Pipeline.Budget
import TrainsAndTracks.Pipeline.ManualRetry
import TrainsAndTracks.Pipeline.Stuck
import TrainsAndTracks.Pipeline.Requeue
import TrainsAndTracks.Pipeline.Reasons
import TrainsAndTracks.Pipeline.Books
import TrainsAndTracks.Pipeline.Provenance
import TrainsAndTracks.Pipeline.LocalQueue
import TrainsAndTracks.Pipeline.Drain
import TrainsAndTracks.Admission.DepthGate
import TrainsAndTracks.Admission.Surge
