import OPCUAPacking.Interleaving.Protocol
import OPCUAPacking.Interleaving.Execution
import OPCUAPacking.Impl.GiveUp
import OPCUAPacking.Impl.CallbackWrites
import OPCUAPacking.Impl.DroppedProbes
import OPCUAPacking.Impl.LastRead
import OPCUAPacking.Impl.Promotion
import OPCUAPacking.Impl.SingleFlight
import OPCUAPacking.Impl.Visible
import OPCUAPacking.Impl.Recovery
import OPCUAPacking.Impl.Session
import OPCUAPacking.Impl.Window
import OPCUAPacking.Impl.Teardown
import OPCUAPacking.Impl.Agreement
import OPCUAPacking.Conversion
import OPCUAPacking.Impl.Overlap
import OPCUAPacking.Validation
import OPCUAPacking.Impl.Bounds
import OPCUAPacking.Impl.Encoding
import OPCUAPacking.Impl.ReadItems
import OPCUAPacking.Impl.Backoff
import OPCUAPacking.Impl.Deadline
import OPCUAPacking.Impl.Budget
import OPCUAPacking.Client.Termination
import OPCUAPacking.Client.Custody
import OPCUAPacking.Client.Deals
import OPCUAPacking.Client.Ownership
import OPCUAPacking.Client.Lifetime
import OPCUAPacking.Client.Balance
import OPCUAPacking.Client.Writes
import OPCUAPacking.Client.Succession
