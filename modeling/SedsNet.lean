import SedsNet.HopReceiver
import SedsNet.SideSync
import SedsNet.RetryHistory
import SedsNet.SchemaConflict
import SedsNet.DeferredTurn
import SedsNet.HopOwnership
import SedsNet.EndToEndDelivery
import SedsNet.NodeConvergence
import SedsNet.LeaderElection
import SedsNet.TimeSyncChallenge
import SedsNet.CodecPermission
import SedsNet.StoreSafety
import SedsNet.StreamFidelity
import SedsNet.RegistryAgreement
import SedsNet.WireSize
import SedsNet.SoftwareTag
import SedsNet.HopWrap
import SedsNet.Datagram
import SedsNet.ChunkAccounting
import SedsNet.SplitHorizon
import SedsNet.RouteSelection
import SedsNet.ManagedVariables
import SedsNet.TypeStats
