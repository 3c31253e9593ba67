import QuicLite.Relay.Advance
import QuicLite.Relay.Transactions
import QuicLite.Relay.Forward
import QuicLite.Callback.Delivery
import QuicLite.Endpoint.Replay
import QuicLite.Endpoint.Budget
import QuicLite.Pool.Completions
import QuicLite.Pool.Fixed
import QuicLite.Circuit
import QuicLite.Node.FailedWrites
import QuicLite.Node.Agreement
import QuicLite.Uart.Pooled
import QuicLite.Tun.PacketOwned
import QuicLite.Mesh.Reputation
import QuicLite.Discovery.Crawl
import QuicLite.Nan.Follower
import QuicLite.Nan.Forwarding
import QuicLite.Runtime.Convergence
import QuicLite.Profile.Updates
import QuicLite.Profile.Restore
import QuicLite.Relay.Opening
import QuicLite.Android.Dialect
import QuicLite.Nan.Bearer
import QuicLite.Bearer.Framed
import QuicLite.Bearer.PeerTable
import QuicLite.Bearer.CallbackSlots
import QuicLite.Bearer.ReadyMailbox
import QuicLite.Registry.Directed
import QuicLite.Stream.Agreement
import QuicLite.Credit
import QuicLite.Coverage
import QuicLite.Relay.Quota
import QuicLite.Relay.Resets
import QuicLite.Rates
import QuicLite.Endpoint.Refused
import QuicLite.Android.Spake2
import QuicLite.Tun.Admission
import QuicLite.Tun.HalfClose
import QuicLite.Store.Frames
import QuicLite.Connectionless
import QuicLite.Nan.Windows
import QuicLite.Nan.ServiceQuery
import QuicLite.LogWatch
import QuicLite.Probe
import QuicLite.Settings
import QuicLite.Android.PublicKey
