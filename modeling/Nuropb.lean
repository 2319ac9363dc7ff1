import Nuropb.Library.Transition
import Nuropb.Library.Dict
import Nuropb.Library.Chunked
import Nuropb.Library.Assembly
import Nuropb.Library.Text
import Nuropb.Python.Value
import Nuropb.Patterns.Serving
import Nuropb.Protocol.ContentHeader
import Nuropb.Protocol.Methods
import Nuropb.Config.QueueProfile
import Nuropb.Library.Stateful
import Nuropb.Transport.AllOrNothing
import Nuropb.Protocol.StateMachines
import Nuropb.Transport.Framing
import Nuropb.Transport.Tasks
import Nuropb.Transport.ConfirmSoundness
import Nuropb.Transport.ReplyMatching
import Nuropb.Transport.ReturnAttribution
import Nuropb.Transport.Receive
import Nuropb.Transport.ContentAssembly
import Nuropb.Transport.TableDepth
import Nuropb.Transport.ChannelClose
import Nuropb.Transport.Release
import Nuropb.Sessions.FailFast
import Nuropb.Protocol.HeaderRoundTrip
import Nuropb.Protocol.DecodeErrors
import Nuropb.Protocol.Truncation
import Nuropb.Patterns.Mesh
import Nuropb.Transport.Extents
import Nuropb.Transport.FieldGrammar
import Nuropb.Transport.Blocking
import Nuropb.Patterns.OwnDeliveries
import Nuropb.Sessions.Owners
import Nuropb.Sessions.Replies
import Nuropb.Patterns.Verdict
import Nuropb.Patterns.AlgorithmOrder
import Nuropb.Patterns.Acl
import Nuropb.Patterns.Names
import Nuropb.Patterns.Disclosure
import Nuropb.Patterns.Events
import Nuropb.Patterns.RegistryViewer
import Nuropb.Patterns.DlqTimeout
import Nuropb.Sessions.Residue
import Nuropb.Sessions.ParkMode
import Nuropb.Sessions.Backoff
import Nuropb.Transport.DecimalFields
import Nuropb.Transport.Resending
import Nuropb.Transport.FirstCovering
import Nuropb.Protocol.HandshakeHistory
import Nuropb.Transport.ProfileQueues
import Nuropb.Transport.OpenChannel
import Nuropb.Sessions.Finality
import Nuropb.Sessions.Lock
import Nuropb.Sessions.Recovery
import Nuropb.Sessions.WakeUps
import Nuropb.Patterns.RemoteCall
import Nuropb.Python.JsonAscii
import Nuropb.Patterns.RegistryWire
