import PicoLan.Serialiser.RoundTrip
import PicoLan.Serialiser.OwnBytes
import PicoLan.Serialiser.Opening
import PicoLan.Serialiser.Errors
import PicoLan.Stream.Strangers
import PicoLan.Stream.Space
import PicoLan.Stream.Agreement
import PicoLan.Stream.Delivery
import PicoLan.Stream.Joining
import PicoLan.Stream.IdleHangUp
import PicoLan.Stream.Caller
import PicoLan.Stream.Segments
import PicoLan.Stream.Memory
import PicoLan.Stream.Classes
import PicoLan.Datagram
import PicoLan.Unbinding
import PicoLan.Ping
import PicoLan.Host.Connection
import PicoLan.Host.Enquiry
import PicoLan.Host.Lifecycle
import PicoLan.Host.Quiet
import PicoLan.Host.Channel
import PicoLan.Host.Timeouts
import PicoLan.Host.Progress
import PicoLan.Host.Barren
import PicoLan.Host.Healing
