import W5500Udp.Wrapping
import W5500Udp.Registers
import W5500Udp.Header
import W5500Udp.Io
import W5500Udp.Scope
import W5500Udp.Udp
import W5500Udp.Receive
import W5500Udp.Send
import W5500Udp.Independence
import W5500Udp.Framing
import W5500Udp.WriterStream
import W5500Udp.ReaderStream
import W5500Udp.Queue
import W5500Udp.Transmit
import W5500Udp.Delivery
import W5500Udp.Agreement
import W5500Udp.Halves
import W5500Udp.Lifecycle
import W5500Udp.Outgoing
