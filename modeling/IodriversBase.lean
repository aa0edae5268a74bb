import IodriversBase.Library.Lts
import IodriversBase.Library.Loop
import IodriversBase.Library.Framing
import IodriversBase.Library.Scanning
import IodriversBase.Stream
import IodriversBase.Recording
import IodriversBase.Timeout
import IodriversBase.Driver
import IodriversBase.Extraction
import IodriversBase.Reading
import IodriversBase.RawReading
import IodriversBase.Writing
import IodriversBase.Packets
import IodriversBase.Worlds
import IodriversBase.Termination
import IodriversBase.Calls
import IodriversBase.Descriptors
import IodriversBase.Samples
import IodriversBase.Reassembly
import IodriversBase.Bounds
import IodriversBase.Accounting
import IodriversBase.FullBuffer
import IodriversBase.Chunking
import IodriversBase.Conservation
import IodriversBase.Bus
import IodriversBase.Forward
import IodriversBase.ForwardPackets
import IodriversBase.Replacement
import IodriversBase.Announcements
import IodriversBase.DatagramErrors
import IodriversBase.DatagramWrites
import IodriversBase.Deadlines
import IodriversBase.ErrorReports
import IodriversBase.Failures
import IodriversBase.ForwardEof
import IodriversBase.Grammar
import IodriversBase.UDPOptions
import IodriversBase.SharedMode
import IodriversBase.TestStream
import IodriversBase.MockContexts
import IodriversBase.Traffic
import IodriversBase.BusyDevice
import IodriversBase.Clients
import IodriversBase.Peers
import IodriversBase.UnixServer
import IodriversBase.Objects
import IodriversBase.ForwardDescriptors
import IodriversBase.Clearing
import IodriversBase.Mirror
import IodriversBase.ExactWrites
import IodriversBase.Observing
import IodriversBase.RawDeadlines
import IodriversBase.TimeoutTypes
import IodriversBase.DatagramWaits
import IodriversBase.Notifications
import IodriversBase.LegacyUDP
import IodriversBase.OpenURI
import IodriversBase.SerialBaudrate
import IodriversBase.TimeoutViews
import IodriversBase.WriteWaits
import IodriversBase.FoundPackets
import IodriversBase.Delivery
import IodriversBase.Relay
import IodriversBase.SerialSettings
import IodriversBase.Opening
import IodriversBase.Ownership
import IodriversBase.Owners
import IodriversBase.DescriptorRuns
import IodriversBase.FailedOpenings
import IodriversBase.Cat
import IodriversBase.Printing
import IodriversBase.Addresses
import IodriversBase.SerialOpenings
import IodriversBase.Dialogues
