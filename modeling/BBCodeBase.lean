import BBCodeBase.SerialComm.Receiver
import BBCodeBase.SerialComm.Protocol
import BBCodeBase.SerialComm.Steps
import BBCodeBase.SerialComm.Conservation
import BBCodeBase.Foundation.RunCounter
import BBCodeBase.SerialComm.Frame
import BBCodeBase.SerialComm.Rejection
import BBCodeBase.SerialComm.Flush
import BBCodeBase.SerialComm.Session
import BBCodeBase.Sender.Packet
import BBCodeBase.Sender.Exchange
import BBCodeBase.Sender.Transfer
import BBCodeBase.Foundation.Rules
import BBCodeBase.Sender.Tasks
import BBCodeBase.Sender.Batches
import BBCodeBase.Foundation.Fragments
import BBCodeBase.Sender.Frames
import BBCodeBase.Sender.Quiet
import BBCodeBase.Sender.Network
import BBCodeBase.Foundation.BitPolynomial
import BBCodeBase.Foundation.ShiftRegister
import BBCodeBase.SerialComm.Acknowledgement
import BBCodeBase.SerialComm.Bounds
import BBCodeBase.SerialComm.Detection
import BBCodeBase.SerialComm.Records
import BBCodeBase.SerialComm.Timeouts
import BBCodeBase.SerialComm.Timer
import BBCodeBase.SerialComm.Silence
import BBCodeBase.Sender.Stdin
import BBCodeBase.WatchDog.Watch
import BBCodeBase.Foundation.CString
import BBCodeBase.Foundation.Decimal
import BBCodeBase.Foundation.SignExtension
import BBCodeBase.Sender.Calls
import BBCodeBase.Sender.HostName
import BBCodeBase.Sender.Receives
import BBCodeBase.Sender.Results
import BBCodeBase.Sender.Sockets
import BBCodeBase.SerialComm.DayFile
import BBCodeBase.SerialComm.DevName
import BBCodeBase.SerialComm.Signedness
import BBCodeBase.Foundation.Nesting
import BBCodeBase.SerialComm.Reentry
import BBCodeBase.Foundation.Gather
import BBCodeBase.Foundation.Pipe
import BBCodeBase.Pipeline.Batching
import BBCodeBase.Pipeline.Delivery
import BBCodeBase.Foundation.Reassembly
import BBCodeBase.Foundation.Reach
import BBCodeBase.Pipeline.Files
import BBCodeBase.Sender.Progress
import BBCodeBase.Sender.Addressing
import BBCodeBase.SerialComm.Refinement
import BBCodeBase.SerialComm.Visits
import BBCodeBase.WatchDog.Log
