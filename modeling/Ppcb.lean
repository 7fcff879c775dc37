import Ppcb.Lib.Strtoul
import Ppcb.Programs
import Ppcb.Delivery
import Ppcb.LossyTransfer
import Ppcb.Lib.Machine
import Ppcb.Lib.Duplex
import Ppcb.Lib.ByteOrder
import Ppcb.Lib.CString
import Ppcb.PacketStructures
import Ppcb.Lib.Codec
import Ppcb.HeaderCodec
import Ppcb.MyVec
import Ppcb.MyVecSpec
import Ppcb.HelperFunc
import Ppcb.ClientUDPR
import Ppcb.ClientUDP
import Ppcb.ServerUDP
import Ppcb.SendLoops
import Ppcb.ClientSpec
import Ppcb.ServerSpec
import Ppcb.Transfer
import Ppcb.Sessions
import Ppcb.Agreement
import Ppcb.AgreementUDPR
import Ppcb.AgreementUDP
import Ppcb.LosslessRun
import Ppcb.Staleness
import Ppcb.FinishedTransfer
import Ppcb.Budget
import Ppcb.ClientNoninterference
import Ppcb.ServerNoninterference
import Ppcb.ReplyDestination
import Ppcb.Transparency
import Ppcb.Lib.Inevitable
import Ppcb.Lib.Connection
import Ppcb.Common
import Ppcb.ServerTCP
import Ppcb.ServerTCPSpec
import Ppcb.SessionGrammar
import Ppcb.ClientTCP
import Ppcb.ClientTCPSpec
import Ppcb.TCPTransfer
import Ppcb.Judgement
import Ppcb.Reception
import Ppcb.ReceiversAgree
import Ppcb.Progress
import Ppcb.StrayData
import Ppcb.Shutdown
import Ppcb.SendTermination
import Ppcb.Lib.History
import Ppcb.Overrun
import Ppcb.FaithfulVector
import Ppcb.Lib.Extension
import Ppcb.ExactAcceptance
import Ppcb.UnreceivedBytes
import Ppcb.HeaderVerdicts
import Ppcb.DecidedReactions
import Ppcb.ReliablePipe
import Ppcb.ConnectionDiscipline
import Ppcb.SessionAccounting
import Ppcb.Lib.Stutter
import Ppcb.PacketSequence
import Ppcb.TrafficBound
import Ppcb.Lib.Channel
import Ppcb.StreamDiscipline
import Ppcb.ConnectionSoundness
import Ppcb.TCPAgreement
import Ppcb.TCPService
import Ppcb.Lib.Crowd
import Ppcb.SharedServer
import Ppcb.DatagramClient
import Ppcb.CrowdAgreement
import Ppcb.Lib.Script
import Ppcb.Lib.Lossy
import Ppcb.Lib.StopAndWait
import Ppcb.Lib.Queue
import Ppcb.DatagramScripts
import Ppcb.DatagramTransfer
import Ppcb.DatagramService
import Ppcb.Lib.SentOnce
import Ppcb.AllOrNothing
