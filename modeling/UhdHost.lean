import UhdHost.Types.TimeSpecTicks
import UhdHost.Rfnoc.CustomRegisterSpaces
import UhdHost.Rfnoc.ReplayPayload
import UhdHost.Rfnoc.CtrlportCredits
import UhdHost.Rfnoc.CtrlportSequence
import UhdHost.Rfnoc.ResyncCadence
import UhdHost.Rfnoc.RxDataXportCounts
import UhdHost.Rfnoc.CtrlSendPath
import UhdHost.Utils.ChdrPacket
import UhdHost.Transport.SendPacketHandler
import UhdHost.Rfnoc.MgmtPayloadSafety
import UhdHost.Transport.InlineRecvMuxFrames
import UhdHost.Transport.FrameCapacity
import UhdHost.Transport.InlineIoServiceRuns
import UhdHost.Transport.OffloadIoService
import UhdHost.Transport.TxStreamerPackets
import UhdHost.Transport.TimeChange
import UhdHost.Transport.RecvHandlerSafety
import UhdHost.Transport.RecvHandlerErrors
import UhdHost.Rfnoc.OverrunRecovery
import UhdHost.Rfnoc.MtuForwarding
import UhdHost.Rfnoc.PassWalk
import UhdHost.Convert.ConvertPackSc12
import UhdHost.Rfnoc.EdgeConsistency
import UhdHost.Rfnoc.TopoConnections
import UhdHost.Rfnoc.TopoQueries
import UhdHost.Rfnoc.MgmtDiscovery
import UhdHost.Rfnoc.EpidAllocator
import UhdHost.Rfnoc.TuneRequest
import UhdHost.Rfnoc.GraphUtils
import UhdHost.Rfnoc.GraphDisconnect
import UhdHost.Rfnoc.ActionDelivery
import UhdHost.Experts.ExpertRuns
import UhdHost.Experts.ExpertLocks
import UhdHost.Utils.PropertyTree
import UhdHost.Usrp.RadioCtrlCore
import UhdHost.Transport.RxFragmentTimes
import UhdHost.Rfnoc.CtrlportBulk
import UhdHost.Rfnoc.DramDownload
import UhdHost.Rfnoc.ReplayBuffers
import UhdHost.Usrp.GpioAtr
import UhdHost.Usrp.SpiCore
import UhdHost.Rfnoc.Switchboard
import UhdHost.Transport.TxEovPositions
import UhdHost.Rfnoc.SppResolver
import UhdHost.Utils.IhexReader
import UhdHost.Usrp.DspCore3000
import UhdHost.Utils.PropertyImpl
import UhdHost.Cal.Deserialize
import UhdHost.Transport.RecvHandlerReturns
import UhdHost.Usrp.ZbxFreqExpert
import UhdHost.Rfnoc.RateFactors
import UhdHost.Types.DeviceAddr
import UhdHost.Usrp.ZbxCpldCoherence
import UhdHost.Usrp.RecvPacketDemuxer3000
import UhdHost.Utils.GainGroup
import UhdHost.Cal.PwrCalLookup
import UhdHost.Usrp.Lmx2572Frequency
import UhdHost.Transport.BoundedBuffer
import UhdHost.Rfnoc.GraphCycles
import UhdHost.Utils.SoftRegister
import UhdHost.Usrp.DboardEeprom
