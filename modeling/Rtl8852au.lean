import Rtl8852au.AidAlloc
import Rtl8852au.BcnOffset
import Rtl8852au.C2hParse
import Rtl8852au.ChanCtxChk
import Rtl8852au.ChanCtxLinks
import Rtl8852au.CmdOfldRun
import Rtl8852au.CsiBuf
import Rtl8852au.DataCtrlOwned
import Rtl8852au.DispatcherHandle
import Rtl8852au.DispatcherLanesStep
import Rtl8852au.DispatcherModules
import Rtl8852au.DispatcherSilent
import Rtl8852au.EfuseChecksum
import Rtl8852au.EfuseRecovery
import Rtl8852au.EfuseState
import Rtl8852au.FwDownloadSound
import Rtl8852au.H2cAggTx
import Rtl8852au.MacidPause
import Rtl8852au.MccDurLim
import Rtl8852au.MccLifecycle
import Rtl8852au.MccWorse
import Rtl8852au.MrTsfSync
import Rtl8852au.OfldAckHeard
import Rtl8852au.OfldRecovery
import Rtl8852au.P2pMergeSound
import Rtl8852au.P2ppsNoa
import Rtl8852au.PhlPktOfldKept
import Rtl8852au.PhyRpt
import Rtl8852au.PpduStsLane
import Rtl8852au.RateFilterSound
import Rtl8852au.RecvAmsdu
import Rtl8852au.RecvLength
import Rtl8852au.RecvOwnership
import Rtl8852au.RecvProtect
import Rtl8852au.RecvReassembly
import Rtl8852au.RecvReplay
import Rtl8852au.ReorderRelease
import Rtl8852au.RingsRecv
import Rtl8852au.RoleChange
import Rtl8852au.RoleTable
import Rtl8852au.RsnSpp
import Rtl8852au.RsnSuites
import Rtl8852au.RxBaStart
import Rtl8852au.Ser
import Rtl8852au.SleepQDelivery
import Rtl8852au.SoundingOwned
import Rtl8852au.StaTableSearch
import Rtl8852au.TkipMicAgree
import Rtl8852au.TrxDesc
import Rtl8852au.TwtSound
import Rtl8852au.TwtWake
import Rtl8852au.TxFlowMoved
import Rtl8852au.TxFragSound
import Rtl8852au.TxReassembly
import Rtl8852au.UsbRxConserve
import Rtl8852au.UsbRxSlices
import Rtl8852au.UsbTxAggExact
import Rtl8852au.UsbTxAggFailed
import Rtl8852au.UsbTxAggLayout
import Rtl8852au.WepTkip
import Rtl8852au.WifiRoleKept
import Rtl8852au.ReorderConserve
