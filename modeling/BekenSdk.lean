import BekenSdk.KeyValue.Atomicity
import BekenSdk.KeyValue.Confinement
import BekenSdk.KeyValue.RepInvariant
import BekenSdk.RoleLaunch.Ownership
import BekenSdk.RoleLaunch.Exclusion
import BekenSdk.Amsdu.Inverse
import BekenSdk.RxReorder.Order
import BekenSdk.TxBuffering.Order
import BekenSdk.VideoBuffer.Delivery
import BekenSdk.SdCard.Continuous
import BekenSdk.SdioHost.Writes
import BekenSdk.RwMsg.Confirms
import BekenSdk.ScanResults.Lifetime
import BekenSdk.NetParam.Refinement
import BekenSdk.DrvModel.Counts
import BekenSdk.SdioNodes.Bounds
import BekenSdk.AtServer.Framing
import BekenSdk.BleApp.Bookkeeping
import BekenSdk.PowerSave.SleepState
import BekenSdk.LvPs.Wakeups
import BekenSdk.Tftp.Transfer
import BekenSdk.ScanResults.Hostapd
import BekenSdk.LvPs.Timing
import BekenSdk.Heap.Reallocation
import BekenSdk.Timers.Deletion
import BekenSdk.Flash.PageWrites
import BekenSdk.Flash.OtpReads
import BekenSdk.Base64.Bounds
import BekenSdk.Rtc.MkTime
import BekenSdk.BleApp.Connections
import BekenSdk.TempDetect.Going
import BekenSdk.Fifo.Kfifo
import BekenSdk.Audio.RingBuffer
import BekenSdk.Audio.DmaWrite
import BekenSdk.FakeClock.Clock
import BekenSdk.RwMsdu.StaLookup
import BekenSdk.KeyValue.Staging
import BekenSdk.VideoBuffer.Bounds
import BekenSdk.VideoTransfer.Conservation
import BekenSdk.AtServer.ArgumentBounds
import BekenSdk.AtServer.Registry
import BekenSdk.NetParam.Corrupt
import BekenSdk.ScanResults.Brief
import BekenSdk.RwMsdu.TxRetry
import BekenSdk.SpiFlash.Writes
import BekenSdk.SpiFlash.Erasing
import BekenSdk.PingPong.HandOver
import BekenSdk.Rtc.TimeReads
import BekenSdk.HwTimer.Periods
import BekenSdk.I2c2.Bounds
import BekenSdk.SdioIntf.Ownership
import BekenSdk.HttpOta.Agreement
import BekenSdk.TextConv.Bounds
import BekenSdk.SdioSlave.Levels
import BekenSdk.SdioSlave.Stream
import BekenSdk.SdioSlave.Splices
import BekenSdk.SdioNodes.Busy
import BekenSdk.FlashBypass.Alignment
import BekenSdk.Irda.Presses
import BekenSdk.Sdp.Database
import BekenSdk.SaradcIntf.Credit
import BekenSdk.ForceSleep.Arithmetic
import BekenSdk.SpiMaster.Completion
import BekenSdk.SpiSlave.Refinement
import BekenSdk.OsTimers.Oneshot
import BekenSdk.Kernel.Wakeups
