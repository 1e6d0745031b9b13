import RttNmea.Push
import RttNmea.Ledger
import RttNmea.SatTable
import RttNmea.Once
import RttNmea.Delivery
import RttNmea.Resync
import RttNmea.ParseLib
import RttNmea.NullFields
import RttNmea.Corruption
import RttNmea.FixStatus
import RttNmea.SatUse
import RttNmea.SlotArith
import RttNmea.Checksum
import RttNmea.TimeBuff
import RttNmea.RmcShift
import RttNmea.Recovery
import RttNmea.Fifo
import RttNmea.ScanReads
import RttNmea.PushMemory
import RttNmea.GsvCycle
import RttNmea.Sections
import RttNmea.GpsCycle
import RttNmea.GsvMessage
import RttNmea.TimeRange
import RttNmea.ConvertTime
import RttNmea.GenFlags
import RttNmea.GenCalls
import RttNmea.GenChain
import RttNmea.GenFaults
import RttNmea.GenRotate
