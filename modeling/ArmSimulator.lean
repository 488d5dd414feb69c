import ArmSimulator.UserMode.Confidentiality
import ArmSimulator.Condition
import ArmSimulator.Interrupts
import ArmSimulator.DataAbort
import ArmSimulator.PreciseFaults
import ArmSimulator.SoftwareInterrupt
import ArmSimulator.UnsupportedEncodings
import ArmSimulator.StoreFrame
import ArmSimulator.MemoryRefinement
import ArmSimulator.MemoryBounds
import ArmSimulator.RegisterHistory
import ArmSimulator.PushPop
import ArmSimulator.Gdb.Continue
import ArmSimulator.Gdb.GeneralRegisters
import ArmSimulator.BlockRoundTrip
import ArmSimulator.TransferAddresses
import ArmSimulator.LogicalFlags
import ArmSimulator.ExceptionReturn
import ArmSimulator.StatusWrites
import ArmSimulator.Branches
import ArmSimulator.ShiftAmounts
import ArmSimulator.Gdb.SingleRegister
import ArmSimulator.Gdb.MemoryPackets
import ArmSimulator.Gdb.ScannerTables
import ArmSimulator.Gdb.Debugger
import ArmSimulator.Gdb.Output
import ArmSimulator.Server
import ArmSimulator.Threads
import ArmSimulator.Assembly.Debugging
import ArmSimulator.Assembly.Procedures
