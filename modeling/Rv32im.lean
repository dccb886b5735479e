import Rv32im.Core.CsrOrder
import Rv32im.Datapath.Execute
import Rv32im.Units.MduService
import Rv32im.Ports.LsuService
import Rv32im.Ports.FetchStream
import Rv32im.System.Protocol
import Rv32im.System.Interrupt
import Rv32im.Soc.Targets
import Rv32im.Soc.Ownership
import Rv32im.Soc.LoadStore
import Rv32im.Soc.SerialLink
import Rv32im.Soc.Reset
import Rv32im.Soc.Hart
import Rv32im.Soc.Bringup
import Rv32im.Soc.Latency
import Rv32im.Soc.Software
import Rv32im.Units.CsrFile
import Rv32im.Core.Performance
import Rv32im.Core.MduOwner
import Rv32im.System.Assertions
import Rv32im.System.Progress
import Rv32im.Soc.Receiver
import Rv32im.Software.CounterRead
import Rv32im.Software.TimerRearm
import Rv32im.Tools.WriteMemh
import Rv32im.Soc.Boot
