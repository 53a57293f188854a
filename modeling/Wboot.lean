import Wboot.BootLimits
import Wboot.ConfigCleanup
import Wboot.ConfigNumbers
import Wboot.ConfigSearch
import Wboot.E820Coverage
import Wboot.E820Extension
import Wboot.E820Order
import Wboot.E820Sizing
import Wboot.ExitBootServices
import Wboot.GraphicsChoice
import Wboot.InitramfsCleanup
import Wboot.KernelCleanup
import Wboot.KernelEntry
import Wboot.KernelReads
import Wboot.LineEndings
import Wboot.LineNumbers
import Wboot.NullPointers
import Wboot.NumberRoundTrip
import Wboot.PlacementOverlap
import Wboot.PrintfBounds
import Wboot.PrintfRendering
import Wboot.ReturnStatus
import Wboot.ServiceEnd
import Wboot.ZeroPage
import Wboot.KernelSearch
import Wboot.PhaseAgreement
import Wboot.SetupHeaderDump
import Wboot.SearchLedger
import Wboot.ConfigWriting
import Wboot.RunLedger
