import TinyShell.Proof.Boot
import TinyShell.Proof.Budget
import TinyShell.Proof.Command
import TinyShell.Proof.ConsoleWindow
import TinyShell.Proof.Controllers
import TinyShell.Proof.HeapAlloc
import TinyShell.Proof.HeapContents
import TinyShell.Proof.HeapExact
import TinyShell.Proof.Interrupt
import TinyShell.Proof.Kernel
import TinyShell.Proof.Ipc
import TinyShell.Proof.Irq
import TinyShell.Proof.Keyboard
import TinyShell.Proof.Listing
import TinyShell.Proof.MultibootCalls
import TinyShell.Proof.PmmFreeze
import TinyShell.Proof.RamfsInv
import TinyShell.Proof.RoundRobin
import TinyShell.Proof.Scancodes
import TinyShell.Proof.ShellFiles
import TinyShell.Proof.SwitchRuns
import TinyShell.Proof.TaskFlowRuns
import TinyShell.Proof.Tlb
