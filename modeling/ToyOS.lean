import ToyOS.StatusDelivery
import ToyOS.WaitArguments
import ToyOS.WaitChannels
import ToyOS.KmallocBoot
import ToyOS.CopyFailure
import ToyOS.TlbCoherence
import ToyOS.UserFaults
import ToyOS.ForkFailure
import ToyOS.MenuHandshake
import ToyOS.LhdRetry
import ToyOS.HeapIntegrity
import ToyOS.Semaphore
import ToyOS.CondVar
import ToyOS.ThreadLists
import ToyOS.CatMouseProgress
import ToyOS.ExecPointers
import ToyOS.SfsckImage
import ToyOS.VnodeExact
import ToyOS.ArgumentStack
import ToyOS.LoadElf
import ToyOS.SfsFarWrites
import ToyOS.TlbShootdown
import ToyOS.Uiomove
import ToyOS.PathPrefix
import ToyOS.KernelArray
import ToyOS.SfsckBmap
import ToyOS.Console
import ToyOS.ByteSwap
import ToyOS.ThreadNodes
