import Stoquant.Avx2.AllOrNothing
import Stoquant.Avx2.Draw
import Stoquant.Avx2.Shares
import Stoquant.Avx2.Trees
import Stoquant.Backends
import Stoquant.Cuda.Reduction
import Stoquant.Cuda.Coverage
import Stoquant.Design.Williams
import Stoquant.Codec.RoundTrip
import Stoquant.Codec.Unbiased
import Stoquant.Snapshot
import Stoquant.Workspace.Machine
import Stoquant.Matrix
import Stoquant.Stats.FailClosed
import Stoquant.Native.Accepted
import Stoquant.Native.CleanUp
import Stoquant.Native.SameRecord
import Stoquant.Native.Invocation
import Stoquant.Cuda.BenchRecord
import Stoquant.Rng.Arrays
import Stoquant.Native.Numeral
import Stoquant.Oracle.Backends
import Stoquant.Oracle.Check
import Stoquant.Quantizer.ScaleError
import Stoquant.Quantizer.ScaleSound
import Stoquant.Report.Total
