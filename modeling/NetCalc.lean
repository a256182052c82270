import NetCalc.Lib.CInt
import NetCalc.Lib.CArith
import NetCalc.Lib.Rotate
import NetCalc.Lib.Words
import NetCalc.Lib.Blocks
import NetCalc.Lib.Channel
import NetCalc.Lib.Ring
import NetCalc.Lib.CString
import NetCalc.Lib.Numeral
import NetCalc.Lib.Decimal
import NetCalc.Lib.Getopt
import NetCalc.Lib.Tally
import NetCalc.Lib.Lts
import NetCalc.Lib.Ledger
import NetCalc.Lib.Scopes
import NetCalc.Lib.Dialogue
import NetCalc.Lib.Potential
import NetCalc.Lib.Simulation
import NetCalc.Lib.Raising
import NetCalc.Common.Utils
import NetCalc.Common.MathFuncs
import NetCalc.Common.CalcHandle
import NetCalc.Common.CalcHandle32
import NetCalc.Common.StrictMath
import NetCalc.Common.SignedMath
import NetCalc.Common.ShiftRotate
import NetCalc.Common.Meaning
import NetCalc.Common.FileIo
import NetCalc.Common.ReadChunks
import NetCalc.Common.WriteCalls
import NetCalc.Common.WriteWords
import NetCalc.Thread.Queue
import NetCalc.Thread.QueueFifo
import NetCalc.Thread.QueueStatus
import NetCalc.Thread.QueueNodes
import NetCalc.Thread.Pool
import NetCalc.Thread.PoolHistory
import NetCalc.Thread.PoolPlaces
import NetCalc.Thread.PoolShutdown
import NetCalc.Thread.PoolBarrier
import NetCalc.Thread.PoolAccept
import NetCalc.Thread.PoolWakeup
import NetCalc.Thread.PoolWorth
import NetCalc.Thread.PoolStatements
import NetCalc.Thread.PoolTurns
import NetCalc.Thread.PoolSections
import NetCalc.Thread.PoolAtomic
import NetCalc.Thread.PoolAsWritten
import NetCalc.Thread.FailedStart
import NetCalc.Net.Listener
import NetCalc.Net.Isolation
import NetCalc.Net.ArgumentLifetime
import NetCalc.Net.DescriptorWidth
import NetCalc.Net.Formats
import NetCalc.Net.Handler
import NetCalc.Net.Reply
import NetCalc.Net.Answers
import NetCalc.Net.Verdict
import NetCalc.Net.HeaderMemory
import NetCalc.Net.HandlerBlocks
import NetCalc.Net.DeclaredSize
import NetCalc.Net.AnnouncedSize
import NetCalc.Net.StreamLoop
import NetCalc.Net.ReplyPrefix
import NetCalc.Net.Client
import NetCalc.Net.Session
import NetCalc.Net.ReceivedFile
import NetCalc.Net.Rejection
import NetCalc.Net.ErrorReply
import NetCalc.Net.NetMain
import NetCalc.Net.Grader
import NetCalc.Net.GraderAgrees
import NetCalc.Net.GradeFile
import NetCalc.Net.GradeAnswers
import NetCalc.Net.EquFile
import NetCalc.Net.GradeDirs
import NetCalc.Net.GradeGenerated
import NetCalc.Net.Acceptance
import NetCalc.File.ThreadHandle
import NetCalc.File.SameFile
import NetCalc.File.WorkStatus
import NetCalc.File.DirectoryParse
import NetCalc.File.CountNarrowing
import NetCalc.File.Phases
import NetCalc.File.Ownership
import NetCalc.File.Alone
import NetCalc.File.Share
import NetCalc.File.Schedule
import NetCalc.File.SolvedAgain
import NetCalc.File.Acceptance
import NetCalc.File.DirectoryOrder
import NetCalc.File.DescriptorLedger
import NetCalc.File.DescriptorBalance
import NetCalc.Simple.CliHandle
import NetCalc.Simple.Operators
import NetCalc.Simple.Operands
import NetCalc.Simple.Exact
import NetCalc.Simple.Acceptance
import NetCalc.File.OneMeaning
import NetCalc.Common.Converts
import NetCalc.File.ThreadMain
