import KernelQ.ControlPlane.System

/-!
# Waiting for a retry

A row in `retry_scheduled` waits for the retry scan, which skips a row whose
`retry_after` is `NULL` and takes a stale `retry_after` for due. Two statements
write that state: the retry policy of the result handler, which sets
`retry_after` with it, and `retry_job`, which does not. `ScheduledBy` says that
the row's `retry_after` comes from the step that put it there.
-/

namespace KernelQ.ControlPlane

open KernelQ.Foundation

variable {s t : System} {a : Action} {k : String} {r r' : JobRow}

end KernelQ.ControlPlane
