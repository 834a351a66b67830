/-
This file names the reasons for which a YAML text is not read.
-/

namespace IdlBindings.Yaml

/-- A malformed text is refused. A text whose scalar overruns its buffer stops the whole run. -/
inductive Fault where
  | malformed
  | overrun
deriving DecidableEq

end IdlBindings.Yaml
