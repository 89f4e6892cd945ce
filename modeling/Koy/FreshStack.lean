/-! Room for deep recursion. -/

namespace Koy

/-- Computes a value on a stack of its own. The value is the same as without. -/
def onFreshStack {α : Type} (compute : Unit → α) : α :=
  (Task.spawn compute .dedicated).get

@[simp] theorem onFreshStack_eq {α : Type} (compute : Unit → α) :
    onFreshStack compute = compute () := rfl

end Koy
