import Koy.Proofs.NameMap
import Koy.Scopes

/-! What each operation on scopes leaves in every scope. -/

namespace Koy.Scopes

@[simp] theorem size_bind (scopes : Scopes) (id : ScopeId) (name : String) (binding : Binding) :
    (scopes.bind id name binding).all.size = scopes.all.size := by
  simp [bind]

@[simp] theorem ancestors_bind (scopes : Scopes) (id : ScopeId) (name : String)
    (binding : Binding) (other : ScopeId) :
    (scopes.bind id name binding).ancestors other = scopes.ancestors other := by
  simp only [ancestors, bind, Array.getElem?_modify]
  by_cases same : id = other
  · cases found : scopes.all[other]? <;> simp [same]
  · simp [same]

@[simp] theorem depth_bind (scopes : Scopes) (id : ScopeId) (name : String) (binding : Binding)
    (other : ScopeId) : (scopes.bind id name binding).depth other = scopes.depth other := by
  simp [depth]

theorem bindings_bind_of_ne (scopes : Scopes) (id : ScopeId) (name : String) (binding : Binding)
    (other : ScopeId) (differ : other ≠ id) :
    (scopes.bind id name binding).bindings other = scopes.bindings other := by
  simp [bindings, bind, Array.getElem?_modify, differ.symm]

theorem bindings_bind_self (scopes : Scopes) (id : ScopeId) (name : String) (binding : Binding)
    (present : id < scopes.all.size) :
    (scopes.bind id name binding).bindings id = (scopes.bindings id).insert name binding := by
  simp only [bindings, bind, Array.getElem?_modify, Array.getElem?_eq_getElem present, if_true,
    Option.map_some]

theorem get?_bindings_bind (scopes : Scopes) (id : ScopeId) (name : String) (binding : Binding)
    (other : ScopeId) (key : String) :
    ((scopes.bind id name binding).bindings other).get? key =
      if other = id ∧ key = name ∧ id < scopes.all.size then some binding
      else (scopes.bindings other).get? key := by
  by_cases same : other = id
  · subst same
    by_cases exist : other < scopes.all.size
    · rw [bindings_bind_self scopes other name binding exist, NameMap.get?_insert]
      simp [exist]
    · have unchanged : (scopes.bind other name binding).bindings other = scopes.bindings other := by
        simp [bindings, bind, exist]
      simp [unchanged, exist]
  · rw [bindings_bind_of_ne scopes id name binding other same]
    simp [same]

theorem bindings_of_size_le (scopes : Scopes) (id : ScopeId) (absent : scopes.all.size ≤ id) :
    scopes.bindings id = [] := by
  simp [bindings, absent]

theorem bindings_bind (scopes : Scopes) (id : ScopeId) (name : String) (binding : Binding)
    (other : ScopeId) :
    (scopes.bind id name binding).bindings other =
      if other = id ∧ id < scopes.all.size then (scopes.bindings id).insert name binding
      else scopes.bindings other := by
  by_cases same : other = id
  · subst same
    by_cases present : other < scopes.all.size
    · rw [bindings_bind_self _ _ _ _ present, if_pos ⟨rfl, present⟩]
    · have absent := Nat.le_of_not_lt present
      rw [if_neg fun both => present both.2, bindings_of_size_le scopes other absent]
      exact bindings_of_size_le _ _ (by rwa [size_bind])
  · rw [bindings_bind_of_ne _ _ _ _ _ same, if_neg fun both => same both.1]

theorem ancestors_of_size_le (scopes : Scopes) (id : ScopeId) (absent : scopes.all.size ≤ id) :
    scopes.ancestors id = [] := by
  simp [ancestors, absent]

@[simp] theorem size_push (scopes : Scopes) (parent : Option ScopeId) :
    (scopes.push parent).all.size = scopes.all.size + 1 := by
  simp [push]

@[simp] theorem bindings_push (scopes : Scopes) (parent : Option ScopeId) (id : ScopeId) :
    (scopes.push parent).bindings id = scopes.bindings id := by
  simp only [bindings, push, Array.getElem?_push]
  by_cases new : id = scopes.all.size
  · simp [new]
  · simp [new]

theorem ancestors_push_of_ne (scopes : Scopes) (parent : Option ScopeId) (id : ScopeId)
    (old : id ≠ scopes.nextId) : (scopes.push parent).ancestors id = scopes.ancestors id := by
  have differ : id ≠ scopes.all.size := old
  simp [ancestors, push, Array.getElem?_push, differ]

theorem ancestors_push_nextId (scopes : Scopes) (parent : ScopeId) :
    (scopes.push (some parent)).ancestors scopes.nextId = scopes.chain parent := by
  simp [ancestors, push, nextId]

@[simp] theorem size_pop (scopes : Scopes) : scopes.pop.all.size = scopes.all.size - 1 := by
  simp [pop]

theorem bindings_pop_of_lt (scopes : Scopes) (id : Nat) (below : id + 1 < scopes.all.size) :
    scopes.pop.bindings id = scopes.bindings id := by
  have inside : id < scopes.all.size - 1 := by omega
  simp only [bindings, pop, Array.getElem?_pop, if_pos inside]

theorem bindings_pop (scopes : Scopes) (id : Nat) :
    scopes.pop.bindings id = if id + 1 < scopes.all.size then scopes.bindings id else [] := by
  split
  · rename_i below
    exact bindings_pop_of_lt scopes id below
  · rename_i beyond
    apply bindings_of_size_le
    rw [size_pop]
    omega

theorem ancestors_pop_of_lt (scopes : Scopes) (id : Nat) (below : id + 1 < scopes.all.size) :
    scopes.pop.ancestors id = scopes.ancestors id := by
  have inside : id < scopes.all.size - 1 := by omega
  simp only [ancestors, pop, Array.getElem?_pop, if_pos inside]

theorem assign_eq_ok (scopes final : Scopes) (id : ScopeId) (name : String) (value : Value)
    (assigned : scopes.assign id name value = .ok final) :
    ∃ owner binding, scopes.owner? id name = some owner ∧
      (scopes.bindings owner).get? name = some binding ∧ binding.mutable = true ∧
      final = scopes.bind owner name { binding with value } := by
  unfold assign at assigned
  split at assigned
  · cases assigned
  · rename_i owner found
    split at assigned
    · cases assigned
    · rename_i binding bound
      split at assigned
      · rename_i mutable
        cases assigned
        exact ⟨owner, binding, found, bound, mutable, rfl⟩
      · cases assigned

end Koy.Scopes
