import Koy.Proofs.Invocation

/-! What is read after something is written, over all scopes at once. Scopes enclose one another as
the trees of a forest; a write shows in a part of a tree, which shadowing cuts off. -/

namespace Koy

theorem Eval.assign_of_refused {scope : ScopeId} {name : String} {value : Value} {fault : Fault}
    {world : World} (refused : world.scopes.assign scope name value = .error fault) :
    Eval.assign scope name value world = .error (.fault fault) world := by
  have looked : Eval.assign scope name value world =
      (ofExcept (world.scopes.assign scope name value) >>= fun scopes =>
        modify fun world => { world with scopes } : Eval Unit) world := rfl
  rw [looked, refused]
  rfl

namespace Scopes

/-- Scopes as they come about: scopes are added, at the top or inside others, names are bound and
assigned, and the scope that was added last is taken away. -/
inductive Forest : Scopes → Prop where
  | empty : Forest ⟨#[]⟩
  | push {scopes : Scopes} (parent : Option ScopeId) (forest : Forest scopes)
      (present : ∀ id ∈ parent, id < scopes.all.size) : Forest (scopes.push parent)
  | bind {scopes : Scopes} (id : ScopeId) (name : String) (binding : Binding)
      (forest : Forest scopes) : Forest (scopes.bind id name binding)
  | assign {scopes final : Scopes} (id : ScopeId) (name : String) (value : Value)
      (forest : Forest scopes) (assigned : scopes.assign id name value = .ok final) : Forest final
  | pop {scopes : Scopes} (forest : Forest scopes) : Forest scopes.pop

inductive Encloses (scopes : Scopes) (outer : ScopeId) : ScopeId → Prop where
  | self : Encloses scopes outer outer
  | inside {parent inner : ScopeId} (link : scopes.parent? inner = some parent)
      (rest : Encloses scopes outer parent) : Encloses scopes outer inner

def Owns (scopes : Scopes) (id : ScopeId) (name : String) : Prop :=
  (scopes.bindings id).contains name = true

/-- The first scope encloses the second one, and no scope between them, the second one included,
holds a binding of the name. -/
structure Reaches (scopes : Scopes) (name : String) (outer inner : ScopeId) : Prop where
  encloses : scopes.Encloses outer inner
  clear : ∀ nearer, scopes.Encloses nearer inner → scopes.Encloses outer nearer →
    nearer ≠ outer → ¬ scopes.Owns nearer name

/-- Every link leads to an older scope, and the enclosing scopes are those that links lead to. -/
def Linked (scopes : Scopes) : Prop :=
  ∀ id parent, scopes.parent? id = some parent →
    parent < id ∧ scopes.ancestors id = scopes.chain parent

theorem parent?_eq_none (scopes : Scopes) {id : ScopeId} (top : scopes.ancestors id = []) :
    scopes.parent? id = none := by
  rw [parent?, top]
  rfl

@[simp] theorem parent?_bind (scopes : Scopes) (id : ScopeId) (name : String) (binding : Binding)
    (other : ScopeId) : (scopes.bind id name binding).parent? other = scopes.parent? other := by
  simp [parent?]

theorem Linked.bind {scopes : Scopes} (linked : scopes.Linked) (id : ScopeId) (name : String)
    (binding : Binding) : (scopes.bind id name binding).Linked := by
  intro other parent link
  rw [parent?_bind] at link
  simpa [chain] using linked other parent link

theorem lt_size_of_parent? (scopes : Scopes) {id parent : ScopeId}
    (link : scopes.parent? id = some parent) : id < scopes.all.size := by
  apply Nat.lt_of_not_le
  intro absent
  rw [scopes.parent?_eq_none (ancestors_of_size_le scopes id absent)] at link
  cases link

theorem Linked.push {scopes : Scopes} (linked : scopes.Linked) (parent : Option ScopeId)
    (present : ∀ id ∈ parent, id < scopes.all.size) : (scopes.push parent).Linked := by
  have kept (id : ScopeId) (old : id < scopes.all.size) :
      (scopes.push parent).ancestors id = scopes.ancestors id :=
    ancestors_push_of_ne scopes parent id (Nat.ne_of_lt old)
  intro id outer link
  by_cases new : id = scopes.nextId
  · subst new
    cases parent with
    | none =>
        have top : (scopes.push none).ancestors scopes.nextId = [] := by
          simp [ancestors, Scopes.push, nextId]
        rw [parent?_eq_none _ top] at link
        cases link
    | some parent =>
        rw [parent?, ancestors_push_nextId] at link
        obtain rfl : parent = outer := Option.some.inj link
        have old : parent < scopes.all.size := present parent rfl
        rw [ancestors_push_nextId, chain, chain, kept parent old]
        exact ⟨old, rfl⟩
  · have same : (scopes.push parent).ancestors id = scopes.ancestors id :=
      ancestors_push_of_ne scopes parent id new
    rw [parent?, same] at link
    obtain ⟨less, ancestors⟩ := linked id outer link
    have old : outer < scopes.all.size := Nat.lt_trans less (scopes.lt_size_of_parent? link)
    rw [same, ancestors, chain, chain, kept outer old]
    exact ⟨less, rfl⟩

theorem Linked.pop {scopes : Scopes} (linked : scopes.Linked) : scopes.pop.Linked := by
  intro (id : Nat) (outer : Nat) link
  have inside : id + 1 < scopes.all.size := by
    have found : id < scopes.pop.all.size := scopes.pop.lt_size_of_parent? link
    rw [size_pop] at found
    omega
  rw [parent?, ancestors_pop_of_lt scopes id inside] at link
  obtain ⟨less, ancestors⟩ := linked id outer link
  have inside' : outer + 1 < scopes.all.size := Nat.lt_trans (Nat.succ_lt_succ less) inside
  rw [ancestors_pop_of_lt scopes id inside, ancestors, chain, chain,
    ancestors_pop_of_lt scopes outer inside']
  exact ⟨less, rfl⟩

theorem Forest.linked {scopes : Scopes} (forest : scopes.Forest) : scopes.Linked := by
  induction forest with
  | empty => exact fun _ _ link => nomatch link
  | push parent _ present ih => exact ih.push parent present
  | bind id name binding _ ih => exact ih.bind id name binding
  | assign id name value _ assigned ih =>
      obtain ⟨owner, binding, -, -, -, rfl⟩ := assign_eq_ok _ _ _ _ _ assigned
      exact ih.bind owner name _
  | pop _ ih => exact ih.pop

section Walk

variable {scopes : Scopes} {id outer inner : ScopeId} {name : String}

instance : Decidable (scopes.Owns id name) :=
  inferInstanceAs (Decidable (_ = true))

theorem owns_iff : scopes.Owns id name ↔ ∃ binding, (scopes.bindings id).get? name = some binding :=
  Option.isSome_iff_exists

theorem Encloses.trans {middle : ScopeId} (far : scopes.Encloses outer middle)
    (near : scopes.Encloses middle inner) : scopes.Encloses outer inner := by
  induction near with
  | self => exact far
  | inside link _ ih => exact .inside link ih

theorem Encloses.le (linked : scopes.Linked) (encloses : scopes.Encloses outer inner) :
    outer ≤ inner := by
  induction encloses with
  | self => exact Nat.le_refl outer
  | inside link _ ih => exact Nat.le_of_lt (Nat.lt_of_le_of_lt ih (linked _ _ link).1)

theorem Encloses.antisymm (linked : scopes.Linked) (there : scopes.Encloses outer inner)
    (back : scopes.Encloses inner outer) : outer = inner :=
  Nat.le_antisymm (there.le linked) (back.le linked)

theorem owner?_eq (linked : scopes.Linked) (id : ScopeId) (name : String) :
    scopes.owner? id name =
      if scopes.Owns id name then some id
      else match scopes.parent? id with
        | some parent => scopes.owner? parent name
        | none => none := by
  rw [owner?, chain, List.find?_cons]
  by_cases owned : scopes.Owns id name
  · rw [if_pos owned, owned]
  · rw [if_neg owned, Bool.eq_false_iff.mpr owned]
    cases link : scopes.parent? id with
    | none =>
        rw [List.head?_eq_none_iff.mp link]
        rfl
    | some parent =>
        rw [(linked id parent link).2]
        rfl

theorem owner?_eq_some_iff (linked : scopes.Linked) :
    scopes.owner? inner name = some outer ↔
      scopes.Owns outer name ∧ scopes.Reaches name outer inner := by
  induction inner using Nat.strongRecOn with
  | ind inner ih =>
      rw [owner?_eq linked]
      by_cases owned : scopes.Owns inner name
      · rw [if_pos owned, Option.some.injEq]
        constructor
        · rintro rfl
          exact ⟨owned, .self, fun nearer inside back differ =>
            absurd (inside.antisymm linked back) differ⟩
        · rintro ⟨-, reaches⟩
          apply Decidable.byContradiction
          intro differ
          exact reaches.clear inner .self reaches.encloses differ owned
      · rw [if_neg owned]
        constructor
        · intro found
          cases link : scopes.parent? inner with
          | none =>
              rw [link] at found
              cases found
          | some parent =>
              rw [link] at found
              obtain ⟨owns, encloses, clear⟩ := (ih parent (linked inner parent link).1).mp found
              refine ⟨owns, .inside link encloses, ?_⟩
              intro nearer inside back differ
              cases inside with
              | self => exact owned
              | inside link' rest =>
                  obtain rfl : parent = _ := Option.some.inj (link.symm.trans link')
                  exact clear nearer rest back differ
        · rintro ⟨owns, encloses, clear⟩
          cases encloses with
          | self => exact absurd owns owned
          | @inside parent _ link rest =>
              rw [link]
              refine (ih parent (linked inner parent link).1).mpr ⟨owns, rest, ?_⟩
              exact fun nearer inside back differ => clear nearer (.inside link inside) back differ

theorem owner?_eq_none_iff (linked : scopes.Linked) :
    scopes.owner? inner name = none ↔
      ∀ outer, scopes.Encloses outer inner → ¬ scopes.Owns outer name := by
  induction inner using Nat.strongRecOn with
  | ind inner ih =>
      rw [owner?_eq linked]
      by_cases owned : scopes.Owns inner name
      · rw [if_pos owned]
        exact ⟨nofun, fun clear => absurd owned (clear inner .self)⟩
      · rw [if_neg owned]
        constructor
        · intro absent outer encloses
          cases encloses with
          | self => exact owned
          | @inside parent _ link rest =>
              rw [link] at absent
              exact (ih parent (linked inner parent link).1).mp absent outer rest
        · intro clear
          cases link : scopes.parent? inner with
          | none => rfl
          | some parent =>
              exact (ih parent (linked inner parent link).1).mpr
                fun outer encloses => clear outer (.inside link encloses)

end Walk

section Write

variable {scopes : Scopes} (linked : scopes.Linked) {id : ScopeId} {name : String}
  (binding : Binding) {inner : ScopeId} {key : String}

theorem encloses_bind (outer : ScopeId) :
    (scopes.bind id name binding).Encloses outer inner ↔ scopes.Encloses outer inner := by
  constructor
  · intro encloses
    induction encloses with
    | self => exact .self
    | inside link _ ih => exact .inside (by rwa [parent?_bind] at link) ih
  · intro encloses
    induction encloses with
    | self => exact .self
    | inside link _ ih => exact .inside (by rwa [parent?_bind]) ih

theorem owns_bind (present : id < scopes.all.size) (other : ScopeId) :
    (scopes.bind id name binding).Owns other key ↔
      (other = id ∧ key = name) ∨ scopes.Owns other key := by
  rw [Owns, Owns, NameMap.contains, NameMap.contains, get?_bindings_bind]
  by_cases written : other = id ∧ key = name
  · simp [written, present]
  · rw [if_neg fun all => written ⟨all.1, all.2.1⟩]
    simp [written]

include linked

theorem owner?_bind_of_reaches (present : id < scopes.all.size)
    (reaches : scopes.Reaches name id inner) :
    (scopes.bind id name binding).owner? inner name = some id := by
  rw [owner?_eq_some_iff (linked.bind id name binding)]
  refine ⟨(owns_bind binding present id).mpr (.inl ⟨rfl, rfl⟩),
    (encloses_bind binding id).mpr reaches.encloses, ?_⟩
  intro nearer inside back differ owned
  rw [encloses_bind] at inside back
  rcases (owns_bind binding present nearer).mp owned with same | owned
  · exact differ same.1
  · exact reaches.clear nearer inside back differ owned

/-- Shadowing: an owner that is nearer hides what is bound, and one that is farther away is not
hidden by it, since there would be nothing between. -/
theorem owner?_bind_of_hidden (present : id < scopes.all.size)
    (hidden : ¬ (key = name ∧ scopes.Reaches name id inner)) :
    (scopes.bind id name binding).owner? inner key = scopes.owner? inner key := by
  cases found : scopes.owner? inner key with
  | none =>
      rw [owner?_eq_none_iff linked] at found
      rw [owner?_eq_none_iff (linked.bind id name binding)]
      intro outer encloses owned
      rw [encloses_bind] at encloses
      rcases (owns_bind binding present outer).mp owned with ⟨rfl, rfl⟩ | owned
      · exact hidden ⟨rfl, encloses, fun nearer inside _ _ => found nearer inside⟩
      · exact found outer encloses owned
  | some owner =>
      obtain ⟨owns, encloses, clear⟩ := (owner?_eq_some_iff linked).mp found
      rw [owner?_eq_some_iff (linked.bind id name binding)]
      refine ⟨(owns_bind binding present owner).mpr (.inr owns),
        (encloses_bind binding owner).mpr encloses, ?_⟩
      intro nearer inside back differ owned
      rw [encloses_bind] at inside back
      rcases (owns_bind binding present nearer).mp owned with ⟨rfl, rfl⟩ | owned
      · refine hidden ⟨rfl, inside, ?_⟩
        intro between within under apart
        refine clear between within (back.trans under) ?_
        rintro rfl
        exact differ (under.antisymm linked back)
      · exact clear nearer inside back differ owned

omit linked in
theorem lookup?_of_owner {owner : ScopeId} (found : scopes.owner? id name = some owner) :
    scopes.lookup? id name = ((scopes.bindings owner).get? name).map Binding.value := by
  simp [lookup?, binding?, found]

omit linked in
theorem lookup?_of_no_owner (absent : scopes.owner? id name = none) :
    scopes.lookup? id name = none := by
  simp [lookup?, binding?, absent]

theorem lookup?_bind_of_reaches (present : id < scopes.all.size)
    (reaches : scopes.Reaches name id inner) :
    (scopes.bind id name binding).lookup? inner name = some binding.value := by
  rw [lookup?_of_owner (owner?_bind_of_reaches linked binding present reaches),
    get?_bindings_bind, if_pos ⟨rfl, rfl, present⟩]
  rfl

theorem lookup?_bind_of_hidden (present : id < scopes.all.size)
    (hidden : ¬ (key = name ∧ scopes.Reaches name id inner)) :
    (scopes.bind id name binding).lookup? inner key = scopes.lookup? inner key := by
  have same := owner?_bind_of_hidden linked binding present hidden
  cases found : scopes.owner? inner key with
  | none =>
      rw [lookup?_of_no_owner found, lookup?_of_no_owner (same.trans found)]
  | some owner =>
      have elsewhere : ¬ (owner = id ∧ key = name ∧ id < scopes.all.size) := by
        rintro ⟨rfl, rfl, -⟩
        exact hidden ⟨rfl, ((owner?_eq_some_iff linked).mp found).2⟩
      rw [lookup?_of_owner found, lookup?_of_owner (same.trans found), get?_bindings_bind,
        if_neg elsewhere]

end Write

section Assign

variable {scopes : Scopes} {id : ScopeId} {name : String}

theorem assign_of_owner {owner : ScopeId} (found : scopes.owner? id name = some owner)
    (value : Value) : ∃ binding, (scopes.bindings owner).get? name = some binding ∧
      scopes.assign id name value =
        if binding.mutable then .ok (scopes.bind owner name { binding with value })
        else .error (.immutable name) := by
  have owned := List.find?_some found
  obtain ⟨binding, bound⟩ := owns_iff.mp owned
  exact ⟨binding, bound, by simp only [assign, found, bound]⟩

theorem assign_of_no_owner (absent : scopes.owner? id name = none) (value : Value) :
    scopes.assign id name value = .error (.undeclared name) := by
  simp only [assign, absent]

theorem assign_refused_unbound_iff (value : Value) :
    (∃ fault, scopes.assign id name value = .error fault ∧ fault.kind = .unboundName) ↔
      scopes.owner? id name = none := by
  constructor
  · rintro ⟨fault, refused, kind⟩
    cases found : scopes.owner? id name with
    | none => rfl
    | some owner =>
        obtain ⟨binding, -, assigned⟩ := assign_of_owner found value
        rw [assigned] at refused
        split at refused
        · cases refused
        · cases refused
          cases kind
  · intro absent
    exact ⟨_, assign_of_no_owner absent value, rfl⟩

theorem assign_refused_immutable_iff (value : Value) :
    (∃ fault, scopes.assign id name value = .error fault ∧ fault.kind = .immutableAssignment) ↔
      ∃ owner binding, scopes.owner? id name = some owner ∧
        (scopes.bindings owner).get? name = some binding ∧ binding.mutable = false := by
  constructor
  · rintro ⟨fault, refused, kind⟩
    cases found : scopes.owner? id name with
    | none =>
        rw [assign_of_no_owner found value] at refused
        cases refused
        cases kind
    | some owner =>
        obtain ⟨binding, bound, assigned⟩ := assign_of_owner found value
        rw [assigned] at refused
        split at refused
        · cases refused
        · rename_i fixed
          exact ⟨owner, binding, rfl, bound, Bool.eq_false_iff.mpr fixed⟩
  · rintro ⟨owner, binding, found, bound, fixed⟩
    obtain ⟨binding', bound', assigned⟩ := assign_of_owner found value
    obtain rfl : binding = binding' := Option.some.inj (bound.symm.trans bound')
    rw [fixed] at assigned
    exact ⟨_, assigned, rfl⟩

end Assign

section Replace

variable {scopes : Scopes} {owner : ScopeId} {name : String} {old new : Binding}
  (bound : (scopes.bindings owner).get? name = some old)
include bound

theorem lt_size_of_bound : owner < scopes.all.size := by
  apply Nat.lt_of_not_le
  intro absent
  rw [bindings_of_size_le scopes owner absent] at bound
  cases bound

theorem owner?_replace (inner : ScopeId) (key : String) :
    (scopes.bind owner name new).owner? inner key = scopes.owner? inner key := by
  have held (other : ScopeId) : ((scopes.bind owner name new).bindings other).contains key =
      (scopes.bindings other).contains key := by
    rw [NameMap.contains, NameMap.contains, get?_bindings_bind]
    split
    · rename_i written
      obtain ⟨rfl, rfl, -⟩ := written
      rw [bound]
      rfl
    · rfl
  simp only [owner?, chain, ancestors_bind, held]

theorem mutable_replace (kept : new.mutable = old.mutable) (other : ScopeId) (key : String) :
    (((scopes.bind owner name new).bindings other).get? key).map Binding.mutable =
      ((scopes.bindings other).get? key).map Binding.mutable := by
  rw [get?_bindings_bind]
  split
  · rename_i written
    obtain ⟨rfl, rfl, -⟩ := written
    rw [bound, Option.map_some, Option.map_some, kept]
  · rfl

theorem lookup?_replace (inner : ScopeId) (key : String) :
    (scopes.bind owner name new).lookup? inner key =
      if key = name ∧ scopes.owner? inner key = some owner then some new.value
      else scopes.lookup? inner key := by
  have same : (scopes.bind owner name new).owner? inner key = scopes.owner? inner key :=
    owner?_replace bound inner key
  cases found : scopes.owner? inner key with
  | none =>
      rw [lookup?_of_no_owner (same.trans found), lookup?_of_no_owner found, if_neg nofun]
  | some holder =>
      rw [lookup?_of_owner (same.trans found), lookup?_of_owner found, get?_bindings_bind]
      by_cases written : key = name ∧ holder = owner
      · obtain ⟨rfl, rfl⟩ := written
        rw [if_pos ⟨rfl, rfl, lt_size_of_bound bound⟩, if_pos ⟨rfl, rfl⟩, Option.map_some]
      · rw [if_neg fun all => written ⟨all.2.1, all.1⟩,
          if_neg fun all => written ⟨all.1, Option.some.inj all.2⟩]

end Replace

/-- What is read after a write, in a forest of scopes.

A successful assignment has an owner and shows exactly where the name has that owner; all names
keep their owners, and all bindings, the shadowed ones included, stay mutable or immutable. A failed
one changes nothing. It fails for want of a binding just if no scope from the given one outward
holds the name, and for an immutable binding just if the nearest one that has the name has it so.

A new binding, of either kind, shows in its scope and in the scopes inside it, as far as no nearer
scope holds the name. All else reads as before. -/
theorem Forest.reads_after_write {scopes : Scopes} (forest : scopes.Forest) :
    (∀ id name value final, scopes.assign id name value = .ok final →
      ∃ owner, scopes.owner? id name = some owner ∧
        (∀ inner key, final.lookup? inner key =
          if key = name ∧ scopes.owner? inner key = some owner then some value
          else scopes.lookup? inner key) ∧
        (∀ inner key, final.owner? inner key = scopes.owner? inner key) ∧
        ∀ other key, ((final.bindings other).get? key).map Binding.mutable =
          ((scopes.bindings other).get? key).map Binding.mutable) ∧
    (∀ id name value fault (world : World), world.scopes = scopes →
      scopes.assign id name value = .error fault →
      Eval.assign id name value world = .error (.fault fault) world) ∧
    (∀ id name value,
      (∃ fault, scopes.assign id name value = .error fault ∧ fault.kind = .unboundName) ↔
        ∀ outer, scopes.Encloses outer id → ¬ scopes.Owns outer name) ∧
    (∀ id name value,
      (∃ fault, scopes.assign id name value = .error fault ∧ fault.kind = .immutableAssignment) ↔
        ∃ owner binding, scopes.Reaches name owner id ∧
          (scopes.bindings owner).get? name = some binding ∧ binding.mutable = false) ∧
    (∀ id name binding inner key, id < scopes.all.size →
      (key = name ∧ scopes.Reaches name id inner →
        (scopes.bind id name binding).lookup? inner key = some binding.value) ∧
      (¬ (key = name ∧ scopes.Reaches name id inner) →
        (scopes.bind id name binding).lookup? inner key = scopes.lookup? inner key)) := by
  have linked := forest.linked
  refine ⟨?_, ?_, ?_, ?_, ?_⟩
  · intro id name value final assigned
    obtain ⟨owner, binding, found, bound, -, rfl⟩ := assign_eq_ok _ _ _ _ _ assigned
    exact ⟨owner, found, lookup?_replace bound, owner?_replace bound, mutable_replace bound rfl⟩
  · rintro id name value fault world rfl refused
    exact Eval.assign_of_refused refused
  · intro id name value
    rw [assign_refused_unbound_iff, owner?_eq_none_iff linked]
  · intro id name value
    rw [assign_refused_immutable_iff]
    constructor
    · rintro ⟨owner, binding, found, bound, fixed⟩
      exact ⟨owner, binding, ((owner?_eq_some_iff linked).mp found).2, bound, fixed⟩
    · rintro ⟨owner, binding, reaches, bound, fixed⟩
      have found := (owner?_eq_some_iff linked).mpr ⟨owns_iff.mpr ⟨binding, bound⟩, reaches⟩
      exact ⟨owner, binding, found, bound, fixed⟩
  · intro id name binding inner key present
    constructor
    · rintro ⟨rfl, reaches⟩
      exact lookup?_bind_of_reaches linked binding present reaches
    · exact lookup?_bind_of_hidden linked binding present

theorem Forest.initial : Forest .initial :=
  .push none .empty nofun

def shadowingSample : Scopes :=
  let inner := (Scopes.initial.push (some 0)).push (some 0)
  (inner.bind 0 "x" { value := .int 1, mutable := true }).bind 1 "x" { value := .int 2 }

theorem Forest.reads_after_write_sample :
    shadowingSample.Forest ∧
    (∃ final, shadowingSample.assign 2 "x" (.int 5) = .ok final ∧
      final.lookup? 0 "x" = some (.int 5) ∧ final.lookup? 1 "x" = some (.int 2)) ∧
    (∃ fault, shadowingSample.assign 1 "x" (.int 5) = .error fault ∧
      fault.kind = .immutableAssignment) ∧
    (shadowingSample.bind 0 "x" { value := .int 7 }).lookup? 2 "x" = some (.int 7) ∧
    (shadowingSample.bind 0 "x" { value := .int 7 }).lookup? 1 "x" = some (.int 2) := by
  have forest : shadowingSample.Forest :=
    .bind 1 "x" _ (.bind 0 "x" _ (.push (some 0) (.push (some 0) .initial (by decide)) (by decide)))
  have linked := forest.linked
  obtain ⟨assigns, -, -, refuses, binds⟩ := forest.reads_after_write
  have found : shadowingSample.owner? 2 "x" = some 0 := by decide
  have nearest : shadowingSample.owner? 1 "x" = some 1 := by decide
  obtain ⟨final, assigned⟩ : ∃ final, shadowingSample.assign 2 "x" (.int 5) = .ok final := ⟨_, rfl⟩
  obtain ⟨owner, same, reads, -, -⟩ := assigns 2 "x" (.int 5) final assigned
  obtain rfl : 0 = owner := Option.some.inj (found.symm.trans same)
  have shown : final.lookup? 0 "x" = some (.int 5) := (reads 0 "x").trans rfl
  have shadowed : final.lookup? 1 "x" = some (.int 2) := (reads 1 "x").trans rfl
  have reaches := ((owner?_eq_some_iff linked).mp found).2
  have hidden : ¬ ("x" = "x" ∧ shadowingSample.Reaches "x" 0 1) := by
    rintro ⟨-, -, clear⟩
    exact clear 1 .self (.inside rfl .self) (by decide) (by decide)
  exact ⟨forest, ⟨final, assigned, shown, shadowed⟩,
    (refuses 1 "x" (.int 5)).mpr
      ⟨1, _, ((owner?_eq_some_iff linked).mp nearest).2, rfl, rfl⟩,
    (binds 0 "x" _ 2 "x" (by decide)).1 ⟨rfl, reaches⟩,
    ((binds 0 "x" _ 1 "x" (by decide)).2 hidden).trans rfl⟩

end Scopes

end Koy
