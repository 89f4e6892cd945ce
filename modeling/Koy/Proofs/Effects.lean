import Koy.Evaluation

/-! What computations do to the world, whether they end with a value or with a halt. A relation
between the world before and the world after that is reflexive and transitive holds of a computation
once it holds of its steps. -/

namespace Koy.Eval

variable {α β : Type}

theorem bind_ok {first : Eval α} (next : α → Eval β) {world middle : World} {value : α}
    (outcome : first world = .ok value middle) : (first >>= next) world = next value middle := by
  change EStateM.bind first next world = next value middle
  simp only [EStateM.bind, outcome]

theorem bind_error {first : Eval α} (next : α → Eval β) {world final : World} {halt : Halt}
    (outcome : first world = .error halt final) : (first >>= next) world = .error halt final := by
  change EStateM.bind first next world = .error halt final
  simp only [EStateM.bind, outcome]

theorem discard_bind (first : Eval α) (next : Unit → Eval β) :
    (discard first >>= next) = first >>= fun _ => next () := by
  change ((fun _ => ()) <$> first) >>= next = _
  rw [bind_map_left]

def after (computation : Eval α) (world : World) : World :=
  match computation world with
  | .ok _ final => final
  | .error _ final => final

theorem after_of_ok {computation : Eval α} {world final : World} {value : α}
    (outcome : computation world = .ok value final) : after computation world = final := by
  rw [after, outcome]

theorem after_bind_ok {first : Eval α} (next : α → Eval β) {world middle : World} {value : α}
    (outcome : first world = .ok value middle) :
    after (first >>= next) world = after (next value) middle := by
  rw [after, bind_ok next outcome, after]

theorem after_bind_error {first : Eval α} (next : α → Eval β) {world final : World} {halt : Halt}
    (outcome : first world = .error halt final) :
    after (first >>= next) world = after first world := by
  rw [after, bind_error next outcome, after, outcome]

/-- The computation relates every world to the one in which it ends. -/
def Keeps (r : World → World → Prop) (computation : Eval α) : Prop :=
  ∀ world, r world (after computation world)

theorem Keeps.mono {r r' : World → World → Prop} {computation : Eval α}
    (weaker : ∀ before after, r before after → r' before after) (kept : Keeps r computation) :
    Keeps r' computation :=
  fun world => weaker _ _ (kept world)

theorem keeps_modify {r : World → World → Prop} {change : World → World}
    (step : ∀ world, r world (change world)) : Keeps r (modify change : Eval Unit) :=
  fun world => step world

section Preorder

variable {r : World → World → Prop}

theorem keeps_pure (refl : ∀ world, r world world) (value : α) : Keeps r (pure value : Eval α) :=
  fun world => refl world

theorem keeps_throw (refl : ∀ world, r world world) (halt : Halt) :
    Keeps r (throw halt : Eval α) :=
  fun world => refl world

theorem keeps_get (refl : ∀ world, r world world) : Keeps r (get : Eval World) :=
  fun world => refl world

theorem keeps_ofExcept (refl : ∀ world, r world world) (result : Except Fault α) :
    Keeps r (ofExcept result) := by
  cases result with
  | ok value => exact keeps_pure refl value
  | error fault => exact keeps_throw refl (.fault fault)

theorem Keeps.bind (trans : ∀ a b c, r a b → r b c → r a c) {first : Eval α}
    {next : α → Eval β} (kept : Keeps r first) (kept' : ∀ value, Keeps r (next value)) :
    Keeps r (first >>= next) := by
  intro world
  have start := kept world
  cases outcome : first world with
  | ok value middle =>
      rw [after_of_ok outcome] at start
      rw [after_bind_ok next outcome]
      exact trans _ _ _ start (kept' value middle)
  | error halt final =>
      rw [after_bind_error next outcome]
      exact start

end Preorder

theorem withRoom_quiet {conditions : Conditions} (quiet : conditions.traced = false) (room : Nat)
    (scope : ScopeId) (expr : Expr) (present : expr ≠ .missing) :
    withRoom conditions (room + 1) scope expr =
      step conditions (conditions.maxDepth - room) (withRoom conditions room) scope expr := by
  have still : trace conditions expr = pure () := by
    rw [trace, quiet]
    rfl
  rw [withRoom.eq_3 _ _ _ _ present, onStackOf_eq, still]
  rfl

end Koy.Eval
