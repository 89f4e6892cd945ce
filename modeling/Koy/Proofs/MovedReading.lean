import Koy.Proofs.Budget

/-! Reading commutes with moving. From a source text that is another one moved down the same tree is
read, or the same error, with all its places moved. -/

namespace Koy

open Parse

/-- Where the stream of one source text is that of another, moved, what is read from the one is what is
read from the other, moved. The budgets of the two texts may differ. -/
theorem Grammar.runOn_relocate {α : Type} {shift : Shift} {change : α → α} {reader : Nat → Parse α}
    {source other : Bytes}
    (steady : ∀ {budget budget' stream}, budget ≤ budget' → stream.Within budget →
      Steady stream (reader budget) (reader budget'))
    (relocates : ∀ budget, Relocates shift.move budget change (reader budget) (reader budget))
    (moved : TokenStream.ofSource other =
      relocateResult shift.move (TokenStream.relocate shift.move) (TokenStream.ofSource source)) :
    runOn reader other = relocateResult shift.move change (runOn reader source) := by
  let budget := max (budgetOf source) (budgetOf other)
  have read := (runOn_steady steady source budget (Nat.le_max_left _ _)).1
  have read' := (runOn_steady steady other budget (Nat.le_max_right _ _)).1
  rw [read, read', moved]
  cases started : TokenStream.ofSource source with
  | error error => rfl
  | ok stream =>
      have within := (ofSource_within started).mono (Nat.le_max_left _ (budgetOf other))
      change (reader budget (stream.relocate shift.move) >>= _) =
        relocateResult _ _ (reader budget stream >>= _)
      rw [((relocates budget).on within).1]
      cases reader budget stream <;> rfl

end Koy
