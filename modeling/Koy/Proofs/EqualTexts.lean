import Koy.Proofs.ValueEquality
import Koy.Value.Printer

/-! Equal values have one text, sets aside. A set is printed in the order in which its members came,
which equality ignores. The order in which the entries of a mapping came is lost: two mappings are
equal exactly if they hold equal values under every name, and their entries then stand in one order. -/

namespace Koy

namespace Value

/-- Mappings are equal if and only if, of the entries that each is built of, the last ones under any
name have equal values. -/
theorem equal_ofMapping_iff (entries entries' : List (String × Value)) :
    (ofMapping entries).equal (ofMapping entries') = true ↔
      ∀ key, Option.Rel (fun a b => a.equal b = true) (NameMap.get? entries.reverse key)
        (NameMap.get? entries'.reverse key) := by
  rw [ofMapping, ofMapping, equal, equalEntries_iff]
  simp only [← NameMap.get?_ofList]
  constructor
  · intro same key
    exact NameMap.rel_get?_of_forall₂ same key
  · intro related
    exact NameMap.forall₂_of_rel_get? (NameMap.sorted_ofList entries)
      (NameMap.sorted_ofList entries') related

mutual

/-- No set occurs in the value, at whatever depth. -/
def setFree : Value → Bool
  | .set _ => false
  | .sequence items => setFreeAll items
  | .mapping entries => setFreeEntries entries
  | _ => true

def setFreeAll : List Value → Bool
  | [] => true
  | value :: rest => setFree value && setFreeAll rest

def setFreeEntries : List (String × Value) → Bool
  | [] => true
  | (_, value) :: rest => setFree value && setFreeEntries rest

end

mutual

theorem render_eq_of_setFree (u v : Value) (free : u.setFree = true) (same : u.equal v = true) :
    u.render = v.render := by
  cases u <;> cases v <;> simp only [equal, Bool.false_eq_true] at same
  case set.set => cases free
  case sequence.sequence items items' =>
    rw [setFree] at free
    rw [render, render, renderAll_eq_of_setFree items items' free same]
  case mapping.mapping entries entries' =>
    rw [setFree] at free
    rw [render, render, renderEntries_eq_of_setFree entries entries' free same]
  case function.function =>
    obtain ⟨-, params⟩ := Bool.and_eq_true_iff.mp same
    rw [render, render, eq_of_beq params]
  all_goals simp_all

theorem renderAll_eq_of_setFree (us vs : List Value) (free : setFreeAll us = true)
    (same : equalAll us vs = true) : renderAll us = renderAll vs := by
  cases us with
  | nil =>
      cases vs with
      | nil => rfl
      | cons v vs => simp [equalAll] at same
  | cons u us =>
      cases vs with
      | nil => simp [equalAll] at same
      | cons v vs =>
          simp only [setFreeAll, equalAll, Bool.and_eq_true] at free same
          rw [renderAll, renderAll, render_eq_of_setFree u v free.1 same.1,
            renderAll_eq_of_setFree us vs free.2 same.2]

theorem renderEntries_eq_of_setFree (entries entries' : List (String × Value))
    (free : setFreeEntries entries = true) (same : equalEntries entries entries' = true) :
    renderEntries entries = renderEntries entries' := by
  cases entries with
  | nil =>
      cases entries' with
      | nil => rfl
      | cons entry' entries' => simp [equalEntries] at same
  | cons entry entries =>
      cases entries' with
      | nil => simp [equalEntries] at same
      | cons entry' entries' =>
          obtain ⟨key, u⟩ := entry
          obtain ⟨key', v⟩ := entry'
          simp only [setFreeEntries, equalEntries, Bool.and_eq_true, beq_iff_eq] at free same
          obtain ⟨⟨rfl, here⟩, later⟩ := same
          rw [renderEntries, renderEntries, render_eq_of_setFree u v free.1 here,
            renderEntries_eq_of_setFree entries entries' free.2 later]

end

theorem display_eq_of_setFree (u v : Value) (free : u.setFree = true) (same : u.equal v = true) :
    u.display = v.display := by
  have texts := render_eq_of_setFree u v free same
  cases u <;> cases v <;> simp only [equal, Bool.false_eq_true] at same
  case text.text => exact eq_of_beq same
  all_goals exact congrArg Bytes.ofString texts

/-- Equal values without sets have one text and are printed alike, at whatever depth mappings occur in
them. In particular mappings that are built of the same names with equal values have one text, in
whatever order their entries came; of several entries under one name the last counts. -/
theorem equal_values_print_alike :
    (∀ u v : Value, u.setFree = true → u.equal v = true →
      u.render = v.render ∧ u.display = v.display) ∧
    ∀ entries entries' : List (String × Value), (ofMapping entries).setFree = true →
      (∀ key, Option.Rel (fun a b => a.equal b = true) (NameMap.get? entries.reverse key)
        (NameMap.get? entries'.reverse key)) →
      (ofMapping entries).render = (ofMapping entries').render ∧
        (ofMapping entries).display = (ofMapping entries').display := by
  have alike (u v : Value) (free : u.setFree = true) (same : u.equal v = true) :
      u.render = v.render ∧ u.display = v.display :=
    ⟨render_eq_of_setFree u v free same, display_eq_of_setFree u v free same⟩
  refine ⟨alike, fun entries entries' free related => ?_⟩
  have same := (equal_ofMapping_iff entries entries').mpr related
  exact alike (ofMapping entries) (ofMapping entries') free same

theorem equal_values_print_alike_sample :
    let entries := [("b", Value.text [120]), ("a", .int 1), ("c", .function ["n"] default)]
    let entries' := [("c", Value.function ["n"] default), ("a", .bool true), ("b", .text [120]),
      ("a", .int 1)]
    let u := Value.sequence [.ofMapping entries, .invalid]
    let v := Value.sequence [.ofMapping entries', .invalid]
    u.setFree = true ∧ u.equal v = true ∧ u.render = v.render ∧
      (ofMapping entries).display = (ofMapping entries').display := by
  intro entries entries' u v
  obtain ⟨values, mappings⟩ := equal_values_print_alike
  have free : u.setFree = true := by decide +kernel
  have same : u.equal v = true := by decide +kernel
  have free' : (ofMapping entries).setFree = true := by decide +kernel
  have related : (ofMapping entries).equal (ofMapping entries') = true := by decide +kernel
  exact ⟨free, same, (values u v free same).1,
    (mappings entries entries' free' ((equal_ofMapping_iff entries entries').mp related)).2⟩

end Value

end Koy
