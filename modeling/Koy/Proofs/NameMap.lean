import Koy.NameMap
import Mathlib.Data.List.Forall2

/-! What finite maps from names hold after an insertion, and how maps compare that hold related values
under every name: as their names are sorted, they hold them in the same places. -/

namespace Koy.NameMap

variable {α : Type}

theorem get?_cons (name : String) (value : α) (map : NameMap α) (key : String) :
    get? ((name, value) :: map) key = if key = name then some value else get? map key := by
  by_cases same : key = name
  · simp [get?, same]
  · have differ : (key == name) = false := by simpa using same
    simp [get?, List.lookup_cons, differ, same]

theorem get?_insert (name : String) (value : α) (map : NameMap α) (key : String) :
    get? (insert name value map) key = if key = name then some value else get? map key := by
  induction map with
  | nil => rw [insert, get?_cons]
  | cons first rest ih =>
      obtain ⟨head, old⟩ := first
      rw [insert]
      by_cases atHead : name = head
      · subst atHead
        by_cases same : key = name <;> simp [get?_cons, same]
      · rw [if_neg atHead]
        by_cases before : name < head
        · rw [if_pos before, get?_cons]
        · rw [if_neg before, get?_cons, ih, get?_cons]
          by_cases same : key = head
          · simp [same, Ne.symm atHead]
          · simp [same]

theorem mem_of_get? (map : NameMap α) {key : String} {value : α}
    (found : get? map key = some value) : (key, value) ∈ map := by
  induction map with
  | nil => cases found
  | cons first rest ih =>
      obtain ⟨name, head⟩ := first
      rw [get?_cons] at found
      split at found
      · rename_i same
        cases found
        exact same ▸ List.mem_cons_self
      · exact List.mem_cons_of_mem _ (ih found)

theorem mem_insert (name : String) (value : α) (map : NameMap α) (entry : String × α)
    (member : entry ∈ insert name value map) : entry = (name, value) ∨ entry ∈ map := by
  induction map with
  | nil => simpa [insert] using member
  | cons first rest ih =>
      obtain ⟨key, old⟩ := first
      rw [insert] at member
      split at member
      · exact (List.mem_cons.mp member).imp_right (List.mem_cons_of_mem _)
      · split at member
        · exact List.mem_cons.mp member
        · rcases List.mem_cons.mp member with same | later
          · exact .inr (same ▸ List.mem_cons_self)
          · exact (ih later).imp_right (List.mem_cons_of_mem _)

theorem mem_foldl_insert (entries : List (String × α)) (map : NameMap α) (entry : String × α)
    (member : entry ∈ entries.foldl (fun map entry => insert entry.1 entry.2 map) map) :
    entry ∈ map ∨ entry ∈ entries := by
  induction entries generalizing map with
  | nil => exact .inl member
  | cons first rest ih =>
      rcases ih _ member with inserted | later
      · rcases mem_insert _ _ _ _ inserted with same | old
        · exact .inr (same ▸ List.mem_cons_self)
        · exact .inl old
      · exact .inr (List.mem_cons_of_mem _ later)

theorem mem_ofList (entries : List (String × α)) (entry : String × α)
    (member : entry ∈ ofList entries) : entry ∈ entries :=
  (mem_foldl_insert entries [] entry member).resolve_left List.not_mem_nil

theorem get?_append (first second : NameMap α) (key : String) :
    get? (first ++ second) key = (get? first key).or (get? second key) :=
  List.lookup_append

theorem get?_eq_none_iff (map : NameMap α) (key : String) :
    get? map key = none ↔ key ∉ map.names := by
  induction map with
  | nil => simp [get?, names]
  | cons first rest ih =>
      obtain ⟨name, value⟩ := first
      rw [get?_cons, names, List.map_cons, List.mem_cons, not_or, ← names, ← ih]
      by_cases same : key = name <;> simp [same]

theorem get?_of_mem {map : NameMap α} (distinct : map.names.Nodup) {key : String} {value : α}
    (present : (key, value) ∈ map) : get? map key = some value := by
  induction map with
  | nil => cases present
  | cons first rest ih =>
      obtain ⟨name, head⟩ := first
      obtain ⟨fresh, distinct⟩ := List.nodup_cons.mp distinct
      rw [get?_cons]
      rcases List.mem_cons.mp present with same | later
      · cases same
        exact if_pos rfl
      · have differ : key ≠ name := by
          rintro rfl
          exact fresh (List.mem_map.mpr ⟨_, later, rfl⟩)
        rw [if_neg differ, ih distinct later]

theorem erase_cons (name head : String) (value : α) (rest : NameMap α) :
    erase name ((head, value) :: rest) =
      if head = name then erase name rest else (head, value) :: erase name rest := by
  by_cases same : head = name <;> simp [erase, same]

theorem get?_erase (name : String) (map : NameMap α) {key : String} (differ : key ≠ name) :
    get? (erase name map) key = get? map key := by
  induction map with
  | nil => rfl
  | cons first rest ih =>
      obtain ⟨head, value⟩ := first
      rw [erase_cons, get?_cons, ← ih]
      split
      · rename_i same
        rw [if_neg (same ▸ differ)]
      · rw [get?_cons]

theorem get?_ofList (entries : List (String × α)) (key : String) :
    get? (ofList entries) key = get? entries.reverse key := by
  have onto (map : NameMap α) :
      get? (entries.foldl (fun map entry => insert entry.1 entry.2 map) map) key =
        (get? entries.reverse key).or (get? map key) := by
    induction entries generalizing map with
    | nil => rfl
    | cons entry rest ih =>
        obtain ⟨name, value⟩ := entry
        rw [List.foldl_cons, ih, get?_insert, List.reverse_cons, get?_append, get?_cons,
          Option.or_assoc]
        by_cases same : key = name
        · simp [same]
        · simp [same, get?]
  rw [ofList, onto, show get? ([] : NameMap α) key = none from rfl, Option.or_none]

/-- The names are in increasing order, each once. -/
def Sorted (map : NameMap α) : Prop :=
  map.Pairwise fun first second => first.1 < second.1

theorem sorted_insert (name : String) (value : α) (map : NameMap α) (sorted : Sorted map) :
    Sorted (insert name value map) := by
  induction map with
  | nil => exact List.pairwise_singleton _ _
  | cons first rest ih =>
      obtain ⟨key, old⟩ := first
      obtain ⟨least, later⟩ := List.pairwise_cons.mp sorted
      rw [insert]
      split
      · rename_i same
        subst same
        exact List.pairwise_cons.mpr ⟨least, later⟩
      · rename_i differ
        split
        · rename_i before
          refine List.pairwise_cons.mpr ⟨fun entry member => ?_, sorted⟩
          rcases List.mem_cons.mp member with rfl | member
          · exact before
          · exact String.lt_trans before (least entry member)
        · rename_i notBefore
          have after : key < name :=
            Std.lt_of_le_of_ne (String.not_lt.mp notBefore) (Ne.symm differ)
          refine List.pairwise_cons.mpr ⟨fun entry member => ?_, ih later⟩
          rcases mem_insert _ _ _ _ member with rfl | member
          · exact after
          · exact least entry member

theorem sorted_ofList (entries : List (String × α)) : Sorted (ofList entries) := by
  have from_sorted (map : NameMap α) (sorted : Sorted map) :
      Sorted (entries.foldl (fun map entry => insert entry.1 entry.2 map) map) := by
    induction entries generalizing map with
    | nil => exact sorted
    | cons entry rest ih => exact ih _ (sorted_insert _ _ map sorted)
  exact from_sorted [] List.Pairwise.nil

theorem insert_of_forall_lt (name : String) (value : α) (map : NameMap α)
    (last : ∀ entry ∈ map, entry.1 < name) : insert name value map = map ++ [(name, value)] := by
  induction map with
  | nil => rfl
  | cons first rest ih =>
      obtain ⟨key, old⟩ := first
      obtain ⟨here, others⟩ := List.forall_mem_cons.mp last
      have differ : name ≠ key := fun same => String.lt_irrefl key (same ▸ here)
      rw [insert, if_neg differ, if_neg (String.lt_asymm here), ih others, List.cons_append]

theorem ofList_of_sorted (map : NameMap α) (sorted : Sorted map) : ofList map = map := by
  have onto (kept rest : NameMap α) (sorted : Sorted (kept ++ rest)) :
      rest.foldl (fun map entry => insert entry.1 entry.2 map) kept = kept ++ rest := by
    induction rest generalizing kept with
    | nil => exact (List.append_nil kept).symm
    | cons entry rest ih =>
        have last := (List.pairwise_append.mp sorted).2.2
        rw [List.foldl_cons, insert_of_forall_lt entry.1 entry.2 kept
          fun other member => last other member entry List.mem_cons_self]
        have shape : kept ++ entry :: rest = (kept ++ [entry]) ++ rest := by simp
        rw [shape] at sorted ⊢
        exact ih _ sorted
  exact onto [] map sorted

section Related

variable {r : α → α → Prop}

theorem isSome_eq_of_rel {held held' : Option α} (related : Option.Rel r held held') :
    held.isSome = held'.isSome := by
  cases related <;> rfl

theorem rel_get?_of_forall₂ {left right : NameMap α}
    (related : List.Forall₂ (fun e f => e.1 = f.1 ∧ r e.2 f.2) left right) (key : String) :
    Option.Rel r (get? left key) (get? right key) := by
  induction related with
  | nil => exact .none
  | @cons e f left right head _ ih =>
      obtain ⟨name, value⟩ := e
      obtain ⟨name', value'⟩ := f
      obtain ⟨rfl, held⟩ := head
      rw [get?_cons, get?_cons]
      split
      · exact .some held
      · exact ih

theorem get?_eq_none_of_forall_lt {map : NameMap α} {key : String}
    (before : ∀ entry ∈ map, key < entry.1) : get? map key = none := by
  rw [get?_eq_none_iff]
  intro present
  obtain ⟨entry, member, rfl⟩ := List.mem_map.mp present
  exact String.lt_irrefl entry.1 (before entry member)

variable {name name' : String} {value value' : α} {rest rest' : NameMap α}

theorem first_le_of_isSome {key : String} (sorted : Sorted ((name, value) :: rest))
    (present : (get? ((name, value) :: rest) key).isSome = true) : name ≤ key := by
  apply String.not_lt.mp
  intro before
  have absent : get? ((name, value) :: rest) key = none := by
    apply get?_eq_none_of_forall_lt
    intro entry member
    rcases List.mem_cons.mp member with rfl | later
    · exact before
    · exact String.lt_trans before ((List.pairwise_cons.mp sorted).1 entry later)
  rw [absent] at present
  cases present

theorem first_eq_of_rel (sorted : Sorted ((name, value) :: rest))
    (sorted' : Sorted ((name', value') :: rest'))
    (related : ∀ key,
      Option.Rel r (get? ((name, value) :: rest) key) (get? ((name', value') :: rest') key)) :
    name = name' := by
  have present := isSome_eq_of_rel (related name)
  have present' := isSome_eq_of_rel (related name')
  rw [get?_cons, if_pos rfl] at present
  rw [get?_cons name', if_pos rfl] at present'
  exact String.le_antisymm (first_le_of_isSome sorted present')
    (first_le_of_isSome sorted' present.symm)

theorem rel_of_rel_cons (sorted : Sorted ((name, value) :: rest))
    (sorted' : Sorted ((name, value') :: rest'))
    (related : ∀ key,
      Option.Rel r (get? ((name, value) :: rest) key) (get? ((name, value') :: rest') key)) :
    r value value' ∧ ∀ key, Option.Rel r (get? rest key) (get? rest' key) := by
  constructor
  · have here := related name
    rw [get?_cons, get?_cons, if_pos rfl, if_pos rfl] at here
    cases here with
    | some held => exact held
  · intro key
    by_cases same : key = name
    · rw [same, get?_eq_none_of_forall_lt (List.pairwise_cons.mp sorted).1,
        get?_eq_none_of_forall_lt (List.pairwise_cons.mp sorted').1]
      exact .none
    · have there := related key
      rwa [get?_cons, get?_cons, if_neg same, if_neg same] at there

/-- Sorted maps that hold related values under every name hold them in the same places. -/
theorem forall₂_of_rel_get? {left right : NameMap α} (sorted : Sorted left)
    (sorted' : Sorted right) (related : ∀ key, Option.Rel r (get? left key) (get? right key)) :
    List.Forall₂ (fun e f => e.1 = f.1 ∧ r e.2 f.2) left right := by
  induction left generalizing right with
  | nil =>
      cases right with
      | nil => exact .nil
      | cons f right =>
          have present := isSome_eq_of_rel (related f.1)
          simp [get?] at present
  | cons e left ih =>
      cases right with
      | nil =>
          have present := isSome_eq_of_rel (related e.1)
          simp [get?] at present
      | cons f right =>
          obtain ⟨name, value⟩ := e
          obtain ⟨name', value'⟩ := f
          obtain rfl := first_eq_of_rel sorted sorted' related
          obtain ⟨here, behind⟩ := rel_of_rel_cons sorted sorted' related
          have later := (List.pairwise_cons.mp sorted).2
          have later' := (List.pairwise_cons.mp sorted').2
          exact .cons ⟨rfl, here⟩ (ih later later' behind)

end Related

end Koy.NameMap
