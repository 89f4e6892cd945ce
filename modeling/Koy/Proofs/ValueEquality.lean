import Koy.Proofs.NameMap
import Koy.Value.Equality
import Mathlib.Data.List.Forall2

/-! Equality of values is an equivalence relation on the values that the constructors build.

Equality of two sets only asks that both have as many members and that each member of the first
has an equal one in the second. That this is symmetric rests on sets holding no two equal members,
which is itself said with equality, so the three laws are proved together, from the parts of values
to the values. -/

namespace Koy.Value

/-- The values that the constructors build: members of sets are deduplicated, and of two mapping
entries under one name the later stays. -/
inductive WellFormed : Value → Prop where
  | int (n : Int64) : WellFormed (.int n)
  | bool (b : Bool) : WellFormed (.bool b)
  | text (content : Bytes) : WellFormed (.text content)
  | sequence (items : List Value) (parts : ∀ item ∈ items, WellFormed item) :
      WellFormed (.sequence items)
  | set (values : List Value) (parts : ∀ value ∈ values, WellFormed value) :
      WellFormed (ofSet values)
  | mapping (entries : List (String × Value)) (parts : ∀ entry ∈ entries, WellFormed entry.2) :
      WellFormed (ofMapping entries)
  | function (params : List String) (body : Body) : WellFormed (.function params body)
  | invalid : WellFormed .invalid

theorem equalAll_iff (left right : List Value) :
    equalAll left right = true ↔ List.Forall₂ (fun a b => a.equal b = true) left right := by
  induction left generalizing right with
  | nil => cases right <;> simp [equalAll]
  | cons a left ih => cases right <;> simp [equalAll, ih]

theorem allIn_iff (left right : List Value) :
    allIn left right = true ↔ ∀ a ∈ left, ∃ b ∈ right, a.equal b = true := by
  induction left with
  | nil => simp [allIn]
  | cons a left ih => simp [allIn, ih]

theorem equalEntries_iff (left right : List (String × Value)) :
    equalEntries left right = true ↔
      List.Forall₂ (fun e f => e.1 = f.1 ∧ e.2.equal f.2 = true) left right := by
  induction left generalizing right with
  | nil => cases right <;> simp [equalEntries]
  | cons e left ih =>
      cases right with
      | nil => simp [equalEntries]
      | cons f right => obtain ⟨key, a⟩ := e; obtain ⟨key', b⟩ := f; simp [equalEntries, ih]

theorem mem_distinctFrom (kept values : List Value) (value : Value)
    (member : value ∈ distinctFrom kept values) : value ∈ kept ∨ value ∈ values := by
  induction values generalizing kept with
  | nil => exact .inl member
  | cons first rest ih =>
      rw [distinctFrom] at member
      split at member
      · exact (ih kept member).imp_right (List.mem_cons_of_mem _)
      · rcases ih _ member with old | new
        · rcases List.mem_append.mp old with old | last
          · exact .inl old
          · exact .inr (by simp_all)
        · exact .inr (List.mem_cons_of_mem _ new)

theorem distinctFrom_pairwise (kept values : List Value)
    (distinct : kept.Pairwise fun a b => a.equal b = false) :
    (distinctFrom kept values).Pairwise fun a b => a.equal b = false := by
  induction values generalizing kept with
  | nil => exact distinct
  | cons value rest ih =>
      rw [distinctFrom]
      split
      · exact ih kept distinct
      · rename_i absent
        apply ih
        rw [List.pairwise_append]
        refine ⟨distinct, List.pairwise_singleton _ _, ?_⟩
        intro a member b last
        rw [List.mem_singleton.mp last]
        simp only [List.any_eq_true, not_exists, not_and, Bool.not_eq_true] at absent
        exact absent a member

theorem distinctFrom_of_pairwise (kept values : List Value)
    (apart : (kept ++ values).Pairwise fun a b => a.equal b = false) :
    distinctFrom kept values = kept ++ values := by
  induction values generalizing kept with
  | nil => exact (List.append_nil kept).symm
  | cons value rest ih =>
      have absent : kept.any (·.equal value) = false := by
        rw [List.any_eq_false]
        intro other member
        rw [(List.pairwise_append.mp apart).2.2 other member value List.mem_cons_self]
        exact Bool.false_ne_true
      have shape : kept ++ value :: rest = (kept ++ [value]) ++ rest := by simp
      rw [shape] at apart ⊢
      rw [distinctFrom, absent, if_neg Bool.false_ne_true, ih _ apart]

theorem WellFormed.items {items : List Value} (formed : WellFormed (.sequence items)) :
    ∀ item ∈ items, WellFormed item := by
  cases formed with
  | sequence _ parts => exact parts

theorem WellFormed.members {members : List Value} (formed : WellFormed (.set members)) :
    ∀ member ∈ members, WellFormed member := by
  generalize shape : Value.set members = value at formed
  cases formed with
  | set values parts =>
      cases shape
      intro member present
      exact parts member ((mem_distinctFrom [] values member present).resolve_left List.not_mem_nil)
  | _ => simp [ofMapping] at shape

theorem WellFormed.distinct {members : List Value} (formed : WellFormed (.set members)) :
    members.Pairwise fun a b => a.equal b = false := by
  generalize shape : Value.set members = value at formed
  cases formed with
  | set values parts =>
      cases shape
      exact distinctFrom_pairwise [] values List.Pairwise.nil
  | _ => simp [ofMapping] at shape

theorem WellFormed.entries {entries : List (String × Value)}
    (formed : WellFormed (.mapping entries)) : ∀ entry ∈ entries, WellFormed entry.2 := by
  generalize shape : Value.mapping entries = value at formed
  cases formed with
  | mapping given parts =>
      cases shape
      intro entry present
      exact parts entry (NameMap.mem_ofList given entry present)
  | _ => simp [ofSet] at shape

theorem WellFormed.ofSet_eq {members : List Value} (formed : WellFormed (.set members)) :
    ofSet members = .set members :=
  congrArg Value.set (distinctFrom_of_pairwise [] members formed.distinct)

theorem WellFormed.ofMapping_eq {entries : List (String × Value)}
    (formed : WellFormed (.mapping entries)) : ofMapping entries = .mapping entries := by
  generalize shape : Value.mapping entries = value at formed
  cases formed with
  | mapping given parts =>
      cases shape
      exact congrArg Value.mapping (NameMap.ofList_of_sorted _ (NameMap.sorted_ofList given))
  | _ => simp [ofSet] at shape

structure LawfulOn (p : Value → Prop) : Prop where
  refl (u : Value) : p u → u.equal u = true
  symm (u v : Value) : p u → p v → u.equal v = true → v.equal u = true
  trans (u v w : Value) : p u → p v → p w →
    u.equal v = true → v.equal w = true → u.equal w = true

/-- Two distinct values have different partners: without the partner of the first, the others still
have theirs. -/
theorem partner_elsewhere {p : Value → Prop} (lawful : LawfulOn p) {a b : Value}
    {left before after : List Value} (hleft : ∀ a' ∈ a :: left, p a') (hb : p b)
    (distinct : (a :: left).Pairwise fun a b => a.equal b = false) (equal : a.equal b = true)
    (partner : ∀ a' ∈ left, ∃ b' ∈ before ++ b :: after, a'.equal b' = true) :
    ∀ a' ∈ left, ∃ b' ∈ before ++ after, a'.equal b' = true := by
  intro a' member
  obtain ⟨b', present, equal'⟩ := partner a' member
  have elsewhere : b' ≠ b := by
    rintro rfl
    have pa := hleft a List.mem_cons_self
    have pa' := hleft a' (List.mem_cons_of_mem _ member)
    have back := lawful.symm a' b' pa' hb equal'
    have same := lawful.trans a b' a' pa hb pa' equal back
    rw [(List.pairwise_cons.mp distinct).1 a' member] at same
    cases same
  exact ⟨b', by simp_all, equal'⟩

theorem partner_of_distinct {p : Value → Prop} (lawful : LawfulOn p) (left right : List Value)
    (hleft : ∀ a ∈ left, p a) (hright : ∀ b ∈ right, p b) (length : left.length = right.length)
    (distinct : left.Pairwise fun a b => a.equal b = false)
    (partner : ∀ a ∈ left, ∃ b ∈ right, a.equal b = true) :
    ∀ b ∈ right, ∃ a ∈ left, a.equal b = true := by
  induction left generalizing right with
  | nil =>
      have none : right = [] := List.length_eq_zero_iff.mp length.symm
      simp [none]
  | cons a left ih =>
      obtain ⟨b, present, equal⟩ := partner a List.mem_cons_self
      obtain ⟨before, after, rfl⟩ := List.append_of_mem present
      have others := partner_elsewhere lawful hleft (hright b present) distinct equal
        fun a' member => partner a' (List.mem_cons_of_mem _ member)
      have found := ih (before ++ after)
        (fun a' member => hleft a' (List.mem_cons_of_mem _ member))
        (fun b' member => hright b' (by simp_all; tauto))
        (by simp_all; omega) (List.pairwise_cons.mp distinct).2 others
      intro b' member
      by_cases same : b' = b
      · exact ⟨a, List.mem_cons_self, same ▸ equal⟩
      · obtain ⟨a', member', equal'⟩ := found b' (by simp_all)
        exact ⟨a', List.mem_cons_of_mem _ member', equal'⟩

theorem forall₂_symm {α : Type} {r : α → α → Prop} {left right : List α}
    (symm : ∀ a ∈ left, ∀ b ∈ right, r a b → r b a) (related : List.Forall₂ r left right) :
    List.Forall₂ r right left := by
  induction related with
  | nil => exact .nil
  | cons head _ ih =>
      refine .cons (symm _ List.mem_cons_self _ List.mem_cons_self head) (ih ?_)
      intro a ha b hb
      exact symm a (List.mem_cons_of_mem _ ha) b (List.mem_cons_of_mem _ hb)

theorem forall₂_trans {α : Type} {r : α → α → Prop} {left middle right : List α}
    (trans : ∀ a ∈ left, ∀ b ∈ middle, ∀ c ∈ right, r a b → r b c → r a c)
    (first : List.Forall₂ r left middle) (second : List.Forall₂ r middle right) :
    List.Forall₂ r left right := by
  induction first generalizing right with
  | nil => cases second; exact .nil
  | cons head _ ih =>
      cases second with
      | cons head' tail' =>
          refine .cons (trans _ List.mem_cons_self _ List.mem_cons_self _ List.mem_cons_self
            head head') (ih ?_ tail')
          intro a ha b hb c hc
          exact trans a (List.mem_cons_of_mem _ ha) b (List.mem_cons_of_mem _ hb) c
            (List.mem_cons_of_mem _ hc)

def parts : Value → List Value
  | .sequence items => items
  | .set members => members
  | .mapping entries => entries.map Prod.snd
  | _ => []

theorem sizeOf_part (value part : Value) (inside : part ∈ value.parts) :
    sizeOf part < sizeOf value := by
  cases value with
  | sequence items =>
      have smaller : sizeOf part < sizeOf items := List.sizeOf_lt_of_mem inside
      simp only [sequence.sizeOf_spec]
      omega
  | set members =>
      have smaller : sizeOf part < sizeOf members := List.sizeOf_lt_of_mem inside
      simp only [set.sizeOf_spec]
      omega
  | mapping entries =>
      obtain ⟨entry, present, rfl⟩ := List.mem_map.mp inside
      have smaller := List.sizeOf_lt_of_mem present
      obtain ⟨key, value⟩ := entry
      simp only [mapping.sizeOf_spec, Prod.mk.sizeOf_spec] at *
      omega
  | _ => cases inside

section Lift

variable {p : Value → Prop} (lawful : LawfulOn p)

include lawful

theorem LawfulOn.lift_refl (u : Value) (parts : ∀ part ∈ u.parts, p part) :
    u.equal u = true := by
  cases u with
  | sequence items =>
      rw [equal, equalAll_iff, List.forall₂_same]
      exact fun item member => lawful.refl item (parts item member)
  | set members =>
      simp only [equal, beq_self_eq_true, Bool.true_and, allIn_iff]
      exact fun member present => ⟨member, present, lawful.refl member (parts member present)⟩
  | mapping entries =>
      rw [equal, equalEntries_iff, List.forall₂_same]
      exact fun entry member =>
        ⟨rfl, lawful.refl entry.2 (parts entry.2 (List.mem_map_of_mem member))⟩
  | _ => simp [equal]

theorem LawfulOn.lift_symm (u v : Value) (formed : WellFormed u)
    (hu : ∀ part ∈ u.parts, p part) (hv : ∀ part ∈ v.parts, p part) (same : u.equal v = true) :
    v.equal u = true := by
  cases u <;> cases v <;> simp only [equal, Bool.false_eq_true] at same ⊢
  case sequence.sequence left right =>
    rw [equalAll_iff] at same ⊢
    exact forall₂_symm (fun a ha b hb => lawful.symm a b (hu a ha) (hv b hb)) same
  case set.set left right =>
    simp only [Bool.and_eq_true, beq_iff_eq, allIn_iff] at same ⊢
    obtain ⟨length, partner⟩ := same
    have back := partner_of_distinct lawful left right hu hv length formed.distinct partner
    refine ⟨length.symm, fun b hb => ?_⟩
    obtain ⟨a, ha, equal⟩ := back b hb
    exact ⟨a, ha, lawful.symm a b (hu a ha) (hv b hb) equal⟩
  case mapping.mapping left right =>
    rw [equalEntries_iff] at same ⊢
    refine forall₂_symm (fun e he f hf h => ⟨h.1.symm, ?_⟩) same
    exact lawful.symm e.2 f.2 (hu _ (List.mem_map_of_mem he)) (hv _ (List.mem_map_of_mem hf)) h.2
  all_goals simp_all

theorem LawfulOn.lift_trans (u v w : Value) (hu : ∀ part ∈ u.parts, p part)
    (hv : ∀ part ∈ v.parts, p part) (hw : ∀ part ∈ w.parts, p part)
    (first : u.equal v = true) (second : v.equal w = true) : u.equal w = true := by
  cases u <;> cases v <;> simp only [equal, Bool.false_eq_true] at first <;>
    cases w <;> simp only [equal, Bool.false_eq_true] at second ⊢
  case sequence.sequence.sequence =>
    rw [equalAll_iff] at first second ⊢
    exact forall₂_trans (fun a ha b hb c hc => lawful.trans a b c (hu a ha) (hv b hb) (hw c hc))
      first second
  case set.set.set =>
    simp only [Bool.and_eq_true, beq_iff_eq, allIn_iff] at first second ⊢
    refine ⟨first.1.trans second.1, fun a ha => ?_⟩
    obtain ⟨b, hb, ab⟩ := first.2 a ha
    obtain ⟨c, hc, bc⟩ := second.2 b hb
    exact ⟨c, hc, lawful.trans a b c (hu a ha) (hv b hb) (hw c hc) ab bc⟩
  case mapping.mapping.mapping =>
    rw [equalEntries_iff] at first second ⊢
    refine forall₂_trans (fun e he f hf g hg h h' => ⟨h.1.trans h'.1, ?_⟩) first second
    exact lawful.trans e.2 f.2 g.2 (hu _ (List.mem_map_of_mem he)) (hv _ (List.mem_map_of_mem hf))
      (hw _ (List.mem_map_of_mem hg)) h.2 h'.2
  all_goals simp_all

end Lift

theorem WellFormed.part {value part : Value} (formed : WellFormed value)
    (inside : part ∈ value.parts) : WellFormed part := by
  cases value with
  | sequence items => exact formed.items part inside
  | set members => exact formed.members part inside
  | mapping entries =>
      obtain ⟨entry, present, rfl⟩ := List.mem_map.mp inside
      exact formed.entries entry present
  | _ => cases inside

/-- The induction that carries the three laws together: they hold up to a size once they hold of
everything smaller. -/
theorem lawfulOn_smaller (bound : Nat) :
    LawfulOn fun value => WellFormed value ∧ sizeOf value < bound := by
  induction bound with
  | zero => constructor <;> intros <;> simp_all
  | succ bound ih =>
      have inside : ∀ value, WellFormed value ∧ sizeOf value < bound + 1 →
          ∀ part ∈ value.parts, WellFormed part ∧ sizeOf part < bound := by
        intro value ⟨formed, small⟩ part present
        have smaller := sizeOf_part value part present
        exact ⟨formed.part present, by omega⟩
      exact {
        refl := fun u hu => ih.lift_refl u (inside u hu)
        symm := fun u v hu hv => ih.lift_symm u v hu.1 (inside u hu) (inside v hv)
        trans := fun u v w hu hv hw =>
          ih.lift_trans u v w (inside u hu) (inside v hv) (inside w hw) }

theorem lawfulOn_wellFormed : LawfulOn WellFormed where
  refl u hu := (lawfulOn_smaller (sizeOf u + 1)).refl u ⟨hu, by omega⟩
  symm u v hu hv := (lawfulOn_smaller (sizeOf u + sizeOf v + 1)).symm u v
    ⟨hu, by omega⟩ ⟨hv, by omega⟩
  trans u v w hu hv hw := (lawfulOn_smaller (sizeOf u + sizeOf v + sizeOf w + 1)).trans u v w
    ⟨hu, by omega⟩ ⟨hv, by omega⟩ ⟨hw, by omega⟩

/-- Whether members are compared from the left set or from the right makes no difference. -/
theorem equal_set_iff_mem_right (left right : List Value) (hleft : WellFormed (.set left))
    (hright : WellFormed (.set right)) :
    equal (.set left) (.set right) = true ↔
      left.length = right.length ∧ ∀ a ∈ left, ∃ b ∈ right, b.equal a = true := by
  have turn : ∀ a ∈ left, ∀ b ∈ right, a.equal b = true ↔ b.equal a = true := by
    intro a ha b hb
    have fa := hleft.members a ha
    have fb := hright.members b hb
    exact ⟨lawfulOn_wellFormed.symm a b fa fb, lawfulOn_wellFormed.symm b a fb fa⟩
  simp only [equal, Bool.and_eq_true, beq_iff_eq, allIn_iff]
  refine and_congr_right fun _ => forall₂_congr fun a ha => exists_congr fun b => ?_
  exact and_congr_right fun hb => turn a ha b hb

theorem equal_equivalence :
    Equivalence fun u v : { value : Value // WellFormed value } => u.val.equal v.val = true where
  refl u := lawfulOn_wellFormed.refl u.val u.property
  symm := fun {u v} => lawfulOn_wellFormed.symm u.val v.val u.property v.property
  trans := fun {u v w} =>
    lawfulOn_wellFormed.trans u.val v.val w.val u.property v.property w.property

end Koy.Value
