import Koy.Proofs.ValueEquality

/-! Sets are extensional. The set of a list of values holds the first of the values that are equal to
one another, and two lists make equal sets exactly if each value of the one is equal to a value of
the other. -/

namespace Koy.Value

theorem distinctFrom_eq_append (kept values : List Value) :
    ∃ added, distinctFrom kept values = kept ++ added ∧ added.Sublist values := by
  induction values generalizing kept with
  | nil => exact ⟨[], (List.append_nil kept).symm, .slnil⟩
  | cons value rest ih =>
      rw [distinctFrom]
      split
      · obtain ⟨added, shape, within⟩ := ih kept
        exact ⟨added, shape, within.cons value⟩
      · obtain ⟨added, shape, within⟩ := ih (kept ++ [value])
        refine ⟨value :: added, ?_, within.cons_cons value⟩
        rw [shape, List.append_assoc, List.singleton_append]

theorem distinct_sublist (values : List Value) : (distinct values).Sublist values := by
  obtain ⟨added, shape, within⟩ := distinctFrom_eq_append [] values
  rw [distinct, shape]
  exact within

section Lawful

variable {p : Value → Prop} (lawful : LawfulOn p)

include lawful

theorem exists_equal_distinctFrom (kept values : List Value) (all : ∀ value ∈ values, p value)
    (value : Value) (present : value ∈ values) :
    ∃ member ∈ distinctFrom kept values, member.equal value = true := by
  induction values generalizing kept with
  | nil => cases present
  | cons first rest ih =>
      have stays (more : List Value) (old : Value) (member : old ∈ more) :
          old ∈ distinctFrom more rest := by
        obtain ⟨added, shape, -⟩ := distinctFrom_eq_append more rest
        exact shape ▸ List.mem_append_left added member
      have others : ∀ value ∈ rest, p value := fun value later =>
        all value (List.mem_cons_of_mem first later)
      rw [distinctFrom]
      rcases List.mem_cons.mp present with rfl | later
      · split
        · rename_i found
          obtain ⟨old, member, same⟩ := List.any_eq_true.mp found
          exact ⟨old, stays kept old member, same⟩
        · have self := lawful.refl value (all value List.mem_cons_self)
          exact ⟨value, stays _ value (List.mem_append_right kept List.mem_cons_self), self⟩
      · split
        · exact ih kept others later
        · exact ih _ others later

theorem countP_equal_eq_one {members : List Value} (all : ∀ member ∈ members, p member)
    (apart : members.Pairwise fun a b => a.equal b = false) {value member : Value}
    (valid : p value) (present : member ∈ members) (same : member.equal value = true) :
    members.countP (value.equal ·) = 1 := by
  have valid' := all member present
  have back := lawful.symm member value valid' valid same
  obtain ⟨before, after, rfl⟩ := List.append_of_mem present
  obtain ⟨-, following, preceding⟩ := List.pairwise_append.mp apart
  have none_before : before.countP (value.equal ·) = 0 := by
    rw [List.countP_eq_zero]
    intro other here equal
    have valid'' := all other (List.mem_append_left _ here)
    have linked := lawful.trans member value other valid' valid valid'' same equal
    have clash := lawful.symm member other valid' valid'' linked
    rw [preceding other here member List.mem_cons_self] at clash
    cases clash
  have none_after : after.countP (value.equal ·) = 0 := by
    rw [List.countP_eq_zero]
    intro other here equal
    have valid'' := all other (List.mem_append_right _ (List.mem_cons_of_mem _ here))
    have linked := lawful.trans member value other valid' valid valid'' same equal
    rw [(List.pairwise_cons.mp following).1 other here] at linked
    cases linked
  rw [List.countP_append, List.countP_cons, none_before, none_after, if_pos back]

/-- Values no two of which are equal are no more than values among which each of them has a partner. -/
theorem length_le_of_partner (left right : List Value) (hleft : ∀ a ∈ left, p a)
    (hright : ∀ b ∈ right, p b) (apart : left.Pairwise fun a b => a.equal b = false)
    (partner : ∀ a ∈ left, ∃ b ∈ right, a.equal b = true) : left.length ≤ right.length := by
  induction left generalizing right with
  | nil => exact Nat.zero_le _
  | cons a left ih =>
      obtain ⟨b, present, equal⟩ := partner a List.mem_cons_self
      obtain ⟨before, after, rfl⟩ := List.append_of_mem present
      have others := partner_elsewhere lawful hleft (hright b present) apart equal
        fun a' member => partner a' (List.mem_cons_of_mem _ member)
      have fewer := ih (before ++ after) (fun a' member => hleft a' (List.mem_cons_of_mem _ member))
        (fun b' member => hright b' (by simp_all; tauto)) (List.pairwise_cons.mp apart).2 others
      simp only [List.length_append, List.length_cons] at fewer ⊢
      omega

end Lawful

theorem exists_member {values : List Value} (formed : ∀ value ∈ values, WellFormed value)
    {value : Value} (present : value ∈ values) :
    ∃ member ∈ distinct values, member.equal value = true :=
  exists_equal_distinctFrom lawfulOn_wellFormed [] values formed value present

/-- If each value has a partner among others, each member of the set of the values has a partner among
the members of the set of the others. -/
theorem exists_partner_distinct {xs ys : List Value} (hxs : ∀ x ∈ xs, WellFormed x)
    (hys : ∀ y ∈ ys, WellFormed y) (partner : ∀ x ∈ xs, ∃ y ∈ ys, x.equal y = true) :
    ∀ a ∈ distinct xs, ∃ b ∈ distinct ys, a.equal b = true := by
  intro a member
  have ha := (distinct_sublist xs).subset member
  obtain ⟨y, hy, equal⟩ := partner a ha
  obtain ⟨b, kept, same⟩ := exists_member hys hy
  have hb := hys b ((distinct_sublist ys).subset kept)
  have back := lawfulOn_wellFormed.symm b y hb (hys y hy) same
  exact ⟨b, kept, lawfulOn_wellFormed.trans a y b (hxs a ha) (hys y hy) hb equal back⟩

theorem exists_partner_of_distinct {xs ys : List Value} (hxs : ∀ x ∈ xs, WellFormed x)
    (hys : ∀ y ∈ ys, WellFormed y)
    (partner : ∀ a ∈ distinct xs, ∃ b ∈ distinct ys, a.equal b = true) :
    ∀ x ∈ xs, ∃ y ∈ ys, x.equal y = true := by
  intro x hx
  obtain ⟨a, kept, same⟩ := exists_member hxs hx
  have ha := hxs a ((distinct_sublist xs).subset kept)
  obtain ⟨b, member, equal⟩ := partner a kept
  have hb := (distinct_sublist ys).subset member
  have back := lawfulOn_wellFormed.symm a x ha (hxs x hx) same
  exact ⟨b, hb, lawfulOn_wellFormed.trans x a b (hxs x hx) ha (hys b hb) back equal⟩

theorem equal_ofSet_iff {xs ys : List Value} (hxs : ∀ x ∈ xs, WellFormed x)
    (hys : ∀ y ∈ ys, WellFormed y) :
    (ofSet xs).equal (ofSet ys) = true ↔
      (∀ x ∈ xs, ∃ y ∈ ys, x.equal y = true) ∧ ∀ y ∈ ys, ∃ x ∈ xs, y.equal x = true := by
  have kept (zs : List Value) (hzs : ∀ z ∈ zs, WellFormed z) : ∀ z ∈ distinct zs, WellFormed z :=
    fun z member => hzs z ((distinct_sublist zs).subset member)
  have apart (zs : List Value) := distinctFrom_pairwise [] zs List.Pairwise.nil
  constructor
  · intro same
    have back := lawfulOn_wellFormed.symm _ _ (.set xs hxs) (.set ys hys) same
    simp only [ofSet, equal, Bool.and_eq_true, allIn_iff] at same back
    exact ⟨exists_partner_of_distinct hxs hys same.2, exists_partner_of_distinct hys hxs back.2⟩
  · rintro ⟨forth, back⟩
    have forth' := exists_partner_distinct hxs hys forth
    have back' := exists_partner_distinct hys hxs back
    have le := length_le_of_partner lawfulOn_wellFormed _ _ (kept xs hxs) (kept ys hys) (apart xs)
      forth'
    have ge := length_le_of_partner lawfulOn_wellFormed _ _ (kept ys hys) (kept xs hxs) (apart ys)
      back'
    simp only [ofSet, equal, Bool.and_eq_true, beq_iff_eq, allIn_iff]
    exact ⟨Nat.le_antisymm le ge, forth'⟩

/-- Sets are equal if and only if they are built of the same values up to equality. The members of a
set are the values it is built of without repetition, in their order. -/
theorem ofSet_extensional (xs ys : List Value) (hxs : ∀ x ∈ xs, WellFormed x)
    (hys : ∀ y ∈ ys, WellFormed y) :
    ((ofSet xs).equal (ofSet ys) = true ↔
      (∀ x ∈ xs, ∃ y ∈ ys, x.equal y = true) ∧ ∀ y ∈ ys, ∃ x ∈ xs, y.equal x = true) ∧
    ((∀ value, value ∈ xs ↔ value ∈ ys) → (ofSet xs).equal (ofSet ys) = true) ∧
    ∃ members, ofSet xs = .set members ∧ members.Sublist xs ∧
      (members.Pairwise fun a b => a.equal b = false ∧ b.equal a = false) ∧
      ∀ x ∈ xs, members.countP (x.equal ·) = 1 := by
  have kept : ∀ member ∈ distinct xs, WellFormed member := fun member present =>
    hxs member ((distinct_sublist xs).subset present)
  have apart := distinctFrom_pairwise [] xs List.Pairwise.nil
  refine ⟨equal_ofSet_iff hxs hys, ?_, distinct xs, rfl, distinct_sublist xs, ?_, ?_⟩
  · intro same
    have self (z : Value) (formed : WellFormed z) := lawfulOn_wellFormed.refl z formed
    exact (equal_ofSet_iff hxs hys).mpr ⟨fun x hx => ⟨x, (same x).mp hx, self x (hxs x hx)⟩,
      fun y hy => ⟨y, (same y).mpr hy, self y (hys y hy)⟩⟩
  · apply apart.imp_of_mem
    intro a b ha hb differ
    refine ⟨differ, Bool.eq_false_iff.mpr fun same => ?_⟩
    rw [lawfulOn_wellFormed.symm b a (kept b hb) (kept a ha) same] at differ
    cases differ
  · intro x hx
    obtain ⟨member, present, same⟩ := exists_member hxs hx
    exact countP_equal_eq_one lawfulOn_wellFormed kept apart (hxs x hx) present same

theorem ofSet_extensional_sample :
    let pair := ofSet [.int 1, .int 2]
    let turned := ofSet [.int 2, .int 1, .int 2]
    let xs := [pair, .text [104, 105], turned]
    let ys := [.text [104, 105], turned]
    (∀ x ∈ xs, WellFormed x) ∧ (∀ y ∈ ys, WellFormed y) ∧ (ofSet xs).equal (ofSet ys) = true ∧
      (∀ y ∈ ys, ∃ x ∈ xs, y.equal x = true) ∧
      ∃ members, ofSet xs = .set members ∧ members.Sublist xs ∧
        (members.Pairwise fun a b => a.equal b = false ∧ b.equal a = false) ∧
        ∀ x ∈ xs, members.countP (x.equal ·) = 1 := by
  intro pair turned xs ys
  have one : WellFormed (.int 1) := .int 1
  have two : WellFormed (.int 2) := .int 2
  have formed : WellFormed pair := .set _ (by simp [one, two])
  have formed' : WellFormed turned := .set _ (by simp [one, two])
  have greeting : WellFormed (.text [104, 105]) := .text _
  have hxs : ∀ x ∈ xs, WellFormed x := by simp [xs, formed, formed', greeting]
  have hys : ∀ y ∈ ys, WellFormed y := by simp [ys, formed', greeting]
  have same : (ofSet xs).equal (ofSet ys) = true := by decide +kernel
  obtain ⟨extensional, -, members⟩ := ofSet_extensional xs ys hxs hys
  exact ⟨hxs, hys, same, (extensional.mp same).2, members⟩

end Koy.Value
