import Koy.Proofs.Relocation
import Koy.Text.Lines

/-! The lines of a text, and how many they are. A text of whole pieces has a line for each of them if
no piece has a line end inside, and more lines otherwise. -/

namespace Koy.Text

theorem lines_append (body rest : Bytes) (inside : lineEnd ∉ body) :
    lines (body ++ lineEnd :: rest) = (body ++ [lineEnd]) :: lines rest := by
  induction body with
  | nil => simp [lines]
  | cons byte body ih =>
      have other : byte ≠ lineEnd := fun same => inside (same ▸ List.mem_cons_self)
      rw [List.cons_append, lines, if_neg other, ih fun member => inside (List.mem_cons_of_mem _ member)]
      rfl

theorem lines_flatMap (bodies : List Bytes) (inside : ∀ body ∈ bodies, lineEnd ∉ body) :
    lines (bodies.flatMap (· ++ [lineEnd])) = bodies.map (· ++ [lineEnd]) := by
  induction bodies with
  | nil => rfl
  | cons body rest ih =>
      obtain ⟨here, others⟩ := List.forall_mem_cons.mp inside
      rw [List.flatMap_cons, List.append_assoc, List.singleton_append, lines_append body _ here,
        ih others, List.map_cons]

theorem length_lines_append (body rest : Bytes) :
    (lines (body ++ lineEnd :: rest)).length = body.count lineEnd + 1 + (lines rest).length := by
  induction body with
  | nil => simp [lines, Nat.add_comm]
  | cons byte body ih =>
      rw [List.cons_append, lines, List.count_cons]
      split
      · rename_i ending
        rw [List.length_cons, ih, ending]
        simp only [beq_self_eq_true, if_true]
        omega
      · rename_i other
        generalize lines (body ++ lineEnd :: rest) = others at ih
        cases others with
        | nil =>
            rw [List.length_nil] at ih
            omega
        | cons line more => simpa [other] using ih

theorem length_le_length_lines (bodies : List Bytes) :
    bodies.length ≤ (lines (bodies.flatMap (· ++ [lineEnd]))).length := by
  induction bodies with
  | nil => exact Nat.zero_le _
  | cons body rest ih =>
      rw [List.flatMap_cons, List.append_assoc, List.singleton_append, length_lines_append,
        List.length_cons]
      omega

/-- Pieces that are put on lines of their own are as many as the lines exactly if none of them has a
line end inside. -/
theorem length_lines_eq_iff (bodies : List Bytes) :
    (lines (bodies.flatMap (· ++ [lineEnd]))).length = bodies.length ↔
      ∀ body ∈ bodies, lineEnd ∉ body := by
  induction bodies with
  | nil => simp [lines]
  | cons body rest ih =>
      have least := length_le_length_lines rest
      rw [List.forall_mem_cons, ← ih, ← List.count_eq_zero, List.flatMap_cons, List.append_assoc,
        List.singleton_append, length_lines_append, List.length_cons]
      omega

theorem lineEnd_mem_ofString (text : String) : lineEnd ∈ Bytes.ofString text ↔ '\n' ∈ text.toList := by
  rw [Bytes.ofString, Bytes.ofChars, List.mem_flatMap]
  constructor
  · rintro ⟨c, member, inside⟩
    have counted := Position.count_encodeChar c
    split at counted
    · rename_i newline
      exact newline ▸ member
    · exact absurd inside (List.count_eq_zero.mp counted)
  · exact fun member => ⟨'\n', member, by decide⟩

end Koy.Text
