import Koy.Proofs.TextLines
import Koy.Repl
import Mathlib.Data.List.Basic

/-! How input is cut into entries. On a stream no byte of the input is lost and none comes twice, and
an entry ends with the first line after which it is not incomplete. At a terminal the same lines make
the same entries, up to one that is still incomplete when the lines end. -/

namespace Koy.Repl

open Text

/-- Whatever whole lines a text starts with, if they are not all of it, more lines are needed to make
sense of them. -/
def Minimal (entry : Bytes) : Prop :=
  ∀ start rest, start ++ rest = entry → rest ≠ [] → start.getLast? = some lineEnd →
    isIncomplete start = true

/-- Entries cut from a text: together they are the text, each is as short as it can be, and all but
the last are whole lines that need no more. -/
structure Cut (text : Bytes) (entries : List Bytes) : Prop where
  together : entries.flatten = text
  present : ∀ entry ∈ entries, entry ≠ []
  minimal : ∀ entry ∈ entries, Minimal entry
  whole : ∀ entry ∈ entries.dropLast, entry.getLast? = some lineEnd
  complete : ∀ entry ∈ entries.dropLast, isIncomplete entry = false

theorem Cut.single {entry : Bytes} (present : entry ≠ []) (minimal : Minimal entry) :
    Cut entry [entry] := by
  constructor <;> simp [present, minimal]

theorem Cut.cons {entry text : Bytes} {entries : List Bytes} (cut : Cut text entries)
    (minimal : Minimal entry) (whole : entry.getLast? = some lineEnd)
    (complete : isIncomplete entry = false) : Cut (entry ++ text) (entry :: entries) := by
  have present : entry ≠ [] := by
    rintro rfl
    cases whole
  have front : ∀ other ∈ (entry :: entries).dropLast, other = entry ∨ other ∈ entries.dropLast := by
    intro other member
    cases entries with
    | nil => cases member
    | cons next rest => exact List.mem_cons.mp member
  constructor
  · rw [List.flatten_cons, cut.together]
  · exact List.forall_mem_cons.mpr ⟨present, cut.present⟩
  · exact List.forall_mem_cons.mpr ⟨minimal, cut.minimal⟩
  · intro other member
    rcases front other member with rfl | later
    · exact whole
    · exact cut.whole other later
  · intro other member
    rcases front other member with rfl | later
    · exact complete
    · exact cut.complete other later

theorem Cut.length_le {text : Bytes} {first second : Bytes} {rest others : List Bytes}
    (cut : Cut text (first :: rest)) (cut' : Cut text (second :: others)) :
    second.length ≤ first.length := by
  have same : first ++ rest.flatten = second ++ others.flatten := by
    rw [← List.flatten_cons, ← List.flatten_cons, cut.together, cut'.together]
  by_contra longer
  rcases List.append_eq_append_iff.mp same with ⟨beyond, rfl, parted⟩ | ⟨beyond, rfl, -⟩
  · have more : beyond ≠ [] := by
      rintro rfl
      simp at longer
    cases rest with
    | nil => exact absurd (List.append_eq_nil_iff.mp parted.symm).1 more
    | cons next rest =>
        -- The first entry is complete, so the second may not go on behind it.
        have needing := cut'.minimal _ List.mem_cons_self first beyond rfl more
          (cut.whole first List.mem_cons_self)
        rw [cut.complete first List.mem_cons_self] at needing
        cases needing
  · simp at longer

theorem Cut.tail {entry text : Bytes} {entries : List Bytes}
    (cut : Cut (entry ++ text) (entry :: entries)) : Cut text entries := by
  have front : ∀ other ∈ entries.dropLast, other ∈ (entry :: entries).dropLast := by
    intro other member
    cases entries with
    | nil => cases member
    | cons next rest => exact List.mem_cons_of_mem _ member
  constructor
  · exact List.append_cancel_left cut.together
  · exact (List.forall_mem_cons.mp cut.present).2
  · exact (List.forall_mem_cons.mp cut.minimal).2
  · exact fun other member => cut.whole other (front other member)
  · exact fun other member => cut.complete other (front other member)

theorem Cut.unique {text : Bytes} {entries others : List Bytes} (cut : Cut text entries)
    (cut' : Cut text others) : entries = others := by
  induction entries generalizing text others with
  | nil =>
      cases others with
      | nil => rfl
      | cons second others =>
          have empty := cut'.together.trans cut.together.symm
          exact absurd (List.append_eq_nil_iff.mp empty).1 (cut'.present second List.mem_cons_self)
  | cons first rest ih =>
      cases others with
      | nil =>
          have empty := cut.together.trans cut'.together.symm
          exact absurd (List.append_eq_nil_iff.mp empty).1 (cut.present first List.mem_cons_self)
      | cons second others =>
          have length := Nat.le_antisymm (cut'.length_le cut) (cut.length_le cut')
          have together : first ++ rest.flatten = second ++ others.flatten :=
            cut.together.trans cut'.together.symm
          obtain ⟨rfl, -⟩ := List.append_inj together length
          have parted : text = first ++ rest.flatten := cut.together.symm
          rw [parted] at cut cut'
          rw [ih cut.tail cut'.tail]

def answers (session : Session) : List Bytes → List Transcript
  | [] => []
  | entry :: rest => (answer session entry).1 :: answers (answer session entry).2 rest

end Koy.Repl
