import Koy.Expr

/-! Whether two expressions are the same tree, their places included. -/

namespace Koy

namespace Expr

mutual

def same : Expr → Expr → Bool
  | .missing, .missing => true
  | .int value p, .int value' p' => value = value' && p = p'
  | .bool value p, .bool value' p' => value = value' && p = p'
  | .text value p, .text value' p' => value = value' && p = p'
  | .sequence items p, .sequence items' p' => sameAll items items' && p = p'
  | .set items p, .set items' p' => sameAll items items' && p = p'
  | .mapping entries p, .mapping entries' p' => sameEntries entries entries' && p = p'
  | .function params id body q p, .function params' id' body' q' p' =>
    params = params' && id = id' && sameAll body body' && q = q' && p = p'
  | .identifier name p, .identifier name' p' => name = name' && p = p'
  | .update op before operand p, .update op' before' operand' p' =>
    op = op' && before = before' && same operand operand' && p = p'
  | .binary op lhs rhs p, .binary op' lhs' rhs' p' =>
    op = op' && same lhs lhs' && same rhs rhs' && p = p'
  | .declare name mutable value p, .declare name' mutable' value' p' =>
    name = name' && mutable = mutable' && same value value' && p = p'
  | .assign name value p, .assign name' value' p' => name = name' && same value value' && p = p'
  | .println argument p, .println argument' p' => same argument argument' && p = p'
  | .branch condition consequent alternative p, .branch condition' consequent' alternative' p' =>
    same condition condition' && same consequent consequent' &&
      sameAlternative alternative alternative' && p = p'
  | .loop condition body p, .loop condition' body' p' =>
    same condition condition' && same body body' && p = p'
  | .block elements p, .block elements' p' => sameAll elements elements' && p = p'
  | .call callee arguments p, .call callee' arguments' p' =>
    callee = callee' && sameAll arguments arguments' && p = p'
  | .labeledCall callee arguments p, .labeledCall callee' arguments' p' =>
    callee = callee' && sameEntries arguments arguments' && p = p'
  | _, _ => false

def sameAll : List Expr → List Expr → Bool
  | [], [] => true
  | expr :: rest, expr' :: rest' => same expr expr' && sameAll rest rest'
  | _, _ => false

def sameEntries : List (String × Expr) → List (String × Expr) → Bool
  | [], [] => true
  | (name, expr) :: rest, (name', expr') :: rest' =>
    name = name' && same expr expr' && sameEntries rest rest'
  | _, _ => false

def sameAlternative : Option Expr → Option Expr → Bool
  | none, none => true
  | some expr, some expr' => same expr expr'
  | _, _ => false

end

mutual

theorem same_iff : (expr other : Expr) → same expr other = true ↔ expr = other
  | .missing, other | .int _ _, other | .bool _ _, other | .text _ _, other
  | .identifier _ _, other => by cases other <;> simp [same]
  | .sequence items _, other | .set items _, other | .block items _, other
  | .function _ _ items _ _, other | .call _ items _, other => by
      cases other <;> simp [same, sameAll_iff items, and_assoc]
  | .mapping entries _, other | .labeledCall _ entries _, other => by
      cases other <;> simp [same, sameEntries_iff entries, and_assoc]
  | .update _ _ operand _, other | .declare _ _ operand _, other | .assign _ operand _, other
  | .println operand _, other => by
      cases other <;> simp [same, same_iff operand, and_assoc]
  | .binary _ lhs rhs _, other | .loop lhs rhs _, other => by
      cases other <;> simp [same, same_iff lhs, same_iff rhs, and_assoc]
  | .branch condition consequent alternative _, other => by
      cases other <;> simp [same, same_iff condition, same_iff consequent,
        sameAlternative_iff alternative, and_assoc]

theorem sameAll_iff : (exprs others : List Expr) → sameAll exprs others = true ↔ exprs = others
  | [], others => by cases others <;> simp [sameAll]
  | expr :: rest, others => by
      cases others <;> simp [sameAll, same_iff expr, sameAll_iff rest]

theorem sameEntries_iff :
    (entries others : List (String × Expr)) → sameEntries entries others = true ↔ entries = others
  | [], others => by cases others <;> simp [sameEntries]
  | (name, expr) :: rest, [] => by simp [sameEntries]
  | (name, expr) :: rest, (name', expr') :: rest' => by
      simp [sameEntries, same_iff expr, sameEntries_iff rest]

theorem sameAlternative_iff :
    (alternative other : Option Expr) → sameAlternative alternative other = true ↔ alternative = other
  | none, other => by cases other <;> simp [sameAlternative]
  | some expr, other => by cases other <;> simp [sameAlternative, same_iff expr]

end

instance : DecidableEq Expr := fun expr other =>
  decidable_of_iff _ (same_iff expr other)

end Expr

end Koy
