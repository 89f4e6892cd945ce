import Mathlib.Data.List.Perm.Basic
import Koy.Proofs.Effects
import Koy.Proofs.NameMap

/-! Calls with labels. Where the labels are the parameters, each once, a labeled call does what the
call does that gives the same arguments by position, in whatever order the labels stand: arguments are
evaluated in the order of the parameters. Where the labels are not the parameters, the call is refused
before anything is evaluated. -/

namespace Koy.Eval

variable {params : List String}

section Matching

variable {labels : NameMap Expr} {arguments : List Expr}

theorem matchLabels_eq_ok (callee : String) (distinct : params.Nodup)
    (given : params.map labels.get? = arguments.map some) :
    matchLabels callee params labels =
      .ok (arguments, labels.filter fun entry => entry.1 ∉ params) := by
  induction params generalizing labels arguments with
  | nil =>
      have nothing : arguments = [] := by simpa using given.symm
      simp [matchLabels, nothing]
  | cons param params ih =>
      obtain ⟨fresh, distinct⟩ := List.nodup_cons.mp distinct
      obtain ⟨argument, arguments, rfl, here, later⟩ := List.map_eq_cons_iff.mp given.symm
      have given' : params.map (labels.erase param).get? = arguments.map some := by
        rw [later]
        refine List.map_congr_left fun other member => NameMap.get?_erase param labels ?_
        rintro rfl
        exact fresh member
      have left : (labels.erase param).filter (fun entry => entry.1 ∉ params) =
          labels.filter fun entry => entry.1 ∉ param :: params := by
        rw [NameMap.erase, List.filter_filter]
        exact List.filter_congr fun entry _ => by simp [not_or, Bool.and_comm]
      rw [matchLabels, ← here, ih distinct given', left]
      rfl

theorem matchLabels_eq_error (callee : String) (distinct : params.Nodup)
    (lacking : ∃ param ∈ params, labels.get? param = none) :
    ∃ param ∈ params, labels.get? param = none ∧
      matchLabels callee params labels = .error (.missingLabel callee param) := by
  induction params generalizing labels with
  | nil => simp at lacking
  | cons param params ih =>
      obtain ⟨fresh, distinct⟩ := List.nodup_cons.mp distinct
      cases here : labels.get? param with
      | none =>
          refine ⟨param, List.mem_cons_self, here, ?_⟩
          rw [matchLabels, here]
      | some argument =>
          have kept (other : String) (member : other ∈ params) :
              (labels.erase param).get? other = labels.get? other := by
            refine NameMap.get?_erase param labels ?_
            rintro rfl
            exact fresh member
          have lacking' : ∃ other ∈ params, (labels.erase param).get? other = none := by
            obtain ⟨other, member, none⟩ := lacking
            rcases List.mem_cons.mp member with rfl | later
            · rw [here] at none
              cases none
            · exact ⟨other, later, (kept other later).trans none⟩
          obtain ⟨other, member, none, refused⟩ := ih distinct lacking'
          refine ⟨other, List.mem_cons_of_mem _ member, (kept other member).symm.trans none, ?_⟩
          rw [matchLabels, here]
          simp only [refused]
          rfl

end Matching

section Arranging

variable {labeled : List (String × Expr)} {arguments : List Expr}

theorem get?_ofList_eq_none_iff (param : String) :
    (NameMap.ofList labeled).get? param = none ↔ param ∉ labeled.map Prod.fst := by
  rw [NameMap.get?_ofList, NameMap.get?_eq_none_iff, NameMap.names, List.map_reverse,
    List.mem_reverse]

theorem arrangeLabels_of_perm (callee : String) (distinct : params.Nodup)
    (length : arguments.length = params.length) (same : labeled.Perm (params.zip arguments)) :
    arrangeLabels callee params labeled = .ok arguments := by
  have names : (params.zip arguments).map Prod.fst = params := List.map_fst_zip (by omega)
  have values : (params.zip arguments).map Prod.snd = arguments := List.map_snd_zip (by omega)
  have distinct' : NameMap.names labeled.reverse |>.Nodup := by
    rw [NameMap.names, ((List.reverse_perm labeled).trans same |>.map Prod.fst).nodup_iff, names]
    exact distinct
  have found (entry : String × Expr) (member : entry ∈ params.zip arguments) :
      (NameMap.ofList labeled).get? entry.1 = some entry.2 := by
    rw [NameMap.get?_ofList]
    exact NameMap.get?_of_mem distinct' (List.mem_reverse.mpr (same.mem_iff.mpr member))
  have given : params.map (NameMap.ofList labeled).get? = arguments.map some := by
    calc params.map (NameMap.ofList labeled).get?
        = (params.zip arguments).map fun entry => (NameMap.ofList labeled).get? entry.1 := by
          rw [← Function.comp_def, ← List.map_map, names]
      _ = (params.zip arguments).map fun entry => some entry.2 := List.map_congr_left found
      _ = arguments.map some := by
          rw [← Function.comp_def, ← List.map_map, values]
  have nothing : ((NameMap.ofList labeled).filter fun entry => entry.1 ∉ params) = [] := by
    rw [List.filter_eq_nil_iff]
    intro entry member
    have listed := same.mem_iff.mp (NameMap.mem_ofList labeled entry member)
    have param := List.mem_map_of_mem (f := Prod.fst) listed
    rw [names] at param
    simpa using param
  rw [arrangeLabels, matchLabels_eq_ok callee distinct given, nothing]
  rfl

theorem arrangeLabels_of_missing (callee : String) (distinct : params.Nodup)
    (lacking : ∃ param ∈ params, param ∉ labeled.map Prod.fst) :
    ∃ param ∈ params, param ∉ labeled.map Prod.fst ∧
      arrangeLabels callee params labeled = .error (.missingLabel callee param) := by
  simp only [← get?_ofList_eq_none_iff] at lacking ⊢
  obtain ⟨param, member, none, refused⟩ := matchLabels_eq_error callee distinct lacking
  refine ⟨param, member, none, ?_⟩
  rw [arrangeLabels, refused]
  rfl

theorem arrangeLabels_of_unknown (callee : String) (distinct : params.Nodup)
    (covered : ∀ param ∈ params, param ∈ labeled.map Prod.fst)
    (beyond : ∃ label ∈ labeled.map Prod.fst, label ∉ params) :
    ∃ label ∈ labeled.map Prod.fst, label ∉ params ∧
      arrangeLabels callee params labeled = .error (.unknownLabel callee label) := by
  let labels := NameMap.ofList labeled
  have present (label : String) (member : label ∈ labeled.map Prod.fst) :
      ∃ argument, labels.get? label = some argument :=
    Option.ne_none_iff_exists'.mp fun none => (get?_ofList_eq_none_iff label).mp none member
  have given : params.map labels.get? =
      (params.map fun param => (labels.get? param).getD .missing).map some := by
    rw [List.map_map]
    refine List.map_congr_left fun param member => ?_
    obtain ⟨argument, found⟩ := present param (covered param member)
    simp [found]
  have arranged := matchLabels_eq_ok callee distinct given
  cases left : labels.filter fun entry => entry.1 ∉ params with
  | nil =>
      obtain ⟨label, listed, other⟩ := beyond
      obtain ⟨argument, found⟩ := present label listed
      have member := List.filter_eq_nil_iff.mp left _ (NameMap.mem_of_get? labels found)
      simp [other] at member
  | cons entry rest =>
      obtain ⟨label, argument⟩ := entry
      obtain ⟨member, other⟩ : (label, argument) ∈ labels ∧ label ∉ params := by
        have inside : (label, argument) ∈ labels.filter fun entry => entry.1 ∉ params :=
          left ▸ List.mem_cons_self
        simpa using List.mem_filter.mp inside
      refine ⟨label, List.mem_map_of_mem (NameMap.mem_ofList labeled _ member), other, ?_⟩
      rw [arrangeLabels, arranged, left]
      rfl

end Arranging

section Calls

variable {conditions : Conditions} {depth : Nat} {sub : ScopeId → Expr → Eval Value}
  {scope : ScopeId} {world : World} {callee : String} {function : FunctionDef}
  (found : world.functions.find callee = .ok function)

include found

theorem call_of_length {arguments : List Expr} (length : arguments.length = function.params.length) :
    call conditions depth sub scope callee arguments world =
      (all sub scope arguments >>= invoke conditions depth sub scope function) world := by
  have looked : call conditions depth sub scope callee arguments world =
      (ofExcept (world.functions.find callee) >>= fun function => do
        if arguments.length ≠ function.params.length then
          fail (.argumentCount callee function.params.length arguments.length)
        let values ← all sub scope arguments
        invoke conditions depth sub scope function values : Eval Value) world := rfl
  rw [looked, found]
  simp only [ofExcept, length, pure_bind, ne_eq, not_true_eq_false, if_false]

theorem labeledCall_of_found (labeled : List (String × Expr)) :
    labeledCall conditions depth sub scope callee labeled world =
      (ofExcept (arrangeLabels callee function.params labeled) >>= fun arguments =>
        all sub scope arguments >>= invoke conditions depth sub scope function) world := by
  have looked : labeledCall conditions depth sub scope callee labeled world =
      (ofExcept (world.functions.find callee) >>= fun function =>
        ofExcept (arrangeLabels callee function.params labeled) >>= fun arguments =>
          all sub scope arguments >>= invoke conditions depth sub scope function) world := rfl
  rw [looked, found]
  rfl

end Calls

/-- With the labels in any order a labeled call has the outcome of the call by position, writes the same
and leaves the same world. Where labels and parameters differ the call fails, and nothing changes: a
parameter without a label is reported first, and then a label without a parameter. -/
theorem labels_stand_for_places (conditions : Conditions) (quiet : conditions.traced = false)
    (room : Nat) (scope : ScopeId) (world : World) (callee : String) (function : FunctionDef)
    (found : world.functions.find callee = .ok function) (distinct : function.params.Nodup)
    (labeled : List (String × Expr)) (position : Position) :
    let labels := labeled.map Prod.fst
    let run := withRoom conditions room scope (.labeledCall callee labeled position) world
    (∀ arguments place, arguments.length = function.params.length →
      labeled.Perm (function.params.zip arguments) →
        run = withRoom conditions room scope (.call callee arguments place) world) ∧
    (0 < room → (∃ param ∈ function.params, param ∉ labels) →
      ∃ param ∈ function.params, param ∉ labels ∧
        ∃ fault, fault = .missingLabel callee param ∧ fault.kind = .missingLabel ∧
          run = .error (.fault fault) world) ∧
    (0 < room → (∀ param ∈ function.params, param ∈ labels) →
      (∃ label ∈ labels, label ∉ function.params) →
        ∃ label ∈ labels, label ∉ function.params ∧
          ∃ fault, fault = .unknownLabel callee label ∧ fault.kind = .arityMismatch ∧
            run = .error (.fault fault) world) := by
  intro labels run
  cases room with
  | zero => exact ⟨fun _ _ _ _ => rfl, nofun, nofun⟩
  | succ room =>
      have stepped (expr : Expr) (present : expr ≠ .missing) :=
        congrFun (withRoom_quiet quiet room scope expr present) world
      have labeledRun : run = (ofExcept (arrangeLabels callee function.params labeled) >>=
          fun arguments => all (withRoom conditions room) scope arguments >>=
            invoke conditions (conditions.maxDepth - room) (withRoom conditions room) scope
              function) world :=
        (stepped (.labeledCall callee labeled position) nofun).trans
          (labeledCall_of_found found labeled)
      refine ⟨?_, fun _ lacking => ?_, fun _ covered beyond => ?_⟩
      · intro arguments place length same
        have positionalRun := (stepped (.call callee arguments place) nofun).trans
          (call_of_length found length)
        rw [labeledRun, positionalRun, arrangeLabels_of_perm callee distinct length same]
        rfl
      · obtain ⟨param, member, unlabeled, refused⟩ := arrangeLabels_of_missing callee distinct lacking
        refine ⟨param, member, unlabeled, _, rfl, rfl, ?_⟩
        rw [labeledRun, refused]
        rfl
      · obtain ⟨label, listed, other, refused⟩ :=
          arrangeLabels_of_unknown callee distinct covered beyond
        refine ⟨label, listed, other, _, rfl, rfl, ?_⟩
        rw [labeledRun, refused]
        rfl

def differenceDef : FunctionDef where
  name := "minus"
  params := ["from", "by"]
  body := { elements := [.binary .subtract (.identifier "from" {}) (.identifier "by" {}) {}] }

theorem labels_stand_for_places_sample :
    let world : World := { functions := [("minus", differenceDef)] }
    let one := Expr.println (.int 1 {}) {}
    let two := Expr.println (.int 2 {}) {}
    let run := withRoom { maxDepth := 9 } 5 0
    world.functions.find "minus" = .ok differenceDef ∧ differenceDef.params.Nodup ∧
      run (.labeledCall "minus" [("by", two), ("from", one)] {}) world =
        run (.call "minus" [one, two] {}) world ∧
      run (.labeledCall "minus" [("by", two), ("to", one)] {}) world =
        .error (.fault (.missingLabel "minus" "from")) world ∧
      run (.labeledCall "minus" [("by", two), ("to", one), ("from", one)] {}) world =
        .error (.fault (.unknownLabel "minus" "to")) world := by
  intro world one two run
  have found : world.functions.find "minus" = .ok differenceDef := rfl
  have distinct : differenceDef.params.Nodup := by decide
  have settled := labels_stand_for_places { maxDepth := 9 } rfl 5 0 world "minus" differenceDef found
    distinct
  refine ⟨found, distinct, ?_, ?_, ?_⟩
  · exact (settled [("by", two), ("from", one)] {}).1 [one, two] {} rfl (.swap _ _ _)
  · obtain ⟨param, member, unlabeled, _, rfl, -, refused⟩ :=
      (settled [("by", two), ("to", one)] {}).2.1 (by decide) ⟨"from", by decide, by decide⟩
    have first : param = "from" := by
      rcases List.mem_cons.mp member with here | later
      · exact here
      · simp_all
    rwa [first] at refused
  · obtain ⟨label, listed, other, _, rfl, -, refused⟩ :=
      (settled [("by", two), ("to", one), ("from", one)] {}).2.2 (by decide) (by decide)
        ⟨"to", by decide, by decide⟩
    have second : label = "to" := by
      simp [differenceDef] at listed other
      tauto
    rwa [second] at refused

end Koy.Eval
