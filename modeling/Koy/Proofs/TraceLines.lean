import Koy.Proofs.Decimal
import Koy.Proofs.IntactTrees
import Koy.Proofs.Starts
import Koy.Proofs.TextLines

/-! The lines of a trace. Each evaluation that is started adds one record to the trace. The record is a
line of its own exactly if the text of the expression has no line end, and of all that source text can
put into an expression only the keys of mappings can bring one in. -/

namespace Koy

def OneLine (text : String) : Prop :=
  '\n' ∉ text.toList

namespace OneLine

instance (text : String) : Decidable (OneLine text) :=
  inferInstanceAs (Decidable ('\n' ∉ text.toList))

@[simp] theorem append_iff (first second : String) :
    OneLine (first ++ second) ↔ OneLine first ∧ OneLine second := by
  simp [OneLine]

theorem intercalate_iff {separator : String} (plain : OneLine separator) (texts : List String) :
    OneLine (String.intercalate separator texts) ↔ ∀ text ∈ texts, OneLine text := by
  induction texts with
  | nil => simp [OneLine]
  | cons text rest ih =>
      cases rest with
      | nil => simp
      | cons next rest =>
          rw [String.intercalate_cons_cons, append_iff, append_iff, ih, List.forall_mem_cons]
          simp [plain]

theorem of_ofInt64 (value : Int64) : OneLine (Decimal.ofInt64 value) := by
  have digits : OneLine (toString value.toInt.natAbs) := by
    intro member
    have digit := (Decimal.toList_toString value.toInt.natAbs).2.2 '\n' member
    cases digit
  rw [OneLine, Decimal.toList_ofInt64]
  split
  · rw [List.mem_cons, not_or]
    exact ⟨by decide, digits⟩
  · exact digits

theorem of_printableName {name : String} (printable : printableName name = true) : OneLine name := by
  intro member
  rw [printableName, Bool.and_eq_true, Lexeme.isName] at printable
  cases chars : name.toList with
  | nil =>
      rw [chars] at member
      cases member
  | cons first more =>
      have named := printable.1
      rw [chars, Bool.and_eq_true, List.all_eq_true] at named
      rw [chars] at member
      rcases List.mem_cons.mp member with here | later
      · rw [← here] at named
        exact absurd named.1 (by decide)
      · exact absurd (named.2 '\n' later) (by decide)

theorem of_hex (width number : Nat) : OneLine (Text.Quoted.hex width number) := by
  have digits (n : Nat) : '\n' ∉ Nat.toDigits 16 n := by
    induction n using Nat.strongRecOn with
    | ind n ih =>
        rw [Nat.toDigits_eq_if (by decide)]
        split
        · simp
        · have shorter := ih (n / 16) (by omega)
          simp [shorter]
  rw [OneLine, Text.Quoted.hex, String.toList_ofList, List.mem_append, not_or]
  refine ⟨fun member => ?_, digits number⟩
  exact absurd (List.eq_of_mem_replicate member) (by decide)

theorem shortName?_ne {c letter : Char} (named : Text.Quoted.shortName? c = some letter) :
    letter ≠ '\n' := by
  unfold Text.Quoted.shortName? at named
  split at named
  all_goals cases named
  all_goals decide

theorem of_quotedChar (c : Char) : OneLine (Text.Quoted.char '"' c) := by
  unfold Text.Quoted.char
  split
  · rename_i escaped
    rcases escaped with rfl | rfl <;> decide
  split
  · rename_i printable
    have other : c ≠ '\n' := by
      rintro rfl
      exact absurd printable (by decide)
    simpa [OneLine] using other.symm
  split
  · rename_i letter named
    simpa [OneLine] using (shortName?_ne named).symm
  · have mark (kind : String) (plain : OneLine kind) (width : Nat) :
        OneLine (kind ++ Text.Quoted.hex width c.toNat) :=
      (append_iff _ _).mpr ⟨plain, of_hex _ _⟩
    split
    · exact mark _ (by decide) 2
    · split
      · exact mark _ (by decide) 4
      · exact mark _ (by decide) 8

theorem of_quote (content : Bytes) : OneLine (Text.quote content) := by
  have glyphs : OneLine (String.join ((Glyph.decode content).map (Text.Quoted.glyph '"'))) := by
    intro member
    rw [String.toList_join] at member
    obtain ⟨_, written, inside⟩ := List.mem_flatMap.mp member
    obtain ⟨glyph, -, rfl⟩ := List.mem_map.mp written
    refine absurd inside ?_
    cases glyph with
    | char c => exact of_quotedChar c
    | stray byte => exact (append_iff _ _).mpr ⟨by decide, of_hex 2 byte.toNat⟩
  rw [Text.quote, Text.Quoted.glyphs, append_iff, append_iff]
  exact ⟨⟨by decide, glyphs⟩, by decide⟩

theorem of_symbol (op : BinaryOp) : OneLine op.symbol := by
  cases op with
  | unknown code => exact (by decide : OneLine "?")
  | _ => decide

theorem renderBlock_iff (texts : List String) :
    OneLine (Expr.renderBlock texts) ↔ ∀ text ∈ texts, OneLine text := by
  unfold Expr.renderBlock
  split
  · rename_i empty
    rw [List.isEmpty_iff.mp empty]
    exact ⟨fun _ _ none => absurd none List.not_mem_nil, fun _ => by decide⟩
  · rw [append_iff, append_iff, intercalate_iff (by decide)]
    exact ⟨fun plain => plain.1.2, fun each => ⟨⟨by decide, each⟩, by decide⟩⟩

end OneLine

namespace Expr

theorem renderAll_eq_map (items : List Expr) : renderAll items = items.map render := by
  induction items with
  | nil => rfl
  | cons expr rest ih => rw [renderAll, ih, List.map_cons]

theorem oneLine_renderEntries_iff {mark : String} (plain : OneLine mark)
    (entries : List (String × Expr)) :
    (∀ text ∈ renderEntries mark entries, OneLine text) ↔
      (∀ name ∈ entries.map Prod.fst, OneLine name) ∧
        ∀ value ∈ entries.map Prod.snd, OneLine value.render := by
  induction entries with
  | nil => simp [renderEntries]
  | cons entry rest ih =>
      simp only [renderEntries, List.map_cons, List.forall_mem_cons, ih, OneLine.append_iff, plain,
        and_true]
      exact and_and_and_comm

def keys : Expr → List String
  | .mapping entries _ => entries.map Prod.fst
  | _ => []

/-- No key in the tree has a line end. -/
abbrev KeysOnOneLine (expr : Expr) : Prop :=
  expr.Every fun inner => ∀ key ∈ inner.keys, OneLine key

theorem oneLine_render_iff (expr : Expr) (proper : expr.isProper = true) :
    OneLine expr.render ↔
      (∀ key ∈ expr.keys, OneLine key) ∧ ∀ child ∈ expr.children, OneLine child.render := by
  cases expr with
  | missing => cases proper
  | int value => simp [render, keys, children, parts, OneLine.of_ofInt64]
  | bool value => cases value <;> simp +decide [render, keys, children, parts]
  | text value => simp [render, keys, children, parts, OneLine.of_quote]
  | sequence items | set items =>
      rw [render, renderAll_eq_map, OneLine.append_iff, OneLine.append_iff,
        OneLine.intercalate_iff (by decide)]
      simp +decide [keys, children, parts]
  | mapping entries =>
      rw [render, OneLine.append_iff, OneLine.append_iff, OneLine.intercalate_iff (by decide),
        oneLine_renderEntries_iff (by decide)]
      simp +decide only [keys, children, parts, true_and, and_true]
  | function params id body =>
      have named : ∀ param ∈ params, OneLine param := by
        intro param member
        exact .of_printableName (List.all_eq_true.mp proper param member)
      have words : OneLine ("fn" ++ renderParams params ++ " ") := by
        simp +decide only [renderParams, OneLine.append_iff, OneLine.intercalate_iff, true_and, and_true]
        exact named
      rw [render, OneLine.append_iff, renderAll_eq_map, OneLine.renderBlock_iff]
      simp [keys, children, words]
  | identifier name => simp [render, keys, children, parts, OneLine.of_printableName proper]
  | update op before operand =>
      have plain : OneLine op.symbol := by cases op <;> decide
      cases before <;> simp [render, keys, children, parts, plain]
  | binary op lhs rhs => simp +decide [render, keys, children, parts, OneLine.of_symbol]
  | declare name mutable value =>
      cases mutable <;>
        simp +decide [render, declarationWords, keys, children, parts, OneLine.of_printableName proper]
  | assign name value =>
      simp +decide [render, keys, children, parts, OneLine.of_printableName proper]
  | println argument => simp +decide [render, keys, children, parts]
  | branch test consequent alternative =>
      cases alternative <;> simp +decide [render, renderAlternative, keys, children, parts, and_assoc]
  | loop test body => simp +decide [render, keys, children, parts]
  | block elements =>
      rw [render, renderAll_eq_map, OneLine.renderBlock_iff]
      simp [keys, children, parts]
  | call callee arguments =>
      rw [render, renderAll_eq_map, OneLine.append_iff, OneLine.append_iff, OneLine.append_iff,
        OneLine.intercalate_iff (by decide)]
      simp +decide [keys, children, parts, OneLine.of_printableName proper]
  | labeledCall callee arguments =>
      rw [isProper, Bool.and_eq_true, List.all_eq_true] at proper
      have named : ∀ label ∈ arguments.map Prod.fst, OneLine label := by
        intro label member
        exact .of_printableName (proper.2 label member)
      rw [render, OneLine.append_iff, OneLine.append_iff, OneLine.append_iff,
        OneLine.intercalate_iff (by decide), oneLine_renderEntries_iff (by decide)]
      simp +decide only [keys, children, parts, OneLine.of_printableName proper.1, true_and, and_true]
      exact and_iff_right named

theorem every_iff {p : Expr → Prop} (expr : Expr) :
    expr.Every p ↔ p expr ∧ ∀ child ∈ expr.children, child.Every p :=
  ⟨fun every => ⟨every.here, every.inside⟩, fun both => .intro both.1 both.2⟩

theorem Intact.oneLine_iff {expr : Expr} (intact : expr.Intact) :
    OneLine expr.render ↔ expr.KeysOnOneLine := by
  induction intact with
  | intro proper inside ih =>
      rw [oneLine_render_iff _ proper, KeysOnOneLine, every_iff]
      exact and_congr_right fun _ => forall₂_congr ih

theorem anyHole_eq_any (items : List Expr) : anyHole items = items.any hasHole := by
  induction items with
  | nil => rfl
  | cons expr rest ih => rw [anyHole, ih, List.any_cons]

theorem entryHole_eq_any (entries : List (String × Expr)) :
    entryHole entries = (entries.map Prod.snd).any hasHole := by
  induction entries with
  | nil => rfl
  | cons entry rest ih => rw [entryHole, ih, List.map_cons, List.any_cons]

theorem hasHole_eq_any {expr : Expr} (present : expr ≠ .missing) :
    expr.hasHole = expr.children.any hasHole := by
  cases expr with
  | missing => exact absurd rfl present
  | sequence | set | block | call | function =>
      simp only [hasHole, anyHole_eq_any, children, parts]
  | mapping | labeledCall => simp only [hasHole, entryHole_eq_any, children, parts]
  | branch test consequent alternative =>
      cases alternative <;> simp [hasHole, alternativeHole, children, parts, Bool.or_assoc]
  | _ => simp [hasHole, children, parts]

theorem Intact.hasHole {expr : Expr} (intact : expr.Intact) : expr.hasHole = false := by
  induction intact with
  | @intro expr proper inside ih =>
      have present : expr ≠ .missing := by
        rintro rfl
        cases proper
      rw [hasHole_eq_any present, List.any_eq_false]
      exact fun child member => Bool.eq_false_iff.mp (ih child member)

theorem Intact.shown {expr : Expr} (intact : expr.Intact) : expr.shown = expr.render := by
  have whole := intact.hasHole
  unfold Expr.shown
  split
  · cases whole
  · rw [whole]
    rfl

/-- A report up to its line end. -/
def reportBody (expr : Expr) : Bytes :=
  Bytes.ofString ("|- " ++ expr.shown)

theorem report_eq (expr : Expr) : expr.report = expr.reportBody ++ [Text.lineEnd] :=
  Bytes.ofString_append _ _

theorem lineEnd_not_mem_reportBody (expr : Expr) :
    Text.lineEnd ∉ expr.reportBody ↔ OneLine expr.shown := by
  rw [reportBody, Text.lineEnd_mem_ofString]
  exact (OneLine.append_iff _ _).trans (and_iff_right (by decide))

theorem flatMap_report (nodes : List Expr) :
    nodes.flatMap report = (nodes.map reportBody).flatMap (· ++ [Text.lineEnd]) := by
  rw [List.flatMap_map]
  exact congrArg (List.flatMap · nodes) (funext report_eq)

theorem lines_reports (nodes : List Expr) (each : ∀ node ∈ nodes, OneLine node.shown) :
    Text.lines (nodes.flatMap report) = nodes.map report := by
  rw [flatMap_report, Text.lines_flatMap, List.map_map]
  · exact List.map_congr_left fun node _ => (report_eq node).symm
  · exact List.forall_mem_map.mpr fun node member =>
      (lineEnd_not_mem_reportBody node).mpr (each node member)

theorem length_lines_reports (nodes : List Expr) :
    (Text.lines (nodes.flatMap report)).length = nodes.length ↔
      ∀ node ∈ nodes, OneLine node.shown := by
  have counted := Text.length_lines_eq_iff (nodes.map reportBody)
  rw [List.length_map, List.forall_mem_map] at counted
  rw [flatMap_report, counted]
  exact forall₂_congr fun node _ => lineEnd_not_mem_reportBody node

end Expr

namespace Session

inductive FromSource : Session → Prop where
  | new (conditions : Conditions) : FromSource { conditions }
  | serve {session : Session} (earlier : FromSource session) (request : Request) :
      FromSource (session.serve request).2
  | eval {session : Session} (earlier : FromSource session) (scope : ScopeId) (source : Bytes) :
      FromSource (session.evalSource scope source).2
  | openScope {session : Session} (earlier : FromSource session) (parent : Option ScopeId) :
      FromSource (session.openScope parent).2

theorem evalSource_intact {session : Session} (holds : Regime.intact.Holds session.world)
    (scope : ScopeId) (source : Bytes) :
    Regime.intact.Holds (session.evalSource scope source).2.world := by
  unfold evalSource
  cases parsed : Expr.parse source with
  | error error => exact holds
  | ok expr =>
      have intact := Loading.expr_every Loading.stable_isProper expr session.bodies
        (Expr.intact_of_parse parsed)
      have kept : Regime.intact.Holds (session.load (Loading.expr expr)).2.world := holds
      exact (run_upholds kept (Eval.evaluate_upholds session.conditions scope _ intact)).2

theorem FromSource.intact {session : Session} (fed : session.FromSource) :
    Regime.intact.Holds session.world := by
  induction fed with
  | new conditions => exact .initial Regime.intact
  | serve earlier request ih => exact (serve_intact ih request).2
  | eval earlier scope source ih => exact evalSource_intact ih scope source
  | openScope earlier parent ih => exact ih.push parent

theorem run_world {α : Type} (session : Session) (computation : Eval α) :
    (session.run computation).2.world = Eval.after computation session.world := by
  unfold run Eval.after
  simp only [EStateM.run]
  generalize computation session.world = reached
  cases reached <;> rfl

/-- What a source expression writes to the trace, whatever the session has taken in before: the
reports of the evaluations that are started, in order, and nothing else. They are as many as the lines
exactly if each is one line. After source text only, a report is more than one line exactly if some
key in its expression has a line end. -/
theorem trace_of_evalSource (before : Session) (traced : before.conditions.traced = true)
    (writable : before.conditions.unwritable = none) (scope : ScopeId) (source : Bytes) (expr : Expr)
    (parsed : Expr.parse source = .ok expr) :
    let session := before.clearJournal
    let nodes := Eval.started session.conditions session.conditions.maxDepth scope
      (session.load (Loading.expr expr)).1 session.world
    let trace := (session.evalSource scope source).2.world.seen Event.traced
    trace = nodes.flatMap Expr.report ∧
      ((∀ node ∈ nodes, OneLine node.shown) → Text.lines trace = nodes.map Expr.report) ∧
      ((Text.lines trace).length = nodes.length ↔ ∀ node ∈ nodes, OneLine node.shown) ∧
      (before.FromSource → ∀ node ∈ nodes,
        node.shown = node.render ∧ (OneLine node.render ↔ node.KeysOnOneLine)) := by
  intro session nodes trace
  -- Nothing is asked of the trees here: what is reported is reported of any tree.
  have written : trace = nodes.flatMap Expr.report := by
    have reports := @Eval.evaluate_reports .any _ traced writable scope
      (session.load (Loading.expr expr)).1 trivial session.world (Regime.holds_any _)
    simp only [trace, evalSource, parsed]
    exact (congrArg (World.seen Event.traced) (run_world _ _)).trans reports.written
  refine ⟨written, ?_, ?_, ?_⟩
  · rw [written]
    exact Expr.lines_reports nodes
  · rw [written]
    exact Expr.length_lines_reports nodes
  · intro fed node member
    have holds : Regime.intact.Holds session.world :=
      ⟨fed.intact.bound, fed.intact.registered, fed.intact.table⟩
    have loaded := Loading.expr_every Loading.stable_isProper expr session.bodies
      (Expr.intact_of_parse parsed)
    have intact : node.Intact := (Eval.evaluate_reports traced writable scope _ loaded
      session.world holds).allowed node member
    exact ⟨intact.shown, intact.oneLine_iff⟩

theorem trace_of_evalSource_sample :
    let session : Session := { conditions := { traced := true } }
    let source := Bytes.ofString "#\x7b\"a\\nb\": 1\x7d"
    let value : Expr := .int 1 ⟨10, 1, 11⟩
    let mapping : Expr := .mapping [("a\nb", value)] ⟨0, 1, 1⟩
    let trace := (session.clearJournal.evalSource Scopes.rootId source).2.world.seen Event.traced
    Expr.parse source = .ok mapping ∧
      Eval.started session.conditions session.conditions.maxDepth Scopes.rootId mapping
        session.world = [mapping, value] ∧
      trace = Bytes.ofString "|- #\x7ba\nb: 1\x7d\n|- 1\n" ∧
      (Text.lines trace).length ≠ 2 ∧ ¬ mapping.KeysOnOneLine := by
  have parsed : Expr.parse (Bytes.ofString "#\x7b\"a\\nb\": 1\x7d") =
      .ok (.mapping [("a\nb", .int 1 ⟨10, 1, 11⟩)] ⟨0, 1, 1⟩) := by
    decide +kernel
  intro session source value mapping trace
  have nodes : Eval.started session.conditions session.conditions.maxDepth Scopes.rootId mapping
      session.world = [mapping, value] := rfl
  have broken : ¬ OneLine mapping.shown := by decide
  have first : mapping ∈ [mapping, value] := List.mem_cons_self
  obtain ⟨written, -, counted, plain⟩ :=
    trace_of_evalSource session rfl rfl Scopes.rootId source mapping parsed
  have text : [mapping, value].flatMap Expr.report =
      Bytes.ofString "|- #\x7ba\nb: 1\x7d\n|- 1\n" := by
    decide
  refine ⟨parsed, nodes, written.trans text, ?_, ?_⟩
  · intro two
    exact broken (counted.mp two mapping first)
  · intro keys
    obtain ⟨same, oneLine⟩ := plain (.new _) mapping first
    exact broken (same ▸ oneLine.mpr keys)

end Session

end Koy
