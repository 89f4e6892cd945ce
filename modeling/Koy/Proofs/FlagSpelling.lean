import Koy.Options

/-! How flags are spelled and where they stand. A flag and its value may be one argument or two, a flag
may stand before or behind an argument that is none, and everything behind the terminator is left as
it is. Scanning a list that is passed over as a whole comes to the same place whatever follows it, so
that each law is one about the arguments at the place in question. -/

namespace Koy.Options

/-- Scanning passes over all of these arguments, unless one of them is refused: none of them is a
terminator, and none is a flag that waits for its value. What is the value of a flag is neither. -/
def passedOver : List String → Bool
  | [] => true
  | argument :: rest =>
    match classify argument with
    | .terminator => false
    | .flag _ =>
      match rest with
      | [] => false
      | _ :: rest => passedOver rest
    | _ => passedOver rest

/-- A flag as it is given on a command line. -/
inductive Given where
  | debug
  | apart (flag : Flag) (value : String)
  | joined (flag : Flag) (value : String)

def Given.arguments : Given → List String
  | .debug => ["--debug"]
  | .apart flag value => [flag.name, value]
  | .joined flag value => [flag.name ++ "=" ++ value]

def Given.apply (options : Options) : Given → Except String Options
  | .debug => .ok { options with debug := true }
  | .apart flag value | .joined flag value => options.set flag value

def scanOn (after : List String) (scanned : Options × List String) :
    Except String (Options × List String) :=
  (scan scanned.1 after).map fun (options, others) => (options, scanned.2 ++ others)

variable (options : Options) (flag : Flag) (value : String)

/-! What an argument is, by its spelling. -/

theorem classify_name : classify flag.name = .flag flag := by
  cases flag <;> decide +kernel

theorem valueIn?_joined : valueIn? flag (flag.name ++ "=" ++ value) = some value := by
  simp [valueIn?]

theorem joined_ne {word : String} (plain : '=' ∉ word.toList) :
    flag.name ++ "=" ++ value ≠ word := by
  rintro rfl
  simp at plain

theorem classify_joined : classify (flag.name ++ "=" ++ value) = .setting flag value := by
  have words : ∀ word ∈ ["--", "--debug", Flag.config.name, Flag.maxDepth.name],
      flag.name ++ "=" ++ value ≠ word := by
    intro word member
    apply joined_ne
    revert word
    decide +kernel
  simp only [List.forall_mem_cons, List.not_mem_nil, false_imp_iff, implies_true, and_true] at words
  obtain ⟨terminator, debug, config, maxDepth⟩ := words
  rw [classify, if_neg terminator, if_neg debug, if_neg config, if_neg maxDepth]
  cases flag with
  | config => rw [valueIn?_joined]
  | maxDepth =>
      have other : valueIn? .config (Flag.maxDepth.name ++ "=" ++ value) = none := by
        simp [valueIn?, Flag.name]
      rw [other, valueIn?_joined]

theorem classify_of_not_dashed {argument : String}
    (plain : ¬ ['-', '-'] <+: argument.toList) : classify argument = .other := by
  have other {word : String} (dashed : ['-', '-'] <+: word.toList) : argument ≠ word := by
    rintro rfl
    exact plain dashed
  have unset (flag : Flag) : valueIn? flag argument = none := by
    apply if_neg
    intro given
    apply plain
    apply List.IsPrefix.trans _ (List.isPrefixOf_iff_prefix.mp given)
    cases flag <;> decide +kernel
  have unknown : ¬ (['-', '-'].isPrefixOf argument.toList ∧ argument ≠ "--help" ∧
      argument ≠ "--version") :=
    fun dashed => plain (List.isPrefixOf_iff_prefix.mp dashed.1)
  rw [classify, if_neg (other (by decide +kernel)), if_neg (other (by decide +kernel)),
    if_neg (other (by decide +kernel)), if_neg (other (by decide +kernel)), unset, unset,
    if_neg unknown]

/-! Scanning, argument by argument. -/

theorem scan_other {argument : String} (other : classify argument = .other) (rest : List String) :
    scan options (argument :: rest) = scanOn rest (options, [argument]) := by
  simp only [scan, other, scanOn]
  cases scan options rest <;> rfl

theorem scan_flag {argument : String} (waiting : classify argument = .flag flag)
    (rest : List String) :
    scan options (argument :: value :: rest) =
      (options.set flag value).bind fun options => scan options rest := by
  simp only [scan, waiting]
  cases options.set flag value <;> rfl

theorem scan_setting {argument : String} (given : classify argument = .setting flag value)
    (rest : List String) :
    scan options (argument :: rest) =
      (options.set flag value).bind fun options => scan options rest := by
  simp only [scan, given]
  cases options.set flag value <;> rfl

theorem scanOn_none (after : List String) : scanOn after (options, []) = scan options after := by
  simp only [scanOn, List.nil_append]
  cases scan options after <;> rfl

theorem scanOn_append {rest after : List String} (scanned : Options × List String)
    (splits : scan scanned.1 (rest ++ after) = (scan scanned.1 rest).bind (scanOn after)) :
    scanOn (rest ++ after) scanned = (scanOn rest scanned).bind (scanOn after) := by
  rw [scanOn, splits, scanOn]
  cases scan scanned.1 rest with
  | error refusal => rfl
  | ok middle =>
      simp only [Except.map, Except.bind, scanOn]
      cases scan middle.1 after <;> simp

theorem scan_append (before after : List String) (whole : passedOver before = true) :
    scan options (before ++ after) = (scan options before).bind (scanOn after) := by
  fun_induction passedOver before generalizing options with
  | case1 => exact (scanOn_none options after).symm
  | case2 argument rest terminator => cases whole
  | case3 argument flag waiting => cases whole
  | case4 argument flag waiting value rest ih =>
      rw [List.cons_append, List.cons_append, scan_flag _ _ _ waiting, scan_flag _ _ _ waiting]
      cases options.set flag value with
      | error refusal => rfl
      | ok options => exact ih options whole
  | case5 argument rest passes waits ih =>
      cases kind : classify argument with
      | terminator => exact absurd kind passes
      | flag flag => exact absurd kind (waits flag)
      | debug =>
          rw [List.cons_append, scan, scan, kind]
          exact ih _ whole
      | setting flag value =>
          rw [List.cons_append, scan_setting _ _ _ kind, scan_setting _ _ _ kind]
          cases options.set flag value with
          | error refusal => rfl
          | ok options => exact ih options whole
      | unknown =>
          rw [List.cons_append, scan, scan, kind]
          rfl
      | other =>
          rw [List.cons_append, scan_other _ kind, scan_other _ kind]
          exact scanOn_append (options, [argument]) (ih options whole)

theorem scan_given (given : Given) (rest : List String) :
    scan options (given.arguments ++ rest) =
      (given.apply options).bind fun options => scan options rest := by
  cases given with
  | debug => rfl
  | apart flag value => exact scan_flag options flag value (classify_name flag) rest
  | joined flag value => exact scan_setting options flag value (classify_joined flag value) rest

theorem scan_exchange (given : Given) {argument : String} (other : classify argument = .other)
    (rest : List String) :
    scan options (given.arguments ++ argument :: rest) =
      scan options (argument :: (given.arguments ++ rest)) := by
  rw [scan_given, scan_other _ other, scanOn, scan_given]
  cases given.apply options with
  | error refusal => rfl
  | ok options => exact scan_other options other rest

theorem scan_terminator (rest : List String) : scan options ("--" :: rest) = .ok (options, rest) := by
  rw [scan, show classify "--" = .terminator from rfl]

theorem eq_terminator_of_classify {argument : String} (kind : classify argument = .terminator) :
    argument = "--" := by
  unfold classify at kind
  split at kind
  · assumption
  · repeat' split at kind
    all_goals cases kind

theorem eq_name_of_classify {argument : String} (kind : classify argument = .flag flag) :
    argument = flag.name := by
  unfold classify at kind
  repeat' split at kind
  all_goals cases kind
  all_goals assumption

/-- Arguments that are not passed over as a whole have a terminator among them, or the last of them is a
flag that waits for its value. -/
theorem passedOver_cases (arguments : List String) :
    passedOver arguments = true ∨
      (∃ before after, arguments = before ++ "--" :: after ∧ passedOver before = true) ∨
      ∃ before, ∃ flag : Flag, arguments = before ++ [flag.name] ∧ passedOver before = true := by
  fun_induction passedOver arguments with
  | case1 => exact .inl rfl
  | case2 argument rest terminator =>
      exact .inr (.inl ⟨[], rest, by rw [eq_terminator_of_classify terminator]; rfl, rfl⟩)
  | case3 argument flag waiting =>
      exact .inr (.inr ⟨[], flag, by rw [eq_name_of_classify flag waiting]; rfl, rfl⟩)
  | case4 argument flag waiting value rest ih =>
      have longer (before : List String) :
          passedOver (argument :: value :: before) = passedOver before := by
        rw [passedOver, waiting]
      rcases ih with whole | ⟨before, after, rfl, whole⟩ | ⟨before, flag, rfl, whole⟩
      · exact .inl whole
      · exact .inr (.inl ⟨argument :: value :: before, after, rfl, (longer before).trans whole⟩)
      · exact .inr (.inr ⟨argument :: value :: before, flag, rfl, (longer before).trans whole⟩)
  | case5 argument rest passes waits ih =>
      have longer (before : List String) : passedOver (argument :: before) = passedOver before := by
        cases kind : classify argument with
        | terminator => exact absurd kind passes
        | flag flag => exact absurd kind (waits flag)
        | _ =>
            rw [passedOver.eq_def]
            simp only [kind]
      rcases ih with whole | ⟨before, after, rfl, whole⟩ | ⟨before, flag, rfl, whole⟩
      · exact .inl whole
      · exact .inr (.inl ⟨argument :: before, after, rfl, (longer before).trans whole⟩)
      · exact .inr (.inr ⟨argument :: before, flag, rfl, (longer before).trans whole⟩)

/-- Behind arguments that are passed over as a whole, the spelling and the place of flags do not matter:
a flag may have its value in an argument of its own or in the same one, and it may change places with
an argument that does not look like a flag, without a change of the outcome, refusals included. The
arguments behind a terminator come last among those that are no flags, unchanged and in their order. -/
theorem spelling_and_place (before after : List String) (whole : passedOver before = true) :
    (∀ (flag : Flag) (value : String),
      parse (before ++ [flag.name, value] ++ after) =
        parse (before ++ [flag.name ++ "=" ++ value] ++ after)) ∧
    (∀ (given : Given) (argument : String), ¬ ['-', '-'] <+: argument.toList →
      parse (before ++ given.arguments ++ [argument] ++ after) =
        parse (before ++ [argument] ++ given.arguments ++ after)) ∧
    parse (before ++ ["--"] ++ after) =
      (parse before).map fun (options, others) => (options, others ++ after) := by
  have behind {left right : List String} (same : ∀ options, scan options left = scan options right) :
      parse (before ++ left) = parse (before ++ right) := by
    have onward : scanOn left = scanOn right := by
      funext scanned
      rw [scanOn, scanOn, same]
    rw [parse, parse, scan_append _ _ _ whole, scan_append _ _ _ whole, onward]
  simp only [List.append_assoc]
  refine ⟨?spelling, ?place, ?terminator⟩
  case spelling =>
    intro flag value
    apply behind
    intro options
    calc scan options ([flag.name, value] ++ after)
        = (options.set flag value).bind fun options => scan options after :=
          scan_given options (.apart flag value) after
      _ = scan options ([flag.name ++ "=" ++ value] ++ after) :=
          (scan_given options (.joined flag value) after).symm
  case place =>
    intro given argument plain
    apply behind
    intro options
    exact scan_exchange options given (classify_of_not_dashed plain) after
  case terminator =>
    rw [parse, parse, scan_append _ _ _ whole]
    cases scan {} before with
    | error refusal => rfl
    | ok scanned => simp [Except.bind, Except.map, scanOn, scan_terminator]

theorem spelling_and_place_sample :
    let before := ["run", "--config", "--"]
    let after := ["x.koy", "--max-depth", "7", "--", "--debug"]
    passedOver before = true ∧
      parse (before ++ ["--config", "a=b"] ++ after) = parse (before ++ ["--config=a=b"] ++ after) ∧
      parse (before ++ ["--debug"] ++ ["-"] ++ after) =
        parse (before ++ ["-"] ++ ["--debug"] ++ after) ∧
      parse (before ++ ["--"] ++ after) = (parse before).map fun (options, others) =>
        (options, others ++ after) := by
  intro before after
  have whole : passedOver before = true := by decide +kernel
  obtain ⟨spelling, place, terminator⟩ := spelling_and_place before after whole
  exact ⟨whole, spelling .config "a=b", place .debug "-" (by decide +kernel), terminator⟩

end Koy.Options
