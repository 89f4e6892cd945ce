import Koy.Proofs.Appending
import Koy.Proofs.Budget

/-! One reader on three streams: a text, the text with more text after it, and the text with the
word `else` after it. As long as the first text has tokens the three runs go abreast. Where it ends
the reader asks for more, and the rules here say how this carries over from the parts of a reader to
the whole. They are not those of a `Logic`: a look ahead may tell the texts apart before the reader has
come to their difference, and then it matters whether it refuses on the way. -/

namespace Koy

open Parse

def SyntaxError.Lacking (error : SyntaxError) : Prop :=
  error.incomplete = true ∨ error.cause = .tooDeep

structure TokenStream.AtEnd (stream : TokenStream) : Prop where
  sound : stream.Sound
  ended : stream.current.kind = .endOfInput

theorem TokenStream.AtEnd.kind_ne {stream : TokenStream} (at_end : stream.AtEnd) {kind : TokenKind}
    (proper : kind ≠ .endOfInput) : stream.current.kind ≠ kind := by
  rw [at_end.ended]
  exact proper.symm

variable {α β : Type}

def Stuck (reader : Parse α) (stream : TokenStream) : Prop :=
  ∃ error, reader stream = .error error ∧ error.Lacking

/-- The reader asks for more or leaves the stream at its end. -/
structure Tame (reader : Parse α) (stream : TokenStream) : Prop where
  leaves : ∀ value after, reader stream = .ok (value, after) → after.AtEnd
  lacks : ∀ error, reader stream = .error error → error.Lacking

section

variable {reader : Parse α} {next : α → Parse β} {stream after : TokenStream}

theorem Stuck.tame (stuck : Stuck reader stream) : Tame reader stream := by
  obtain ⟨error, refused, lacking⟩ := stuck
  refine ⟨fun value after read => ?_, fun found refused' => ?_⟩
  · rw [refused] at read
    cases read
  · rw [refused] at refused'
    cases refused'
    exact lacking

theorem Tame.of_eq {other : Parse α} (same : reader stream = other after) (tame : Tame other after) :
    Tame reader stream := by
  refine ⟨?_, ?_⟩
  · rw [same]
    exact tame.leaves
  · rw [same]
    exact tame.lacks

theorem Stuck.bind (stuck : Stuck reader stream) : Stuck (reader >>= next) stream := by
  obtain ⟨error, refused, lacking⟩ := stuck
  exact ⟨error, bind_of_error refused, lacking⟩

theorem Stuck.of_ok {value : α} (read : reader stream = .ok (value, after))
    (stuck : Stuck (next value) after) : Stuck (reader >>= next) stream := by
  rw [Stuck, bind_of_ok read]
  exact stuck

theorem Stuck.discard_bind {next : Unit → Parse β}
    (stuck : Stuck (reader >>= fun _ => next ()) stream) : Stuck (discard reader >>= next) stream := by
  rw [Stuck, Parse.discard_bind]
  exact stuck

theorem Tame.pure (value : α) (at_end : stream.AtEnd) : Tame (pure value : Parse α) stream where
  leaves _ _ read := by
    cases read
    exact at_end
  lacks _ refused := nomatch refused

theorem Tame.of_ok {value : α} (read : reader stream = .ok (value, after))
    (tame : Tame (next value) after) : Tame (reader >>= next) stream :=
  .of_eq (bind_of_ok read) tame

theorem Tame.bind (first : Tame reader stream)
    (second : ∀ value after, after.AtEnd → Tame (next value) after) :
    Tame (reader >>= next) stream := by
  cases read : reader stream with
  | error error => exact (Stuck.bind ⟨error, read, first.lacks error read⟩).tame
  | ok pair => exact .of_ok read (second pair.1 pair.2 (first.leaves pair.1 pair.2 read))

theorem Tame.stuck_bind (first : Tame reader stream)
    (second : ∀ value after, after.AtEnd → Stuck (next value) after) :
    Stuck (reader >>= next) stream := by
  cases read : reader stream with
  | error error => exact Stuck.bind ⟨error, read, first.lacks error read⟩
  | ok pair => exact .of_ok read (second pair.1 pair.2 (first.leaves pair.1 pair.2 read))

theorem stuck_tooDeep : Stuck (tooDeep : Parse α) stream :=
  ⟨_, rfl, .inr rfl⟩

theorem stuck_refuseHere (at_end : stream.AtEnd) (cause : Token → SyntaxError.Cause)
    (names : ∀ position token, SyntaxError.incomplete ⟨position, cause token⟩ =
      decide (token.kind = .endOfInput)) : Stuck (refuseHere cause : Parse α) stream := by
  refine ⟨_, refuseHere_apply cause stream, .inl ?_⟩
  rw [names, at_end.ended]
  rfl

theorem stuck_expect (at_end : stream.AtEnd) (wanted : TokenKind) (token : wanted ≠ .endOfInput) :
    Stuck (expect wanted) stream := by
  have other : stream.current.kind ≠ wanted := at_end.ended ▸ token.symm
  refine ⟨_, expect_of_ne other, .inl ?_⟩
  exact decide_eq_true at_end.ended

theorem aheadIs_before_end (sound : stream.Sound) {n k : Nat} (le : k ≤ n + 1)
    (ends : Items.HasAt stream.item k .endOfInput) (wanted : TokenKind)
    (token : wanted ≠ .endOfInput) :
    ∃ after, stream.Same after ∧ aheadIs n wanted stream = .ok (false, after) := by
  obtain ⟨last, found, ended⟩ := ends
  have there := sound.item_of_le found ended le
  rcases aheadIs_cases sound n wanted with
    ⟨error, failed, refused⟩ | ⟨seen, after, met, same, looked⟩
  · rw [there] at failed
    cases failed
  · rw [there] at met
    cases met
    refine ⟨after, same, ?_⟩
    rw [looked, ended, decide_eq_false token.symm]

theorem advance_to_end (sound : stream.Sound) (ends : Items.HasAt stream.item 1 .endOfInput) :
    ∃ after, after.AtEnd ∧ advance stream = .ok ((), after) := by
  obtain ⟨last, found, ended⟩ := ends
  rcases advance_cases stream with ⟨error, failed, refused⟩ | ⟨after, shifted, moved⟩
  · rw [found] at failed
    cases failed
  · have reached : after.current = last := by
      have here : after.item 0 = .ok last := (shifted 0).trans found
      exact Except.ok.inj here
    exact ⟨after, ⟨sound.of_shift shifted, reached ▸ ended⟩, moved⟩

theorem expect_ok {wanted kind : TokenKind}
    (here : Items.HasAt stream.item 0 wanted) (more : Items.HasAt stream.item 1 kind) :
    ∃ after, (∀ i, after.item i = stream.item (i + 1)) ∧
      expect wanted stream = .ok (stream.current, after) := by
  obtain ⟨token, found, met⟩ := here
  cases found
  obtain ⟨token, found, -⟩ := more
  rw [expect_of_eq met]
  rcases take_cases stream with ⟨error, failed, -⟩ | ⟨after, shifted, taken⟩
  · rw [found] at failed
    cases failed
  · exact ⟨after, shifted, taken⟩

end

structure Trio (k : Nat) (short long probe : TokenStream) : Prop where
  short_sound : short.Sound
  long_sound : long.Sound
  probe_sound : probe.Sound
  abreast : Abreast k short.item long.item probe.item

namespace Trio

variable {k : Nat} {short long probe short' long' probe' : TokenStream}

theorem at_end (trio : Trio 0 short long probe) : short.AtEnd := by
  refine ⟨trio.short_sound, ?_⟩
  rcases trio.abreast.parting with ⟨error, failed, -⟩ | ⟨error, failed⟩ | ⟨⟨token, found, ended⟩, -⟩
  · cases failed
  · cases failed
  · cases found
    exact ended

theorem current_eq (trio : Trio (k + 1) short long probe) :
    long.current = short.current ∧ probe.current = short.current := by
  obtain ⟨there, probed⟩ := trio.abreast.same 0 (Nat.succ_pos k)
  exact ⟨Except.ok.inj there, Except.ok.inj probed⟩

theorem of_same (trio : Trio k short long probe) (same : short.Same short')
    (same' : long.Same long') (same'' : probe.Same probe') : Trio k short' long' probe' := by
  refine ⟨trio.short_sound.of_same same, trio.long_sound.of_same same',
    trio.probe_sound.of_same same'', ?_⟩
  have eq : short'.item = short.item := funext same
  have eq' : long'.item = long.item := funext same'
  have eq'' : probe'.item = probe.item := funext same''
  rw [eq, eq', eq'']
  exact trio.abreast

theorem of_shift (trio : Trio (k + 1) short long probe)
    (shifted : ∀ i, short'.item i = short.item (i + 1))
    (shifted' : ∀ i, long'.item i = long.item (i + 1))
    (shifted'' : ∀ i, probe'.item i = probe.item (i + 1)) : Trio k short' long' probe' := by
  refine ⟨trio.short_sound.of_shift shifted, trio.long_sound.of_shift shifted',
    trio.probe_sound.of_shift shifted'', ?_, ?_⟩
  · intro i lt
    rw [shifted, shifted', shifted'']
    exact trio.abreast.same (i + 1) (Nat.succ_lt_succ lt)
  · simp only [Items.HasAt, shifted, shifted', shifted'']
    exact trio.abreast.parting

end Trio

/-- What a reader makes of three streams that go abreast. -/
inductive Settled (reader : Parse α) (short long probe : TokenStream) : Prop where
  | refused (error : SyntaxError) (failed : reader long = .error error)
  | ends (tame : Tame reader short)
  | probed (stuck : Stuck reader probe)
  | goes (k : Nat) (value : α) (short' long' probe' : TokenStream)
      (read : reader short = .ok (value, short')) (read' : reader long = .ok (value, long'))
      (read'' : reader probe = .ok (value, probe')) (trio : Trio k short' long' probe')

namespace Settled

variable {reader : Parse α} {next : α → Parse β} {k : Nat} {short long probe : TokenStream}

theorem bind (first : Settled reader short long probe)
    (tame : ∀ value after, after.AtEnd → Tame (next value) after)
    (rest : ∀ k value short' long' probe', Trio k short' long' probe' →
      Settled (next value) short' long' probe') : Settled (reader >>= next) short long probe := by
  cases first with
  | refused error failed => exact .refused error (bind_of_error failed)
  | ends first => exact .ends (first.bind tame)
  | probed stuck => exact .probed stuck.bind
  | goes k value short' long' probe' read read' read'' trio =>
      cases rest k value short' long' probe' trio with
      | refused error failed =>
          refine .refused error ?_
          rw [bind_of_ok read']
          exact failed
      | ends tame => exact .ends (.of_ok read tame)
      | probed stuck => exact .probed (.of_ok read'' stuck)
      | goes k result last last' last'' done done' done'' trio =>
          refine .goes k result last last' last'' ?_ ?_ ?_ trio
          · rw [bind_of_ok read]
            exact done
          · rw [bind_of_ok read']
            exact done'
          · rw [bind_of_ok read'']
            exact done''

theorem pure (value : α) (trio : Trio k short long probe) :
    Settled (pure value : Parse α) short long probe :=
  .goes k value short long probe rfl rfl rfl trio

theorem refuse_bind (position : Position) (cause : SyntaxError.Cause) :
    Settled ((refuse position cause : Parse α) >>= next) short long probe :=
  .refused _ rfl

theorem refuseHere_bind (cause : Token → SyntaxError.Cause) :
    Settled ((refuseHere cause : Parse α) >>= next) short long probe :=
  .refused _ rfl

theorem refuse (position : Position) (cause : SyntaxError.Cause) :
    Settled (Parse.refuse position cause : Parse α) short long probe :=
  .refused _ rfl

theorem refuseHere (cause : Token → SyntaxError.Cause) :
    Settled (Parse.refuseHere cause : Parse α) short long probe :=
  .refused _ rfl

theorem ite {other : Parse α} {condition : Prop} [Decidable condition]
    (holds : condition → Settled reader short long probe)
    (fails : ¬ condition → Settled other short long probe) :
    Settled (if condition then reader else other) short long probe := by
  by_cases decided : condition
  · rw [if_pos decided]
    exact holds decided
  · rw [if_neg decided]
    exact fails decided

theorem congr {other : Parse α} {short' long' probe' : TokenStream}
    (here : reader short = other short') (there : reader long = other long')
    (probing : reader probe = other probe') (settled : Settled other short' long' probe') :
    Settled reader short long probe := by
  cases settled with
  | refused error failed => exact .refused error (there.trans failed)
  | ends tame => exact .ends (.of_eq here tame)
  | probed stuck => exact .probed (by rw [Stuck, probing]; exact stuck)
  | goes k value short' long' probe' read read' read'' trio =>
      exact .goes k value short' long' probe' (here.trans read) (there.trans read')
        (probing.trans read'') trio

theorem discard_bind {next : Unit → Parse β}
    (settled : Settled (reader >>= fun _ => next ()) short long probe) :
    Settled (discard reader >>= next) short long probe :=
  congr (Parse.discard_bind _ _ _) (Parse.discard_bind _ _ _) (Parse.discard_bind _ _ _) settled

theorem token_bind {next : Token → Parse β} (trio : Trio (k + 1) short long probe)
    (settled : Settled (next short.current) short long probe) :
    Settled (token >>= next) short long probe := by
  obtain ⟨there, probing⟩ := trio.current_eq
  refine congr (Parse.token_bind next short) ?_ ?_ settled
  · rw [Parse.token_bind, there]
  · rw [Parse.token_bind, probing]

theorem kind_bind {next : TokenKind → Parse β} (trio : Trio (k + 1) short long probe)
    (settled : Settled (next short.current.kind) short long probe) :
    Settled (kind >>= next) short long probe := by
  obtain ⟨there, probing⟩ := trio.current_eq
  refine congr (Parse.kind_bind next short) ?_ ?_ settled
  · rw [Parse.kind_bind, there]
  · rw [Parse.kind_bind, probing]

theorem advance (trio : Trio (k + 1) short long probe) :
    (∃ error, advance long = .error error) ∨ Stuck advance short ∨
      ∃ short' long' probe', advance short = .ok ((), short') ∧ advance long = .ok ((), long') ∧
        advance probe = .ok ((), probe') ∧ Trio k short' long' probe' := by
  rcases advance_cases long with ⟨error, -, refused⟩ | ⟨long', shifted', moved'⟩
  · exact .inl ⟨error, refused⟩
  · right
    have there : ∃ token, long.item 1 = .ok token := ⟨_, (shifted' 0).symm⟩
    rcases advance_cases short with ⟨error, failed, refused⟩ | ⟨short', shifted, moved⟩
    · left
      refine ⟨error, refused, .inl ?_⟩
      cases k with
      | zero =>
          rcases trio.abreast.parting with
            ⟨found, failed', incomplete⟩ | ⟨found, failed'⟩ | ⟨⟨token, found, -⟩, -⟩
          · rw [failed] at failed'
            cases failed'
            exact incomplete
          · obtain ⟨token, found'⟩ := there
            rw [found'] at failed'
            cases failed'
          · rw [failed] at found
            cases found
      | succ k =>
          obtain ⟨token, found⟩ := there
          rw [(trio.abreast.same 1 (by omega)).1, failed] at found
          cases found
    · right
      have here : ∃ token, short.item 1 = .ok token := ⟨_, (shifted 0).symm⟩
      rcases advance_cases probe with ⟨error, failed, refused⟩ | ⟨probe', shifted'', moved''⟩
      · exfalso
        obtain ⟨token, found⟩ := here
        obtain ⟨token', found'⟩ := there
        cases k with
        | zero =>
            rcases trio.abreast.parting with
              ⟨error', failed', -⟩ | ⟨error', failed'⟩ | ⟨-, ⟨token'', found'', -⟩, -⟩
            · rw [found] at failed'
              cases failed'
            · rw [found'] at failed'
              cases failed'
            · rw [failed] at found''
              cases found''
        | succ k =>
            rw [(trio.abreast.same 1 (by omega)).2, found] at failed
            cases failed
      · exact ⟨short', long', probe', moved, moved', moved'',
          trio.of_shift shifted shifted' shifted''⟩

theorem advance_bind {next : Unit → Parse β} (trio : Trio (k + 1) short long probe)
    (rest : ∀ short' long' probe', Trio k short' long' probe' →
      Settled (next ()) short' long' probe') :
    Settled (Parse.advance >>= next) short long probe := by
  rcases advance trio with ⟨error, failed⟩ | stuck | ⟨short', long', probe', moved, moved', moved'', trio⟩
  · exact .refused error (bind_of_error failed)
  · exact .ends stuck.bind.tame
  · exact congr (bind_of_ok moved) (bind_of_ok moved') (bind_of_ok moved'')
      (rest short' long' probe' trio)

theorem take_bind {next : Token → Parse β} (trio : Trio (k + 1) short long probe)
    (rest : ∀ short' long' probe', Trio k short' long' probe' →
      Settled (next short.current) short' long' probe') :
    Settled (take >>= next) short long probe := by
  rw [take_bind_eq]
  exact token_bind trio (advance_bind trio rest)

theorem expect_bind {next : Token → Parse β} (wanted : TokenKind) (proper : wanted ≠ .endOfInput)
    (trio : Trio k short long probe)
    (rest : ∀ j token short' long' probe', Trio j short' long' probe' →
      Settled (next token) short' long' probe') :
    Settled (expect wanted >>= next) short long probe := by
  cases k with
  | zero => exact .ends (stuck_expect trio.at_end wanted proper).bind.tame
  | succ k =>
      obtain ⟨there, probing⟩ := trio.current_eq
      by_cases here : short.current.kind = wanted
      · have same : ∀ {stream : TokenStream}, stream.current = short.current →
            (expect wanted >>= next) stream = (take >>= next) stream := by
          intro stream eq
          have met : stream.current.kind = wanted := eq ▸ here
          change (expect wanted stream >>= _) = (take stream >>= _)
          rw [expect_of_eq met]
        refine congr (same rfl) (same there) (same probing) ?_
        exact take_bind trio fun short' long' probe' trio => rest k _ short' long' probe' trio
      · have met : long.current.kind ≠ wanted := there ▸ here
        exact .refused _ (bind_of_error (expect_of_ne met))

theorem aheadIs_bind_near {next : Bool → Parse β} (n : Nat) (wanted : TokenKind)
    (trio : Trio (k + 1) short long probe) (near : n < k)
    (rest : ∀ seen short' long' probe', short.Same short' →
      (seen = true → Items.HasAt short.item (n + 1) wanted) → Trio (k + 1) short' long' probe' →
      Settled (next seen) short' long' probe') :
    Settled (aheadIs n wanted >>= next) short long probe := by
  obtain ⟨there, probing⟩ := trio.abreast.same (n + 1) (Nat.succ_lt_succ near)
  rcases aheadIs_cases trio.long_sound n wanted with
    ⟨error, -, refused⟩ | ⟨token, long', found, same', looked'⟩
  · exact .refused error (bind_of_error refused)
  have here := there.symm.trans found
  have behind := probing.trans here
  rcases aheadIs_cases trio.short_sound n wanted with
    ⟨error, failed, -⟩ | ⟨token', short', found', same, looked⟩
  · rw [here] at failed
    cases failed
  rcases aheadIs_cases trio.probe_sound n wanted with
    ⟨error, failed, -⟩ | ⟨token'', probe', found'', same'', looked''⟩
  · rw [behind] at failed
    cases failed
  rw [here] at found'
  rw [behind] at found''
  cases found'
  cases found''
  refine congr (bind_of_ok looked) (bind_of_ok looked') (bind_of_ok looked'') ?_
  refine rest _ short' long' probe' same (fun met => ?_) (trio.of_same same same' same'')
  exact ⟨token, here, of_decide_eq_true met⟩

/-- Looking ahead for anything but the word `else`: if the token is found in the longer text only,
the reader comes to the end of the shorter one. -/
theorem aheadIs_bind {next : Bool → Parse β} (n : Nat) (wanted : TokenKind)
    (proper : wanted ≠ .endOfInput) (other : wanted ≠ .elseWord)
    (trio : Trio (k + 1) short long probe)
    (early : k ≤ n → Items.HasAt short.item (k + 1) .endOfInput → ∀ after, short.Same after →
      Tame (next false) after)
    (rest : ∀ seen short' long' probe', short.Same short' →
      (seen = true → Items.HasAt short.item (n + 1) wanted) → Trio (k + 1) short' long' probe' →
      Settled (next seen) short' long' probe') :
    Settled (aheadIs n wanted >>= next) short long probe := by
  by_cases near : n < k
  · exact aheadIs_bind_near n wanted trio near rest
  have far : k + 1 ≤ n + 1 := by omega
  rcases trio.abreast.parting with
    ⟨error, failed, incomplete⟩ | ⟨error, failed⟩ | ⟨ends, ⟨word, found, is_else⟩, ends'⟩
  · rcases aheadIs_cases trio.short_sound n wanted with
      ⟨error', failed', refused⟩ | ⟨token, after, found, -, -⟩
    · rw [short.item_error_of_le failed far] at failed'
      cases failed'
      exact .ends (Stuck.bind ⟨error, refused, .inl incomplete⟩).tame
    · rw [short.item_error_of_le failed far] at found
      cases found
  · rcases aheadIs_cases trio.long_sound n wanted with
      ⟨error', -, refused⟩ | ⟨token, after, found, -, -⟩
    · exact .refused error' (bind_of_error refused)
    · rw [long.item_error_of_le failed far] at found
      cases found
  · obtain ⟨short', same, looked⟩ := aheadIs_before_end trio.short_sound far ends wanted proper
    have vain : ∃ probe', probe.Same probe' ∧ aheadIs n wanted probe = .ok (false, probe') := by
      by_cases here : n = k
      · subst here
        rcases aheadIs_cases trio.probe_sound n wanted with
          ⟨error, failed, -⟩ | ⟨token, probe', found', same'', looked''⟩
        · rw [found] at failed
          cases failed
        · rw [found] at found'
          cases found'
          rw [is_else, decide_eq_false other.symm] at looked''
          exact ⟨probe', same'', looked''⟩
      · exact aheadIs_before_end trio.probe_sound (by omega) ends' wanted proper
    obtain ⟨probe', same'', looked''⟩ := vain
    rcases aheadIs_cases trio.long_sound n wanted with
      ⟨error, -, refused⟩ | ⟨token, long', -, same', looked'⟩
    · exact .refused error (bind_of_error refused)
    · by_cases met : token.kind = wanted
      · exact .ends (.of_ok looked (early (by omega) ends short' same))
      · rw [decide_eq_false met] at looked'
        refine congr (bind_of_ok looked) (bind_of_ok looked') (bind_of_ok looked'') ?_
        exact rest false short' long' probe' same (by simp) (trio.of_same same same' same'')

theorem elseAhead_bind {next : Bool → Parse β} (trio : Trio (k + 1) short long probe)
    (found_else : ∀ after, probe.Same after → Items.HasAt after.item 1 .elseWord →
      Items.HasAt after.item 2 .endOfInput → Stuck (next true) after)
    (rest : ∀ seen short' long' probe', short.Same short' → Trio (k + 1) short' long' probe' →
      Settled (next seen) short' long' probe') :
    Settled (aheadIs 0 .elseWord >>= next) short long probe := by
  by_cases near : 0 < k
  · exact aheadIs_bind_near 0 .elseWord trio near fun seen short' long' probe' same _ trio =>
      rest seen short' long' probe' same trio
  have last : k = 0 := by omega
  subst last
  rcases trio.abreast.parting with
    ⟨error, failed, incomplete⟩ | ⟨error, failed⟩ | ⟨-, ⟨word, found, is_else⟩, ends⟩
  · rcases aheadIs_cases trio.short_sound 0 .elseWord with
      ⟨error', failed', refused⟩ | ⟨token, after, found, -, -⟩
    · rw [failed] at failed'
      cases failed'
      exact .ends (Stuck.bind ⟨error, refused, .inl incomplete⟩).tame
    · rw [failed] at found
      cases found
  · rcases aheadIs_cases trio.long_sound 0 .elseWord with
      ⟨error', -, refused⟩ | ⟨token, after, found, -, -⟩
    · exact .refused error' (bind_of_error refused)
    · rw [failed] at found
      cases found
  · rcases aheadIs_cases trio.probe_sound 0 .elseWord with
      ⟨error, failed, -⟩ | ⟨token, probe', found', same, looked⟩
    · rw [found] at failed
      cases failed
    · rw [found] at found'
      cases found'
      rw [is_else] at looked
      refine .probed (.of_ok looked (found_else probe' same ?_ ?_))
      · rw [Items.HasAt, same]
        exact ⟨word, found, is_else⟩
      · rw [Items.HasAt, same]
        exact ends

end Settled

/-- On streams that go abreast the reader settles, and at the end of the input it is tame. -/
structure Settling (reader : Parse α) : Prop where
  settles : ∀ k short long probe, Trio k short long probe → Settled reader short long probe
  tame : ∀ stream, stream.AtEnd → Tame reader stream

structure Demanding (reader : Parse α) : Prop where
  settles : ∀ k short long probe, Trio k short long probe → Settled reader short long probe
  stuck : ∀ stream, stream.AtEnd → Stuck reader stream

theorem Demanding.settling {reader : Parse α} (demanding : Demanding reader) : Settling reader :=
  ⟨demanding.settles, fun stream at_end => (demanding.stuck stream at_end).tame⟩

theorem Settling.of_tokens {reader : Parse α} (tame : ∀ stream, stream.AtEnd → Tame reader stream)
    (tokens : ∀ k short long probe, Trio (k + 1) short long probe →
      Settled reader short long probe) : Settling reader := by
  refine ⟨fun k short long probe trio => ?_, tame⟩
  cases k with
  | zero => exact .ends (tame short trio.at_end)
  | succ k => exact tokens k short long probe trio

theorem Demanding.of_tokens {reader : Parse α} (stuck : ∀ stream, stream.AtEnd → Stuck reader stream)
    (tokens : ∀ k short long probe, Trio (k + 1) short long probe →
      Settled reader short long probe) : Demanding reader :=
  ⟨(Settling.of_tokens (fun stream at_end => (stuck stream at_end).tame) tokens).settles, stuck⟩

theorem Settling.bind {reader : Parse α} {next : α → Parse β} (first : Settling reader)
    (second : ∀ value, Settling (next value)) : Settling (reader >>= next) where
  settles k short long probe trio := (first.settles k short long probe trio).bind
    (fun value after at_end => (second value).tame after at_end)
    fun k value short' long' probe' trio => (second value).settles k short' long' probe' trio
  tame stream at_end := (first.tame stream at_end).bind fun value after at_end =>
    (second value).tame after at_end

theorem Demanding.bind {reader : Parse α} {next : α → Parse β} (first : Demanding reader)
    (second : ∀ value, Settling (next value)) : Demanding (reader >>= next) where
  settles := (first.settling.bind second).settles
  stuck stream at_end := (first.stuck stream at_end).bind

theorem Settling.pure (value : α) : Settling (pure value : Parse α) where
  settles _ _ _ _ trio := .pure value trio
  tame _ at_end := .pure value at_end

theorem Demanding.tooDeep : Demanding (tooDeep : Parse α) where
  settles _ _ _ _ _ := .refused _ rfl
  stuck _ _ := stuck_tooDeep

theorem Demanding.expect_bind {next : Token → Parse β} (wanted : TokenKind)
    (proper : wanted ≠ .endOfInput)
    (rest : ∀ token k short long probe, Trio k short long probe →
      Settled (next token) short long probe) : Demanding (expect wanted >>= next) where
  settles _ _ _ _ trio := .expect_bind wanted proper trio fun j token short' long' probe' trio =>
    rest token j short' long' probe' trio
  stuck _ at_end := (stuck_expect at_end wanted proper).bind

theorem Demanding.discard_bind {reader : Parse α} {next : Unit → Parse β}
    (whole : Demanding (reader >>= fun _ => next ())) : Demanding (discard reader >>= next) where
  settles k short long probe trio := .discard_bind (whole.settles k short long probe trio)
  stuck stream at_end := .discard_bind (whole.stuck stream at_end)

theorem Demanding.refuseHere (cause : Token → SyntaxError.Cause)
    (names : ∀ position token, SyntaxError.incomplete ⟨position, cause token⟩ =
      decide (token.kind = .endOfInput)) : Demanding (refuseHere cause : Parse α) where
  settles _ _ _ _ _ := .refused _ rfl
  stuck _ at_end := stuck_refuseHere at_end cause names

theorem Settling.ite {reader other : Parse α} {condition : Prop} [Decidable condition]
    (first : Settling reader) (second : Settling other) :
    Settling (if condition then reader else other) := by
  by_cases decided : condition
  · rw [if_pos decided]
    exact first
  · rw [if_neg decided]
    exact second

theorem Settling.token_bind {next : Token → Parse β} (each : ∀ token, Settling (next token)) :
    Settling (token >>= next) := by
  refine .of_tokens (fun stream at_end => ?_) fun k short long probe trio => ?_
  · exact .of_eq (Parse.token_bind next stream) ((each stream.current).tame stream at_end)
  · exact .token_bind trio ((each short.current).settles _ _ _ _ trio)

theorem Settling.kind_bind {next : TokenKind → Parse β} (each : ∀ kind, Settling (next kind)) :
    Settling (kind >>= next) := by
  refine .of_tokens (fun stream at_end => ?_) fun k short long probe trio => ?_
  · exact .of_eq (Parse.kind_bind next stream) ((each stream.current.kind).tame stream at_end)
  · exact .kind_bind trio ((each short.current.kind).settles _ _ _ _ trio)

theorem Settling.advance : Settling advance := by
  refine .of_tokens (fun stream at_end => ?_) fun k short long probe trio => ?_
  · have ends : Items.HasAt stream.item 1 .endOfInput :=
      ⟨stream.current, at_end.sound 0 _ rfl at_end.ended, at_end.ended⟩
    obtain ⟨after, at_end', moved⟩ := advance_to_end at_end.sound ends
    refine ⟨fun value left read => ?_, fun error refused => ?_⟩
    · rw [moved] at read
      cases read
      exact at_end'
    · rw [moved] at refused
      cases refused
  · rcases Settled.advance trio with
      ⟨error, failed⟩ | stuck | ⟨short', long', probe', moved, moved', moved'', trio⟩
    · exact .refused error failed
    · exact .ends stuck.tame
    · exact .goes k () short' long' probe' moved moved' moved'' trio

theorem Demanding.expect (wanted : TokenKind) (proper : wanted ≠ .endOfInput) :
    Demanding (expect wanted) := by
  have whole : Demanding (Parse.expect wanted >>= Pure.pure) :=
    .expect_bind wanted proper fun token k short long probe trio => .pure token trio
  rwa [bind_pure] at whole

theorem Settling.map {reader : Parse α} (first : Settling reader) (f : α → β) :
    Settling (do let value ← reader; return f value) :=
  first.bind fun value => .pure (f value)

theorem Demanding.map {reader : Parse α} (first : Demanding reader) (f : α → β) :
    Demanding (do let value ← reader; return f value) :=
  first.bind fun value => .pure (f value)

theorem Demanding.closing (wanted : TokenKind) (proper : wanted ≠ .endOfInput) (value : α) :
    Demanding (do discard <| Parse.expect wanted; return value) :=
  .discard_bind ((Demanding.expect wanted proper).map fun _ => value)

end Koy
