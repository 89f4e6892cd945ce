import Koy.Text.Glyph

/-! Reading bytes as glyphs. The glyphs of an encoded text are its characters, and the glyphs of
two texts are those of the texts put together, if the first ends a line. -/

namespace Koy.Glyph

theorem decodeFrom_eq (skip : Nat) (bytes : Bytes) :
    decodeFrom skip bytes = decode (bytes.drop skip) := by
  induction skip generalizing bytes with
  | zero => rfl
  | succ skip ih =>
      cases bytes with
      | nil => simp [decodeFrom, decode]
      | cons byte rest => simpa [decodeFrom] using ih rest

theorem utf8DecodeChar?_eq_some_iff (bytes : Bytes) (c : Char) :
    bytes.toByteArray.utf8DecodeChar? 0 = some c ↔ String.utf8EncodeChar c <+: bytes := by
  constructor
  · intro decoded
    obtain ⟨tail, parts⟩ := ByteArray.exists_of_utf8DecodeChar?_eq_some decoded
    have lists := congrArg (fun array => array.data.toList) parts
    simp only [ByteArray.data_append, Array.toList_append, List.toList_data_toByteArray] at lists
    exact ⟨tail.data.toList, lists.symm⟩
  · rintro ⟨tail, rfl⟩
    rw [List.toByteArray_append]
    exact ByteArray.utf8DecodeChar?_utf8EncodeChar_append

theorem leading_eq_char_iff (byte : UInt8) (following : Bytes) (c : Char) :
    leading byte following = .char c ↔ String.utf8EncodeChar c <+: byte :: following := by
  have cut : String.utf8EncodeChar c <+: byte :: following ↔
      String.utf8EncodeChar c <+: byte :: following.take 3 := by
    have four : byte :: following.take 3 = (byte :: following).take 4 := by simp
    rw [four, List.prefix_take_iff, String.length_utf8EncodeChar]
    exact ⟨fun led => ⟨led, c.utf8Size_le_four⟩, fun led => led.1⟩
  rw [cut, ← utf8DecodeChar?_eq_some_iff, leading]
  split
  · rename_i found decoded
    simp [decoded]
  · rename_i missing
    simp [missing]

theorem leading_eq_stray (byte : UInt8) (following : Bytes)
    (none : ∀ c, ¬ String.utf8EncodeChar c <+: byte :: following) :
    leading byte following = .stray byte := by
  cases led : leading byte following with
  | char c => exact absurd ((leading_eq_char_iff byte following c).mp led) (none c)
  | stray other =>
      rw [leading] at led
      split at led
      · cases led
      · exact led.symm

@[simp] theorem decode_nil : decode [] = [] := rfl

@[simp] theorem decode_encodeChar_append (c : Char) (bytes : Bytes) :
    decode (String.utf8EncodeChar c ++ bytes) = .char c :: decode bytes := by
  obtain ⟨byte, more, shape⟩ := List.exists_cons_of_ne_nil (@String.utf8EncodeChar_ne_nil c)
  have led : leading byte (more ++ bytes) = .char c := by
    rw [leading_eq_char_iff, shape]
    exact List.prefix_append (byte :: more) bytes
  have width : (Glyph.char c).bytes.length - 1 = more.length := by
    rw [Glyph.bytes, shape, List.length_cons, Nat.add_sub_cancel]
  rw [shape, List.cons_append, decode, decodeFrom, led, decodeFrom_eq, width]
  simp

theorem decode_stray (byte : UInt8) (bytes : Bytes)
    (none : ∀ c, ¬ String.utf8EncodeChar c <+: byte :: bytes) :
    decode (byte :: bytes) = .stray byte :: decode bytes := by
  rw [decode, decodeFrom, leading_eq_stray byte bytes none, decodeFrom_eq]
  simp [Glyph.bytes]

theorem decode_ofChars_append (chars : List Char) (bytes : Bytes) :
    decode (Bytes.ofChars chars ++ bytes) = chars.map .char ++ decode bytes := by
  induction chars with
  | nil => simp
  | cons c chars ih => simp [ih]

theorem decode_ofChars (chars : List Char) : decode (Bytes.ofChars chars) = chars.map .char := by
  simpa using decode_ofChars_append chars []

theorem decode_induction {motive : Bytes → Prop} (nil : motive [])
    (char : ∀ c bytes, motive bytes → motive (String.utf8EncodeChar c ++ bytes))
    (stray : ∀ byte bytes, (∀ c, ¬ String.utf8EncodeChar c <+: byte :: bytes) →
      motive bytes → motive (byte :: bytes))
    (bytes : Bytes) : motive bytes := by
  induction length : bytes.length using Nat.strongRecOn generalizing bytes with
  | _ n ih =>
      cases bytes with
      | nil => exact nil
      | cons byte rest =>
          by_cases led : ∃ c, String.utf8EncodeChar c <+: byte :: rest
          · obtain ⟨c, tail, parts⟩ := led
            have shorter := congrArg List.length parts
            have positive := c.utf8Size_pos
            rw [List.length_append, String.length_utf8EncodeChar] at shorter
            rw [← parts]
            exact char c tail (ih tail.length (by omega) tail rfl)
          · simp only [not_exists] at led
            rw [List.length_cons] at length
            exact stray byte rest led (ih rest.length (by omega) rest rfl)

theorem length_decode_le (bytes : Bytes) : (decode bytes).length ≤ bytes.length := by
  induction bytes using decode_induction with
  | nil => exact Nat.le_refl 0
  | char c bytes ih =>
      have positive := c.utf8Size_pos
      rw [decode_encodeChar_append, List.length_cons, List.length_append,
        String.length_utf8EncodeChar]
      omega
  | stray byte bytes none ih =>
      rw [decode_stray byte bytes none, List.length_cons, List.length_cons]
      omega

theorem eq_ofChars_of_chars? (bytes : Bytes) (chars : List Char)
    (decoded : chars? (decode bytes) = some chars) : bytes = Bytes.ofChars chars := by
  induction bytes using decode_induction generalizing chars with
  | nil =>
      cases decoded
      rfl
  | char c bytes ih =>
      rw [decode_encodeChar_append, chars?, Option.map_eq_some_iff] at decoded
      obtain ⟨rest, found, rfl⟩ := decoded
      rw [Bytes.ofChars_cons, ← ih rest found]
  | stray byte bytes none ih =>
      rw [decode_stray byte bytes none] at decoded
      cases decoded

theorem chars?_map (chars : List Char) : chars? (chars.map .char) = some chars := by
  induction chars with
  | nil => rfl
  | cons c chars ih => rw [List.map_cons, chars?, ih, Option.map_some]

/-- A byte that is a character by itself belongs to no other encoding. -/
theorem encodeChar_of_single {byte : UInt8} {d : Char} (single : String.utf8EncodeChar d = [byte])
    (c : Char) (before after : Bytes) (shape : String.utf8EncodeChar c = before ++ byte :: after) :
    before = [] ∧ c = d := by
  have inside : before.length < (String.utf8EncodeChar c).length := by simp [shape]
  have here : (String.utf8EncodeChar c)[before.length] = byte := by simp [shape]
  have present : 0 < (String.utf8EncodeChar d).length := by simp [single]
  have alone : (String.utf8EncodeChar d)[0] = byte := by simp [single]
  have first : (String.utf8EncodeChar c)[before.length].IsUTF8FirstByte := by
    rw [here, ← alone]
    simp
  have start : before = [] := by simpa using first
  subst start
  have self := (utf8DecodeChar?_eq_some_iff (byte :: after) d).mpr ⟨after, by simp [single]⟩
  have found := (utf8DecodeChar?_eq_some_iff (byte :: after) c).mpr ⟨[], by simp [shape]⟩
  rw [self] at found
  exact ⟨rfl, (Option.some.inj found).symm⟩

theorem encodeChar_of_lineEnd (c : Char) (before after : Bytes)
    (shape : String.utf8EncodeChar c = before ++ 10 :: after) : before = [] ∧ after = [] := by
  have newline : String.utf8EncodeChar '\n' = [10] := by simp [String.utf8EncodeChar]
  obtain ⟨rfl, rfl⟩ := encodeChar_of_single newline c before after shape
  rw [newline] at shape
  exact ⟨rfl, (List.cons.inj shape).2.symm⟩

theorem getLast?_decode (bytes : Bytes) (ends : bytes.getLast? = some 10) :
    (decode bytes).getLast? = some (.char '\n') := by
  induction bytes using decode_induction with
  | nil => cases ends
  | char c bytes ih =>
      rw [decode_encodeChar_append]
      cases bytes with
      | nil =>
          rw [List.append_nil] at ends
          obtain ⟨before, shape⟩ := List.getLast?_eq_some_iff.mp ends
          obtain ⟨rfl, -⟩ := encodeChar_of_lineEnd c before [] shape
          have newline : decode (String.utf8EncodeChar c) = [.char '\n'] := by
            rw [shape]
            exact decode_ofChars ['\n']
          have self : decode (String.utf8EncodeChar c) = [.char c] := by
            simpa using decode_encodeChar_append c []
          rw [newline] at self
          cases self
          rfl
      | cons byte rest =>
          rw [List.getLast?_cons, ih (by simpa using ends)]
          rfl
  | stray byte bytes none ih =>
      rw [decode_stray byte bytes none]
      cases bytes with
      | nil =>
          have newline : byte = 10 := by simpa using ends
          exact absurd ⟨[], by simp [newline, String.utf8EncodeChar]⟩ (none '\n')
      | cons next rest =>
          rw [List.getLast?_cons, ih (by simpa using ends)]
          rfl

theorem not_prefix_of_lineEnd (c : Char) (first second : Bytes)
    (ends : first.getLast? = some 10) (alone : ¬ String.utf8EncodeChar c <+: first) :
    ¬ String.utf8EncodeChar c <+: first ++ second := by
  rintro ⟨tail, parts⟩
  rcases List.append_eq_append_iff.mp parts with ⟨more, inside, -⟩ | ⟨more, beyond, -⟩
  · exact alone ⟨more, inside.symm⟩
  · obtain ⟨before, rfl⟩ := List.getLast?_eq_some_iff.mp ends
    rw [List.append_assoc, List.singleton_append] at beyond
    obtain ⟨-, rfl⟩ := encodeChar_of_lineEnd c before more beyond
    rw [beyond] at alone
    exact alone (List.prefix_refl _)

theorem decode_append (first second : Bytes) (ends : first.getLast? = some 10) :
    decode (first ++ second) = decode first ++ decode second := by
  induction first using decode_induction with
  | nil => cases ends
  | char c bytes ih =>
      rw [List.append_assoc, decode_encodeChar_append, decode_encodeChar_append, List.cons_append]
      cases bytes with
      | nil => simp
      | cons byte rest =>
          rw [ih]
          simpa using ends
  | stray byte bytes none ih =>
      have none' : ∀ c, ¬ String.utf8EncodeChar c <+: byte :: (bytes ++ second) := fun c =>
        not_prefix_of_lineEnd c (byte :: bytes) second ends (none c)
      rw [List.cons_append, decode_stray _ _ none', decode_stray _ _ none, List.cons_append]
      cases bytes with
      | nil =>
          have newline : byte = 10 := by simpa using ends
          exact absurd ⟨[], by simp [newline, String.utf8EncodeChar]⟩ (none '\n')
      | cons next rest =>
          rw [ih]
          simpa using ends

end Koy.Glyph
