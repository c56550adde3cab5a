import InsertBatch.Proofs.CharacterReading
import InsertBatch.Proofs.ScriptAgreement

namespace InsertBatch

def Bytes.ofChars (chars : List Char) : Bytes := chars.flatMap String.utf8EncodeChar

namespace Text
variable {c d : Char} {bytes : Bytes} {units : List Bytes}

-- The bytes of one character tell where they end.
theorem encoded_front (c d : Char) (rest : Bytes)
    (leads : String.utf8EncodeChar d <+: String.utf8EncodeChar c ++ rest) : d = c := by
  obtain ⟨more, same⟩ := leads
  have here := @ByteArray.utf8DecodeChar?_utf8EncodeChar_append rest.toByteArray c
  have there := @ByteArray.utf8DecodeChar?_utf8EncodeChar_append more.toByteArray d
  rw [← List.toByteArray_append] at here there
  rw [same, here] at there
  exact (Option.some.inj there).symm

theorem encoded_suffix (ends : String.utf8EncodeChar d <:+ String.utf8EncodeChar c) : d = c := by
  obtain ⟨lead, same⟩ := ends
  have first := @UInt8.isUTF8FirstByte_getElem_zero_utf8EncodeChar d
  have filled : 0 < (String.utf8EncodeChar d).length :=
    List.length_pos_iff.mpr String.utf8EncodeChar_ne_nil
  have bound : lead.length < (String.utf8EncodeChar c).length := by
    rw [← same, List.length_append]
    omega
  have place : (String.utf8EncodeChar c)[lead.length] = (String.utf8EncodeChar d)[0] := by
    simp [← same]
  -- Only the first byte of a character can begin one.
  rw [← place, UInt8.isUTF8FirstByte_getElem_utf8EncodeChar, List.length_eq_zero_iff] at first
  rw [first, List.nil_append] at same
  apply encoded_front c d []
  rw [List.append_nil]
  exact same ▸ List.prefix_rfl

-- They also tell where they begin.
theorem encoded_back (front : Bytes)
    (ends : String.utf8EncodeChar d <:+ front ++ String.utf8EncodeChar c) : d = c := by
  rcases List.suffix_or_suffix_of_suffix ends (List.suffix_append front _) with inside | around
  · exact encoded_suffix inside
  · exact (encoded_suffix around).symm

-- Where no code stands at the front of another, dropping the codes of blank characters drops
-- the characters.
theorem dropUnits_codes (code : Char → Bytes) (filled : ∀ c, code c ≠ [])
    (unique : ∀ c d rest, code d <+: code c ++ rest → d = c) (chars : List Char) :
    dropUnits (blanks.map code) (chars.flatMap code) = (chars.dropWhile isBlank).flatMap code := by
  induction chars with
  | nil =>
    obtain ⟨front, split, _⟩ := dropUnits_parts (blanks.map code) []
    exact (List.append_eq_nil_iff.mp split.symm).2
  | cons c chars ih =>
    rw [List.flatMap_cons, dropUnits, List.find?_map]
    cases found : blanks.find? ((·.isPrefixOf (code c ++ chars.flatMap code)) ∘ code) with
    | none =>
      have other : isBlank c = false := by
        apply Bool.eq_false_iff.mpr
        intro blank
        have missed := List.find?_eq_none.mp found c (List.contains_iff_mem.mp blank)
        simp at missed
      rw [List.dropWhile_cons_of_neg (by simp [other]), List.flatMap_cons]
      rfl
    | some d =>
      have leads : code d <+: code c ++ chars.flatMap code := by
        simpa using List.find?_some found
      obtain rfl := unique c d _ leads
      have blank : isBlank d = true := List.contains_iff_mem.mpr (List.mem_of_find?_eq_some found)
      have present : 0 < (code d).length := List.length_pos_iff.mpr (filled d)
      rw [List.dropWhile_cons_of_pos blank, Option.map_some]
      simp only [present, List.append_ne_nil_of_left_ne_nil (filled d), ne_eq, not_false_eq_true,
        and_self, if_true, List.drop_left, ih]

theorem trimStart_ofChars (chars : List Char) :
    trimStart (Bytes.ofChars chars) = Bytes.ofChars (chars.dropWhile isBlank) :=
  dropUnits_codes String.utf8EncodeChar (fun _ => String.utf8EncodeChar_ne_nil) encoded_front chars

theorem trimEnd_ofChars (chars : List Char) :
    trimEnd (Bytes.ofChars chars) = Bytes.ofChars (chars.reverse.dropWhile isBlank).reverse := by
  have backwards := dropUnits_codes (List.reverse ∘ String.utf8EncodeChar)
    (fun c => by simp) (fun c d rest leads => ?_) chars.reverse
  · rw [trimEnd, encodedBlanks, List.map_map, Bytes.ofChars, List.reverse_flatMap, backwards,
      List.reverse_flatMap]
    simp [Bytes.ofChars, Function.comp_def]
  · apply encoded_back rest.reverse
    rw [← List.reverse_prefix]
    simpa using leads

theorem trim_ofChars (chars : List Char) :
    trimEnd (trimStart (Bytes.ofChars chars)) = Bytes.ofChars (trim chars) := by
  rw [trimStart_ofChars, trimEnd_ofChars, trim]

theorem lead_ofChars (chars : List Char) :
    (Bytes.ofChars chars).length - (trimStart (Bytes.ofChars chars)).length =
      (Bytes.ofChars (chars.takeWhile isBlank)).length := by
  have whole : Bytes.ofChars chars =
      Bytes.ofChars (chars.takeWhile isBlank) ++ Bytes.ofChars (chars.dropWhile isBlank) := by
    rw [Bytes.ofChars, Bytes.ofChars, Bytes.ofChars, ← List.flatMap_append,
      List.takeWhile_append_dropWhile]
  have lengths := congrArg List.length whole
  rw [List.length_append] at lengths
  rw [trimStart_ofChars]
  omega

-- What is left starts with none of the units.
theorem dropUnits_stops (filled : ∀ unit ∈ units, unit ≠ []) (bytes : Bytes) :
    ∀ unit ∈ units, ¬unit <+: dropUnits units bytes := by
  fun_induction dropUnits units bytes with
  | case1 bytes missing =>
    intro unit listed leads
    exact List.find?_eq_none.mp missing unit listed (by simpa using leads)
  | case2 bytes unit found present ih => exact ih
  | case3 bytes unit found done =>
    have nonempty := filled unit (List.mem_of_find?_eq_some found)
    have leads : unit <+: bytes := by simpa using List.find?_some found
    refine absurd ⟨List.length_pos_iff.mpr nonempty, ?_⟩ done
    rintro rfl
    exact nonempty (List.prefix_nil.mp leads)

theorem dropUnits_fixed (none : ∀ unit ∈ units, ¬unit <+: bytes) :
    dropUnits units bytes = bytes := by
  have missing : units.find? (·.isPrefixOf bytes) = Option.none := by
    apply List.find?_eq_none.mpr
    intro unit listed leads
    exact none unit listed (by simpa using leads)
  rw [dropUnits, missing]

theorem encodedBlanks_filled : ∀ unit ∈ encodedBlanks, unit ≠ [] := by decide +kernel

-- Trimming again changes nothing, also in bytes that are no text.
theorem trimStart_trim (bytes : Bytes) :
    trimStart (trimEnd (trimStart bytes)) = trimEnd (trimStart bytes) := by
  apply dropUnits_fixed
  intro unit listed leads
  obtain ⟨trail, split, _⟩ := trimEnd_parts (trimStart bytes)
  have front : trimEnd (trimStart bytes) <+: trimStart bytes := ⟨trail, split.symm⟩
  exact dropUnits_stops encodedBlanks_filled bytes unit listed (leads.trans front)

theorem trimEnd_trim (bytes : Bytes) : trimEnd (trimEnd bytes) = trimEnd bytes := by
  have filled : ∀ unit ∈ encodedBlanks.map List.reverse, unit ≠ [] := by decide +kernel
  have fixed := dropUnits_fixed (dropUnits_stops filled bytes.reverse)
  rw [trimEnd, trimEnd, List.reverse_reverse, fixed]

end Text

-- A text may be cut at an ASCII character: what stands before it and behind it are texts.
theorem Bytes.ofChars_cut {chars : List Char} {left right : Bytes} {byte : UInt8}
    (ascii : byte < 0x80) (split : ofChars chars = left ++ byte :: right) :
    ∃ before after, left = ofChars before ∧ right = ofChars after := by
  induction chars generalizing left with
  | nil => simp [ofChars] at split
  | cons c chars ih =>
    have parts : String.utf8EncodeChar c ++ ofChars chars = left ++ byte :: right := split
    rcases List.append_eq_append_iff.mp parts with ⟨more, rfl, rest⟩ | ⟨more, encoded, rest⟩
    · obtain ⟨before, after, rfl, rfl⟩ := ih rest
      exact ⟨c :: before, after, rfl, rfl⟩
    · cases more with
      | nil =>
        have behind : ofChars chars = [] ++ byte :: right := rest.symm
        obtain ⟨before, after, front, rfl⟩ := ih behind
        rw [List.append_nil] at encoded
        exact ⟨[c], after, by simp [ofChars, encoded], rfl⟩
      | cons first more =>
        obtain ⟨rfl, rfl⟩ := List.cons.inj rest
        rcases Reading.encoded_cases c with ⟨single, _, _, alone⟩ | ⟨_, high⟩
        · rw [alone] at encoded
          obtain ⟨rfl, rfl, rfl⟩ : left = [] ∧ byte = single ∧ more = [] := by
            cases left with
            | nil => simpa [eq_comm] using encoded
            | cons _ left => simp at encoded
          exact ⟨[], chars, rfl, rfl⟩
        · have beyond := high byte (by simp [encoded])
          exact absurd beyond (UInt8.not_le.mpr ascii)

end InsertBatch
