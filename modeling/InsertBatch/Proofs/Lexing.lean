import InsertBatch.Lexer

namespace InsertBatch.Lexer

-- A place where a text may be cut without tearing a comment opener of two bytes
-- apart, or two texts put together without forming one.
def Seam (left right : Bytes) : Prop :=
  ¬(left.getLast? = some Ascii.dash ∧ right.head? = some Ascii.dash) ∧
    ¬(left.getLast? = some Ascii.slash ∧ right.head? = some Ascii.star)

theorem Seam.drop (seam : Seam left right) (count : Nat) : Seam (left.drop count) right := by
  by_cases past : left.length ≤ count
  · rw [List.drop_eq_nil_of_le past]
    simp [Seam]
  · have last : (left.drop count).getLast? = left.getLast? := by
      rw [List.getLast?_drop, if_neg past]
    simpa only [Seam, last] using seam

-- A byte that takes part in no opener, neither alone nor with a neighbour.
def Inert (byte : UInt8) : Prop :=
  byte ∉ [Ascii.singleQuote, Ascii.doubleQuote, Ascii.backtick, Ascii.hash, Ascii.dash,
    Ascii.slash, Ascii.star]

instance (byte : UInt8) : Decidable (Inert byte) := inferInstanceAs (Decidable (_ ∉ _))

theorem Inert.plainStep (inert : Inert byte) (rest : Bytes) :
    plainStep (byte :: rest) = ⟨.plain, 1⟩ := by
  simp only [Inert, List.mem_cons, not_or] at inert
  simp [Lexer.plainStep, inert]

theorem Inert.seam_before (inert : Inert byte) (left right : Bytes) :
    Seam left (byte :: right) := by
  simp only [Inert, List.mem_cons, not_or] at inert
  simp [Seam, inert]

theorem Inert.seam_after (inert : Inert byte) (left right : Bytes) :
    Seam (left ++ [byte]) right := by
  simp only [Inert, List.mem_cons, not_or] at inert
  simp [Seam, inert]

theorem past?_le (found : past? stop rest = some length) : length ≤ rest.length := by
  induction rest generalizing length with
  | nil => simp [past?] at found
  | cons b rest ih =>
    simp only [past?] at found
    split at found
    · cases found
      exact Nat.succ_le_succ (Nat.zero_le _)
    · obtain ⟨shorter, inside, rfl⟩ := Option.map_eq_some_iff.mp found
      exact Nat.succ_le_succ (ih inside)

theorem pastBlockEnd?_le (found : pastBlockEnd? rest = some length) : length ≤ rest.length := by
  induction rest generalizing length with
  | nil => simp [pastBlockEnd?] at found
  | cons b rest ih =>
    simp only [pastBlockEnd?] at found
    split at found
    · rename_i closes
      cases found
      cases rest with
      | nil => simp at closes
      | cons next rest => simp
    · obtain ⟨shorter, inside, rfl⟩ := Option.map_eq_some_iff.mp found
      exact Nat.succ_le_succ (ih inside)

theorem past?_append (stop : UInt8) (left right : Bytes) :
    past? stop (left ++ right) =
      (past? stop left).or ((past? stop right).map (· + left.length)) := by
  induction left with
  | nil => simp [past?]
  | cons b left ih =>
    simp only [List.cons_append, past?, ih]
    split
    · rfl
    · cases past? stop left <;> simp [Option.map_map, Function.comp_def, Nat.add_assoc]

theorem pastBlockEnd?_append (found : pastBlockEnd? left = some length) :
    pastBlockEnd? (left ++ right) = some length := by
  induction left generalizing length with
  | nil => simp [pastBlockEnd?] at found
  | cons b left ih =>
    simp only [pastBlockEnd?, List.cons_append] at found ⊢
    split at found
    · rename_i closes
      have same : (left ++ right).head? = some Ascii.slash := by simp [closes.2]
      rw [if_pos ⟨closes.1, same⟩, found]
    · rename_i open_
      obtain ⟨shorter, inside, rfl⟩ := Option.map_eq_some_iff.mp found
      have later : ¬(b = Ascii.star ∧ (left ++ right).head? = some Ascii.slash) := by
        cases left with
        | nil => simp [pastBlockEnd?] at inside
        | cons next left => simpa using open_
      rw [if_neg later, ih inside]
      rfl

theorem pastBlockEnd?_of_append (found : pastBlockEnd? (left ++ right) = some length)
    (fits : length ≤ left.length) : pastBlockEnd? left = some length := by
  induction left generalizing length with
  | nil =>
    have positive := pastBlockEnd?_pos found
    simp only [List.length_nil] at fits
    omega
  | cons b left ih =>
    simp only [pastBlockEnd?, List.cons_append] at found ⊢
    split at found
    · rename_i closes
      cases found
      cases left with
      | nil => simp at fits
      | cons next left => rw [if_pos (by simpa using closes)]
    · rename_i open_
      obtain ⟨shorter, inside, rfl⟩ := Option.map_eq_some_iff.mp found
      have earlier : ¬(b = Ascii.star ∧ left.head? = some Ascii.slash) := by
        rintro ⟨star, slash⟩
        exact open_ ⟨star, by simp [slash]⟩
      rw [if_neg earlier, ih inside (by simpa using fits)]
      rfl

theorem close_append (closes : (close context left found).after ≠ context)
    (stays : ∀ length, found = some length → later = some length) :
    close context (left ++ right) later = close context left found := by
  cases found with
  | none => exact absurd rfl closes
  | some length => rw [stays length rfl]; rfl

theorem close_of_append (fits : (close context (left ++ right) later).length ≤ left.length)
    (present : right ≠ [])
    (stays : ∀ length, later = some length → length ≤ left.length → found = some length) :
    close context left found = close context (left ++ right) later := by
  cases later with
  | none =>
    have nonempty := List.length_pos_iff.mpr present
    simp only [close, List.length_append] at fits
    omega
  | some length => rw [stays length rfl fits]; rfl

theorem stringStep_append (closes : (stringStep rawBackslash quote left).after ≠ .string quote) :
    stringStep rawBackslash quote (left ++ right) = stringStep rawBackslash quote left := by
  induction left with
  | nil => exact absurd rfl closes
  | cons b left ih =>
    simp only [stringStep, List.cons_append] at closes ⊢
    split
    · rfl
    · split
      · rfl
      · rename_i ends escapes
        rw [if_neg ends, if_neg escapes] at closes
        rw [ih closes]

theorem stringStep_of_append
    (fits : (stringStep rawBackslash quote (left ++ right)).length ≤ left.length)
    (present : right ≠ []) :
    stringStep rawBackslash quote left = stringStep rawBackslash quote (left ++ right) := by
  induction left with
  | nil =>
    have positive := step_length_pos rawBackslash (.string quote) present
    simp only [step, List.nil_append, List.length_nil] at positive fits
    omega
  | cons b left ih =>
    simp only [stringStep, List.cons_append] at fits ⊢
    split
    · rfl
    · split
      · rfl
      · rename_i ends escapes
        rw [if_neg ends, if_neg escapes] at fits
        rw [ih (by simpa [Step.advance] using fits)]

theorem close_length_le (fits : ∀ length, found = some length → length ≤ rest.length) :
    (close context rest found).length ≤ rest.length := by
  cases found with
  | none => exact Nat.le_refl _
  | some length => exact fits length rfl

theorem stringStep_length_le (rawBackslash : Bool) (quote : Quote) (rest : Bytes) :
    (stringStep rawBackslash quote rest).length ≤ rest.length := by
  induction rest with
  | nil => exact Nat.le_refl _
  | cons b rest ih =>
    simp only [stringStep]
    repeat' split
    · exact Nat.succ_le_succ (Nat.zero_le _)
    · exact Nat.succ_le_succ (Nat.zero_le _)
    · exact Nat.succ_le_succ ih

theorem plainStep_length_le (present : rest ≠ []) : (plainStep rest).length ≤ rest.length := by
  match rest with
  | [] => exact absurd rfl present
  | [b] => simp only [plainStep]; repeat' split
           all_goals simp_all
  | b :: next :: rest => simp only [plainStep]; repeat' split
                         all_goals simp

-- No step reaches past the end of the text.
theorem step_length_le (rawBackslash : Bool) (context : Context) (present : rest ≠ []) :
    (step rawBackslash context rest).length ≤ rest.length := by
  cases context with
  | plain => exact plainStep_length_le present
  | string quote => exact stringStep_length_le _ _ _
  | escape quote => exact List.length_pos_iff.mpr present
  | identifier => exact close_length_le fun _ => past?_le
  | lineComment => exact close_length_le fun _ => past?_le
  | blockComment => exact close_length_le fun _ => pastBlockEnd?_le

theorem stringStep_open (same : (stringStep rawBackslash quote rest).after = .string quote) :
    (stringStep rawBackslash quote rest).length = rest.length := by
  induction rest with
  | nil => rfl
  | cons b rest ih =>
    simp only [stringStep] at same ⊢
    split at same
    · cases same
    · split at same
      · cases same
      · rename_i ends escapes
        rw [if_neg ends, if_neg escapes]
        exact congrArg (· + 1) (ih same)

-- A body that a step does not close takes all the text that is left.
theorem step_open (inside : context ≠ .plain)
    (same : (step rawBackslash context rest).after = context) :
    (step rawBackslash context rest).length = rest.length := by
  cases context with
  | plain => exact absurd rfl inside
  | string quote => exact stringStep_open same
  | escape quote => cases same
  | identifier => cases found : past? Ascii.backtick rest <;> simp_all [step, close]
  | lineComment => cases found : past? Ascii.newline rest <;> simp_all [step, close]
  | blockComment => cases found : pastBlockEnd? rest <;> simp_all [step, close]

theorem plainStep_single (other : (plainStep (byte :: rest)).after.isComment = false) :
    (plainStep (byte :: rest)).length = 1 := by
  revert other
  simp only [plainStep]
  repeat' split
  all_goals decide

theorem plainStep_plain (after : (plainStep (byte :: rest)).after = .plain) :
    (plainStep (byte :: rest)).length = 1 :=
  plainStep_single (congrArg Context.isComment after)

theorem plainStep_append (present : left ≠ []) (seam : Seam left right) :
    plainStep (left ++ right) = plainStep left := by
  match left with
  | [] => exact absurd rfl present
  | [b] =>
    have dashes : ¬(b = Ascii.dash ∧ right.head? = some Ascii.dash) := by
      simpa using seam.1
    have slashes : ¬(b = Ascii.slash ∧ right.head? = some Ascii.star) := by
      simpa using seam.2
    simp [plainStep, dashes, slashes]
  | b :: next :: left => simp [plainStep]

-- Inside a body a step that leaves it is not changed by text put behind it.
theorem step_append_inside (inside : context ≠ .plain)
    (leaves : (step rawBackslash context left).after ≠ context) :
    step rawBackslash context (left ++ right) = step rawBackslash context left := by
  cases context with
  | plain => exact absurd rfl inside
  | string quote => exact stringStep_append leaves
  | escape quote => rfl
  | identifier =>
    refine close_append leaves ?_
    intro length found
    rw [past?_append, found, Option.some_or]
  | lineComment =>
    refine close_append leaves ?_
    intro length found
    rw [past?_append, found, Option.some_or]
  | blockComment => exact close_append leaves fun _ => pastBlockEnd?_append

-- A step that leaves its context is not changed by text put behind it.
theorem step_append (present : left ≠ []) (seam : Seam left right)
    (leaves : context = .plain ∨ (step rawBackslash context left).after ≠ context) :
    step rawBackslash context (left ++ right) = step rawBackslash context left := by
  by_cases inside : context = .plain
  · rw [inside]
    exact plainStep_append present seam
  · exact step_append_inside inside (leaves.resolve_left inside)

theorem past?_of_append (found : past? stop (left ++ right) = some length)
    (fits : length ≤ left.length) : past? stop left = some length := by
  rw [past?_append] at found
  cases inside : past? stop left with
  | some shorter => simpa [inside] using found
  | none =>
    rw [inside, Option.none_or] at found
    obtain ⟨behind, reached, rfl⟩ := Option.map_eq_some_iff.mp found
    have positive := past?_pos reached
    omega

theorem plainStep_of_append (present : left ≠ [])
    (fits : (plainStep (left ++ right)).length ≤ left.length) :
    plainStep left = plainStep (left ++ right) := by
  match left with
  | [] => exact absurd rfl present
  | [b] =>
    have dashes : ¬(b = Ascii.dash ∧ right.head? = some Ascii.dash) := by
      rintro ⟨rfl, next⟩
      simp +decide [plainStep, next] at fits
    have slashes : ¬(b = Ascii.slash ∧ right.head? = some Ascii.star) := by
      rintro ⟨rfl, next⟩
      simp +decide [plainStep, next] at fits
    simp [plainStep, dashes, slashes]
  | b :: next :: left => simp [plainStep]

-- A step that stays within the first part of a text does not depend on the rest.
theorem step_of_append (present : left ≠ [])
    (fits : (step rawBackslash context (left ++ right)).length ≤ left.length) :
    step rawBackslash context left = step rawBackslash context (left ++ right) := by
  by_cases more : right = []
  · rw [more, List.append_nil]
  cases context with
  | plain => exact plainStep_of_append present fits
  | string quote => exact stringStep_of_append fits more
  | escape quote => rfl
  | identifier => exact close_of_append fits more fun _ => past?_of_append
  | lineComment => exact close_of_append fits more fun _ => past?_of_append
  | blockComment => exact close_of_append fits more fun _ => pastBlockEnd?_of_append

theorem stringStep_outside (rawBackslash : Bool) (quote : Quote) (rest : Bytes) :
    (stringStep rawBackslash quote rest).after.isComment = false := by
  induction rest with
  | nil => rfl
  | cons byte rest ih =>
    unfold stringStep
    split
    · rfl
    · split
      · rfl
      · exact ih

theorem close_after (context : Context) (rest : Bytes) (found : Option Nat) :
    (close context rest found).after = .plain ∨ (close context rest found).after = context := by
  cases found with
  | none => exact .inr rfl
  | some length => exact .inl rfl

-- Comments are opened in plain text and closed into it.
theorem comment_before (opened : (step rawBackslash context rest).after.isComment = true) :
    context = .plain ∨ context = (step rawBackslash context rest).after := by
  cases context with
  | plain => exact .inl rfl
  | string quote =>
    change (stringStep rawBackslash quote rest).after.isComment = true at opened
    rw [stringStep_outside] at opened
    cases opened
  | escape quote => cases opened
  | identifier | lineComment | blockComment =>
    refine .inr ?_
    rcases close_after _ rest _ with plain | same
    · rw [step, plain] at opened
      cases opened
    · exact same.symm

theorem comment_after (inside : context.isComment = true) :
    (step rawBackslash context rest).after = .plain ∨
      (step rawBackslash context rest).after = context := by
  cases context with
  | lineComment | blockComment => exact close_after _ rest _
  | _ => cases inside

-- No opener of two bytes stands where a plain step opens no comment.
theorem seam_of_plainStep (other : (plainStep (byte :: rest)).after.isComment = false) :
    Seam [byte] rest := by
  constructor
  · intro opener
    obtain ⟨last, next⟩ := opener
    obtain rfl : byte = Ascii.dash := Option.some.inj last
    simp +decide [plainStep, next] at other
  · intro opener
    obtain ⟨last, next⟩ := opener
    obtain rfl : byte = Ascii.slash := Option.some.inj last
    simp +decide [plainStep, next] at other

end InsertBatch.Lexer
