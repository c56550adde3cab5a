import InsertBatch.Proofs.MergedTexts
import InsertBatch.Proofs.TokenReading

namespace InsertBatch

namespace Grammar

def Blanks (text : Bytes) : Prop := ∀ byte ∈ text, Ascii.isBlank byte = true

instance (text : Bytes) : Decidable (Blanks text) :=
  inferInstanceAs (Decidable (∀ byte ∈ text, Ascii.isBlank byte = true))

-- A comment with what closes it.
inductive Comment : Bytes → Prop where
  | hash (inside : Ascii.newline ∉ body) : Comment ([Ascii.hash] ++ (body ++ [Ascii.newline]))
  | dashes (inside : Ascii.newline ∉ body) :
      Comment ([Ascii.dash, Ascii.dash] ++ (body ++ [Ascii.newline]))
  | block (inside : ¬[Ascii.star, Ascii.slash] <:+: body) :
      Comment ([Ascii.slash, Ascii.star] ++ (body ++ [Ascii.star, Ascii.slash]))

inductive Padding : Bytes → Prop where
  | done : Padding []
  | blank (blank : Ascii.isBlank byte = true) (rest : Padding bytes) : Padding ([byte] ++ bytes)
  | comment (comment : Comment text) (rest : Padding bytes) : Padding (text ++ bytes)

-- A name in backticks. Two of them side by side are one that belongs to the name.
inductive Quoted : Bytes → Prop where
  | last (inside : Ascii.backtick ∉ body) : Quoted ([Ascii.backtick] ++ (body ++ [Ascii.backtick]))
  | next (inside : Ascii.backtick ∉ body) (rest : Quoted bytes) :
      Quoted (([Ascii.backtick] ++ (body ++ [Ascii.backtick])) ++ bytes)

inductive Name : Bytes → Prop where
  | quoted (quoted : Quoted text) : Name text
  | word (filled : text ≠ []) (words : ∀ byte ∈ text, Ascii.isWord byte = true)
      (free : ∀ keyword : Keyword, ¬Token.spells keyword.names text) : Name text

inductive Names : Bytes → Prop where
  | last (before : Blanks front) (name : Name text) (behind : Blanks back) :
      Names (front ++ (text ++ back))
  | next (before : Blanks front) (name : Name text) (behind : Blanks back) (rest : Names bytes) :
      Names (front ++ (text ++ (back ++ ([Ascii.comma] ++ bytes))))

-- What stands between the table and VALUES.
inductive Columns : Bytes → Prop where
  | none (blanks : Blanks gap) (filled : gap ≠ []) : Columns gap
  | list (before : Blanks front) (names : Blanks inside ∨ Names inside) (behind : Blanks back) :
      Columns (front ++ ([Ascii.openParen] ++ (inside ++ ([Ascii.closeParen] ++ back))))

-- An INSERT up to its tuple, with these words in any letter case.
structure Head where
  padding : Bytes
  insert : Bytes
  insertGap : Bytes
  into : Bytes
  intoGap : Bytes
  table : Bytes
  columns : Bytes
  values : Bytes
  valuesGap : Bytes
  padded : Padding padding
  insertWord : Token.spells ["insert"] insert
  insertBlanks : Blanks insertGap
  insertApart : insertGap ≠ []
  intoWord : Token.spells ["into"] into
  intoBlanks : Blanks intoGap
  intoApart : intoGap ≠ []
  tableName : Name table
  columnNames : Columns columns
  valuesWord : Token.spells ["values", "value"] values
  valuesBlanks : Blanks valuesGap

def Head.opening (head : Head) : Bytes := head.padding ++ head.insert

def Head.target (head : Head) : Bytes :=
  head.insertGap ++ (head.into ++ (head.intoGap ++ head.table))

def Head.text (head : Head) : Bytes :=
  head.opening ++ (head.target ++ (head.columns ++ (head.values ++ head.valuesGap)))

end Grammar

namespace Token

-- No mark and no semicolon, and no keyword but one of these.
structure Within (allowed : List Keyword) (token : Token) : Prop where
  listed : ∀ keyword, token.keyword? = some keyword → keyword ∈ allowed
  unmarked : token.mark? = none
  whole : token.isSign Ascii.semicolon = false

variable {allowed more : List Keyword} {keyword : Keyword} {token : Token} {start : Nat}
  {byte : UInt8} {text : Bytes} {tokens front : List Token} {names : List String}

theorem Within.mono (within : Within allowed token) (subset : allowed ⊆ more) :
    Within more token := by
  refine ⟨?_, within.unmarked, within.whole⟩
  intro keyword found
  exact subset (within.listed keyword found)

theorem within_turn (lexeme : Lexeme) : Within allowed (.turn lexeme) := by
  refine ⟨?_, rfl, rfl⟩
  intro keyword found
  cases found

theorem within_blank (start : Nat) (byte : UInt8) : Within allowed (.blank start byte) := by
  refine ⟨?_, rfl, rfl⟩
  intro keyword found
  cases found

theorem within_skipped (skipped : token.isBlankOrComment = true) : Within allowed token := by
  cases token with
  | word start text | sign start byte => cases skipped
  | turn lexeme => exact within_turn lexeme
  | blank start byte => exact within_blank start byte

theorem within_sign (other : byte ≠ Ascii.question ∧ byte ≠ Ascii.semicolon) :
    Within allowed (.sign start byte) := by
  refine ⟨?_, if_neg other.1, beq_eq_false_iff_ne.mpr other.2⟩
  intro keyword found
  cases found

theorem within_word (listed : ∀ keyword : Keyword, spells keyword.names text → keyword ∈ allowed) :
    Within allowed (.word start text) := by
  refine ⟨?_, rfl, rfl⟩
  intro keyword found
  exact listed keyword ((ofWord?_iff text keyword).mp found)

-- A word that spells one keyword spells no other.
theorem within_named (named : spells keyword.names text) :
    Within [keyword] (.word start text) := by
  apply within_word
  intro other also
  have here := (ofWord?_iff text keyword).mpr named
  rw [(ofWord?_iff text other).mpr also, Option.some.injEq] at here
  exact List.mem_singleton.mpr here

theorem marks_within (within : ∀ token ∈ tokens, Within allowed token) : marks tokens = [] := by
  apply List.filterMap_eq_nil_iff.mpr
  intro token member
  exact (within token member).unmarked

theorem whole_within (within : ∀ token ∈ tokens, Within allowed token) :
    tokens.any (isSign Ascii.semicolon) = false := by
  apply List.any_eq_false.mpr
  intro token member separates
  rw [(within token member).whole] at separates
  cases separates

theorem first_append (first : (front.find? isSignificant).bind keyword? = some keyword)
    (rest : List Token) : ((front ++ rest).find? isSignificant).bind keyword? = some keyword := by
  rw [List.find?_append]
  cases found : front.find? isSignificant with
  | none =>
    rw [found] at first
    cases first
  | some token =>
    rw [found] at first
    exact first

-- In any letter case a word has the bytes of a word.
theorem spells_words (named : spells names text)
    (words : ∀ name ∈ names.map Bytes.ofString,
      name ≠ [] ∧ ∀ byte ∈ name, Ascii.isWord byte = true) :
    text ≠ [] ∧ ∀ byte ∈ text, Ascii.isWord byte = true := by
  obtain ⟨filled, all⟩ := words _ named
  constructor
  · intro empty
    rw [empty] at filled
    exact filled rfl
  · intro byte member
    have lower := all _ (List.mem_map_of_mem member)
    unfold Ascii.lower at lower
    split at lower
    · rename_i upper
      simp [Ascii.isWord, upper]
    · exact lower

end Token

namespace Classification
open Token (Within Free)
variable {allowed : List Keyword} {keyword : Keyword} {tokens before front later : List Token}
  {text : Bytes}

theorem mentions_within (within : ∀ token ∈ tokens, Within allowed token)
    (absent : keyword ∉ allowed) : mentions keyword tokens = false := by
  apply List.any_eq_false.mpr
  intro token member found
  exact absent ((within token member).listed keyword (beq_iff_eq.mp found))

theorem mentions_start (keyword : Keyword) (rawBackslash : Bool) (start : Nat) (text : Bytes) :
    mentions keyword (Token.ofLexemes (Lexeme.ofTextFrom rawBackslash .plain start text)) =
      mentions keyword (Token.ofText rawBackslash text) := by
  have moved := Lexeme.ofTextFrom_shift rawBackslash .plain 0 start text
  rw [Nat.zero_add] at moved
  rw [moved, Token.ofLexemes_shift, mentions, List.any_map]
  simp only [Function.comp_def, Token.keyword?_shift]
  rfl

-- The search passes over whatever is no VALUES.
theorem openTuple?_skip (within : ∀ token ∈ front, Within allowed token)
    (absent : Keyword.values ∉ allowed) (before rest : List Token) :
    openTuple? before.getLast? (front ++ rest) = openTuple? (before ++ front).getLast? rest := by
  induction front generalizing before with
  | nil => rw [List.append_nil, List.nil_append]
  | cons token front ih =>
    obtain ⟨first, within⟩ := List.forall_mem_cons.mp within
    have other : ¬(token.keyword? = some .values ∧ startsClause before.getLast? = true) := by
      intro clause
      exact absent (first.listed .values clause.1)
    have next := ih within (before ++ [token])
    rw [List.getLast?_concat] at next
    rw [List.cons_append, openTuple?, if_neg other, next, List.append_assoc]
    rfl

-- It ends at a free VALUES from which blanks lead to a parenthesis.
theorem openTuple?_here (free : Free before) (named : Token.spells ["values", "value"] text)
    (blanks : ∀ token ∈ later, token.isBlank = true) (start opens : Nat) (rest : List Token) :
    openTuple? before.getLast?
        (.word start text :: (later ++ .sign opens Ascii.openParen :: rest)) =
      some (opens, rest) := by
  have clause : (Token.word start text).keyword? = some .values ∧
      startsClause before.getLast? = true :=
    ⟨(Token.ofWord?_iff text .values).mpr named, (startsClause_free before).mpr free⟩
  rw [openTuple?, if_pos clause, openAfterBlanks?_some.mpr ⟨later, rfl, blanks⟩]

end Classification

namespace Grammar
open Token (Reads Passes Within Free reads_enclosed reads_sign reads_blank reads_word passes_blanks
  within_skipped within_turn within_blank within_sign within_word within_named spells_words)
variable {rawBackslash : Bool} {text gap left right rest : Bytes} {byte : UInt8} {start : Nat}

theorem line_passes {opener body : Bytes} (inside : Ascii.newline ∉ body) (filled : opener ≠ [])
    (opens : ∀ rest, Lexer.plainStep (opener ++ rest) = ⟨.lineComment, opener.length⟩)
    (start : Nat) (rest : Bytes) :
    Passes rawBackslash (Token.isBlankOrComment · = true) start
      (opener ++ (body ++ [Ascii.newline])) rest := by
  apply (reads_enclosed .lineComment filled (by simp) opens ?_ (by simp) start rest).passes
  · simp [Token.isBlankOrComment, Context.isComment]
  · intro rest
    rw [Lexer.step, List.append_assoc, List.singleton_append, Lexer.past?_first inside,
      List.length_append]
    rfl

theorem Comment.passes (comment : Comment text) (start : Nat) (rest : Bytes) :
    Passes rawBackslash (Token.isBlankOrComment · = true) start text rest := by
  cases comment with
  | hash inside => exact line_passes inside (by simp) (fun _ => rfl) start rest
  | dashes inside => exact line_passes inside (by simp) (fun _ => rfl) start rest
  | @block body inside =>
    apply (reads_enclosed .blockComment (by simp) (by simp) (fun _ => rfl) ?_ (by simp) start
      rest).passes
    · simp [Token.isBlankOrComment, Context.isComment]
    · intro rest
      have found := Lexer.pastBlockEnd?_first inside rest
      rw [Lexer.step, List.append_assoc, List.cons_append, List.singleton_append, found,
        List.length_append]
      rfl

theorem Padding.passes (padding : Padding text) (start : Nat) (rest : Bytes) :
    Passes rawBackslash (Token.isBlankOrComment · = true) start text rest := by
  induction padding generalizing start with
  | done => exact (Reads.nil start rest).passes (by simp)
  | @blank byte bytes blank _ ih =>
    have here : Passes rawBackslash (Token.isBlankOrComment · = true) start [byte]
        (bytes ++ rest) :=
      (reads_blank blank start _).passes_one rfl
    exact here.append (ih _)
  | comment comment _ ih => exact (comment.passes start _).append (ih _)

theorem backticks_pass {body : Bytes} (inside : Ascii.backtick ∉ body) (start : Nat)
    (rest : Bytes) : Passes rawBackslash (Within []) start
      ([Ascii.backtick] ++ (body ++ [Ascii.backtick])) rest := by
  apply (reads_enclosed .identifier (by simp) (by simp) (fun _ => rfl) ?_ (by simp) start
    rest).passes
  · simp [within_turn]
  · intro rest
    rw [Lexer.step, List.append_assoc, List.singleton_append, Lexer.past?_first inside,
      List.length_append]
    rfl

theorem Quoted.passes (quoted : Quoted text) (start : Nat) (rest : Bytes) :
    Passes rawBackslash (Within []) start text rest := by
  induction quoted generalizing start with
  | last inside => exact backticks_pass inside start rest
  | next inside _ ih => exact (backticks_pass inside start _).append (ih _)

theorem Name.passes (name : Name text) (start : Nat)
    (apart : rest.head?.any Ascii.isWord = false) :
    Passes rawBackslash (Within []) start text rest := by
  cases name with
  | quoted quoted => exact quoted.passes start rest
  | word filled words free =>
    apply (reads_word filled words start apart).passes_one
    apply within_word
    intro keyword named
    exact absurd named (free keyword)

theorem Blanks.passes (blanks : Blanks gap) (start : Nat) (rest : Bytes) :
    Passes rawBackslash (Within []) start gap rest := by
  apply (passes_blanks blanks start rest).imp
  intro token blank
  cases token with
  | blank start byte => exact within_skipped rfl
  | word start text | sign start byte | turn lexeme => cases blank

theorem Blanks.apart (blanks : Blanks gap)
    (apart : gap = [] → rest.head?.any Ascii.isWord = false) :
    (gap ++ rest).head?.any Ascii.isWord = false := by
  cases gap with
  | nil => exact apart rfl
  | cons byte gap =>
    apply Bool.eq_false_iff.mpr
    intro word
    have blank := blanks byte List.mem_cons_self
    rw [Token.isBlank_of_isWord word] at blank
    cases blank

theorem sign_passes (inert : Lexer.Inert byte)
    (ordinary : Ascii.isWord byte = false ∧ Ascii.isBlank byte = false)
    (other : byte ≠ Ascii.question ∧ byte ≠ Ascii.semicolon) (start : Nat) (rest : Bytes) :
    Passes rawBackslash (Within []) start [byte] rest :=
  (reads_sign inert ordinary start rest).passes_one (within_sign other)

theorem Names.passes (names : Names text) (start : Nat)
    (apart : rest.head?.any Ascii.isWord = false) :
    Passes rawBackslash (Within []) start text rest := by
  induction names generalizing start with
  | @last front text back before name behind =>
    apply Passes.append (before.passes start _)
    apply Passes.append (name.passes _ (behind.apart fun _ => apart))
    exact behind.passes _ rest
  | @next front text back bytes before name behind _ ih =>
    have comma : ((back ++ ([Ascii.comma] ++ bytes)) ++ rest).head?.any Ascii.isWord = false := by
      rw [List.append_assoc]
      exact behind.apart fun _ => rfl
    apply Passes.append (before.passes start _)
    apply Passes.append (name.passes _ comma)
    apply Passes.append (behind.passes _ _)
    apply Passes.append (sign_passes (by decide) (by decide) (by decide) _ _)
    exact ih _

-- Read before a word, this part of a text leaves it free.
def Frees (rawBackslash : Bool) (start : Nat) (part rest : Bytes) : Prop :=
  ∃ tokens, Reads rawBackslash start part rest tokens ∧ (∀ token ∈ tokens, Within [] token) ∧
    ∀ before, Free (before ++ tokens)

theorem frees_behind (first : Passes rawBackslash (Within []) start left (right ++ rest))
    (last : Frees rawBackslash (start + left.length) right rest) :
    Frees rawBackslash start (left ++ right) rest := by
  obtain ⟨tokens, reads, all⟩ := first
  obtain ⟨later, behind, others, free⟩ := last
  refine ⟨tokens ++ later, reads.append behind, List.forall_mem_append.mpr ⟨all, others⟩, ?_⟩
  intro before
  rw [← List.append_assoc]
  exact free (before ++ tokens)

theorem frees_last {token : Token} (reads : Reads rawBackslash start text rest [token])
    (within : Within [] token) (free : ∀ before, Free (before ++ [token])) :
    Frees rawBackslash start text rest := by
  refine ⟨[token], reads, ?_, free⟩
  intro other member
  rw [List.mem_singleton.mp member]
  exact within

theorem Blanks.frees (blanks : Blanks gap) (filled : gap ≠ []) (start : Nat) (rest : Bytes) :
    Frees rawBackslash start gap rest := by
  rw [← List.dropLast_concat_getLast filled] at blanks ⊢
  have last : Ascii.isBlank (gap.getLast filled) = true := blanks _ (by simp)
  have front : Blanks gap.dropLast := by
    intro byte member
    exact blanks byte (List.mem_append_left _ member)
  apply frees_behind (front.passes start _)
  apply frees_last (reads_blank last _ rest) (within_blank _ _)
  intro before
  exact .blank

theorem Columns.frees (columns : Columns text) (start : Nat) (rest : Bytes) :
    Frees rawBackslash start text rest := by
  cases columns with
  | none blanks filled => exact blanks.frees filled start rest
  | @list front inside back before names behind =>
    have last : ∀ start, Frees rawBackslash start ([Ascii.closeParen] ++ back) rest := by
      intro start
      by_cases ends : back = []
      · rw [ends]
        apply frees_last (reads_sign (by decide) (by decide) start rest) (within_sign (by decide))
        intro before
        exact .paren (.inr rfl)
      · apply frees_behind (sign_passes (by decide) (by decide) (by decide) start _)
        exact behind.frees ends _ rest
    apply frees_behind (before.passes start _)
    apply frees_behind (sign_passes (by decide) (by decide) (by decide) _ _)
    refine frees_behind ?_ (last _)
    rcases names with blanks | names
    · exact blanks.passes _ _
    · exact names.passes _ rfl

theorem Columns.apart (columns : Columns text) (rest : Bytes) :
    (text ++ rest).head?.any Ascii.isWord = false := by
  cases columns with
  | none blanks filled => exact blanks.apart fun empty => absurd empty filled
  | list before _ _ =>
    rw [List.append_assoc]
    exact before.apart fun _ => rfl

namespace Head

theorem opening_reads (head : Head) (apart : rest.head?.any Ascii.isWord = false) :
    ∃ tokens, Reads rawBackslash 0 head.opening rest tokens ∧
      (∀ token ∈ tokens, Within [.insert] token) ∧
      (tokens.find? Token.isSignificant).bind Token.keyword? = some .insert := by
  obtain ⟨skipped, padding, blank⟩ := head.padded.passes 0 (head.insert ++ rest)
  obtain ⟨filled, words⟩ := spells_words head.insertWord (by decide +kernel)
  have named : Keyword.ofWord? head.insert = some .insert :=
    (Token.ofWord?_iff _ .insert).mpr head.insertWord
  refine ⟨_, padding.append (reads_word filled words _ apart), ?_, ?_⟩
  · intro token member
    rcases List.mem_append.mp member with early | word
    · exact within_skipped (blank token early)
    · rw [List.mem_singleton.mp word]
      exact within_named head.insertWord
  · have none : skipped.find? Token.isSignificant = Option.none := by
      apply List.find?_eq_none.mpr
      intro token member significant
      rw [Token.isSignificant_skipped (blank token member)] at significant
      cases significant
    rw [List.find?_append, none]
    exact named

theorem target_passes (head : Head) (start : Nat) (apart : rest.head?.any Ascii.isWord = false) :
    Passes rawBackslash (Within []) start head.target rest := by
  obtain ⟨filled, words⟩ := spells_words head.intoWord (by decide +kernel)
  have other : ∀ keyword : Keyword, ¬Token.spells keyword.names head.into := by
    intro keyword named
    have same := List.mem_singleton.mp head.intoWord
    unfold Token.spells at named
    rw [same] at named
    cases keyword <;> exact absurd named (by decide)
  apply Passes.append (Blanks.passes head.insertBlanks start _)
  apply Passes.append (Name.passes (.word filled words other) _ ?_)
  · apply Passes.append (Blanks.passes head.intoBlanks _ _)
    exact head.tableName.passes _ apart
  · rw [List.append_assoc]
    exact head.intoBlanks.apart fun empty => absurd empty head.intoApart

theorem target_apart (head : Head) (rest : Bytes) :
    (head.target ++ rest).head?.any Ascii.isWord = false := by
  rw [target, List.append_assoc]
  exact head.insertBlanks.apart fun empty => absurd empty head.insertApart

theorem closing_reads (head : Head) (start : Nat) :
    ∃ before place later, Reads rawBackslash start
        (head.columns ++ (head.values ++ head.valuesGap)) []
        (before ++ (.word place head.values :: later)) ∧
      (∀ token ∈ before, Within [] token) ∧ (∀ front, Free (front ++ before)) ∧
      ∀ token ∈ later, token.isBlank = true := by
  obtain ⟨filled, words⟩ := spells_words head.valuesWord (by decide +kernel)
  obtain ⟨before, columns, within, free⟩ := head.columnNames.frees start (_ ++ [])
  have values := @reads_word rawBackslash _ (head.valuesGap ++ []) filled words
    (start + head.columns.length) (head.valuesBlanks.apart fun _ => rfl)
  obtain ⟨later, gap, blank⟩ := passes_blanks head.valuesBlanks _ []
  exact ⟨before, _, later, columns.append (values.append gap), within, free, blank⟩

-- Up to VALUES nothing opens a tuple, and VALUES is free.
theorem reads (head : Head) (rawBackslash : Bool) :
    finalContext rawBackslash head.text = .plain ∧ ∃ front place later,
      Token.ofText rawBackslash head.text = front ++ .word place head.values :: later ∧
      (∀ token ∈ front, Within [.insert] token) ∧ Free front ∧
      (front.find? Token.isSignificant).bind Token.keyword? = some .insert ∧
      ∀ token ∈ later, token.isBlank = true := by
  obtain ⟨before, place, later, closing, silent, free, blank⟩ :=
    @closing_reads rawBackslash head (head.opening.length + head.target.length)
  have listed : ((head.columns ++ (head.values ++ head.valuesGap)) ++ []).head?.any
      Ascii.isWord = false := by
    rw [List.append_assoc]
    exact head.columnNames.apart _
  have aimed : ((head.target ++ (head.columns ++ (head.values ++ head.valuesGap))) ++ []).head?.any
      Ascii.isWord = false := by
    rw [List.append_assoc]
    exact head.target_apart _
  obtain ⟨first, opening, within, insert⟩ := @opening_reads rawBackslash _ head aimed
  obtain ⟨second, target, quiet⟩ := @target_passes rawBackslash _ head head.opening.length listed
  rw [← Nat.zero_add head.opening.length] at target closing
  obtain ⟨tokens, ends⟩ := (opening.append (target.append closing)).alone
  refine ⟨ends, first ++ second ++ before, place, later, ?_, ?_, free _, ?_, blank⟩
  · rw [text, tokens]
    simp
  · intro token member
    rcases List.mem_append.mp member with early | late
    · rcases List.mem_append.mp early with opens | aims
      · exact within token opens
      · exact (quiet token aims).mono (by simp)
    · exact (silent token late).mono (by simp)
  · rw [List.append_assoc]
    exact Token.first_append insert _

theorem within (head : Head) (rawBackslash : Bool) :
    ∀ token ∈ Token.ofText rawBackslash head.text, Within [.insert, .values] token := by
  obtain ⟨_, front, place, later, tokens, within, _, _, blank⟩ := head.reads rawBackslash
  intro token member
  rw [tokens] at member
  rcases List.mem_append.mp member with early | late
  · exact (within token early).mono (by simp)
  · rcases List.mem_cons.mp late with rfl | gap
    · have named : Token.spells Keyword.values.names head.values := head.valuesWord
      exact (within_named named).mono (by simp)
    · cases token with
      | blank start byte => exact within_blank start byte
      | word start text | sign start byte | turn lexeme => cases blank _ gap

theorem heads (head : Head) (rawBackslash : Bool) :
    Classification.Heads rawBackslash head.text := by
  obtain ⟨ends, front, place, later, tokens, within, free, insert, blank⟩ :=
    head.reads rawBackslash
  refine ⟨⟨ends, ?_⟩, ?_, ?_, ?_⟩
  · intro rest
    have skip := Classification.openTuple?_skip within (by simp) []
      (.word place head.values ::
        (later ++ .sign head.text.length Ascii.openParen :: rest))
    rw [List.nil_append, Classification.openTuple?_here free head.valuesWord blank] at skip
    rw [tokens, List.append_assoc]
    exact skip
  · rw [← Token.marks_ofLexemes]
    exact Token.marks_within (head.within rawBackslash)
  · rw [Outline.ofText, ← Token.any_semicolon]
    exact Token.whole_within (head.within rawBackslash)
  · rw [tokens]
    exact Token.first_append insert _

end Head
end Grammar
end InsertBatch
