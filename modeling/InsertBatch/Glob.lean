namespace InsertBatch.Glob

-- Patterns as the glob library (0.3) documents them. It is not part of this program; that it
-- reads and matches them like this is assumed.

-- A member of a bracketed class.
inductive Member where
  | single (c : Char)
  | range (first last : Char)
deriving DecidableEq, Repr

-- `anyComponents` is a double star: whole path components, or none.
inductive Token where
  | literal (c : Char)
  | anyChar
  | anySequence
  | anyComponents
  | within (members : List Member)
  | except (members : List Member)
deriving DecidableEq, Repr

-- A dash between two characters makes a range. At either end it stands for itself.
def members : List Char → List Member
  | first :: '-' :: last :: rest => .range first last :: members rest
  | c :: rest => .single c :: members rest
  | [] => []

-- Up to a closing bracket and past it.
def untilBracket? : List Char → Option (List Char × List Char)
  | [] => none
  | c :: rest =>
    if c = ']' then some ([], rest)
    else (untilBracket? rest).map fun (body, after) => (c :: body, after)

theorem untilBracket?_shorter (closed : untilBracket? chars = some (body, after)) :
    after.length < chars.length := by
  induction chars generalizing body with
  | nil => simp [untilBracket?] at closed
  | cons c rest ih =>
    simp only [untilBracket?] at closed
    split at closed
    · cases closed; exact Nat.lt_succ_self _
    · obtain ⟨⟨inner, remaining⟩, found, equal⟩ := Option.map_eq_some_iff.mp closed
      cases equal
      exact Nat.lt_succ_of_lt (ih found)

-- What follows an opening bracket. The first character of a class belongs to it
-- even if it is a closing bracket.
def classOf? : List Char → Option (Token × List Char)
  | '!' :: first :: rest =>
    (untilBracket? rest).map fun (body, after) => (.except (members (first :: body)), after)
  | '!' :: [] => none
  | first :: rest =>
    (untilBracket? rest).map fun (body, after) => (.within (members (first :: body)), after)
  | [] => none

theorem classOf?_shorter (read : classOf? chars = some (token, after)) :
    after.length < chars.length := by
  unfold classOf? at read
  split at read
  · obtain ⟨⟨body, remaining⟩, found, equal⟩ := Option.map_eq_some_iff.mp read
    cases equal
    have shorter := untilBracket?_shorter found
    simp only [List.length_cons]
    omega
  · cases read
  · obtain ⟨⟨body, remaining⟩, found, equal⟩ := Option.map_eq_some_iff.mp read
    cases equal
    exact Nat.lt_succ_of_lt (untilBracket?_shorter found)
  · cases read

-- None for a pattern that is not well formed: a double star that is not a whole
-- component, three stars, or a class that is not closed. `fresh` tells whether a
-- component starts here.
def parseFrom? (fresh : Bool) (chars : List Char) : Option (List Token) :=
  match chars with
  | [] => some []
  | '?' :: rest => (parseFrom? false rest).map (.anyChar :: ·)
  | '*' :: '*' :: rest =>
    if fresh then
      match rest with
      | [] => some [.anyComponents]
      | '/' :: rest => (parseFrom? true rest).map (.anyComponents :: ·)
      | _ => none
    else none
  | '*' :: rest => (parseFrom? false rest).map (.anySequence :: ·)
  | '[' :: rest =>
    match read : classOf? rest with
    | some (token, after) =>
      have _shorter := classOf?_shorter read
      (parseFrom? false after).map (token :: ·)
    | none => none
  | c :: rest => (parseFrom? (c = '/') rest).map (.literal c :: ·)
termination_by chars.length
decreasing_by all_goals (simp only [List.length_cons]; omega)

def parse? (pattern : String) : Option (List Token) := parseFrom? true pattern.toList

def Member.holds (c : Char) : Member → Bool
  | .single found => c == found
  | .range first last => first ≤ c && c ≤ last

-- Whether the token takes just this character.
def Token.accepts (token : Token) (c : Char) : Bool :=
  match token with
  | .literal found => c == found
  | .anyChar => true
  | .within members => members.any (Member.holds c)
  | .except members => !members.any (Member.holds c)
  | .anySequence | .anyComponents => false

-- A text is matched from its end. A flag for each rest of it, itself first and the
-- empty one last, tells whether the tokens so far match that rest.

-- Whether the rest or a shorter one is flagged.
def orShorter : List Bool → List Bool
  | [] => []
  | flag :: flags =>
    let shorter := orShorter flags
    (flag || shorter.headD false) :: shorter

-- Whether a shorter rest is flagged that starts a component. The empty rest counts
-- as one, also for itself.
def componentBelow : List Char → List Bool → List Bool
  | c :: chars, _ :: flags =>
    let shorter := componentBelow chars flags
    ((c = '/' && flags.headD false) || shorter.headD false) :: shorter
  | _, flags => flags

-- One more token in front.
def Token.extend (chars : List Char) (token : Token) (flags : List Bool) : List Bool :=
  match token with
  | .anySequence => orShorter flags
  | .anyComponents => List.zipWith or flags (componentBelow chars flags)
  | _ => List.zipWith and (chars.map token.accepts) flags.tail ++ [false]

-- No tokens match the empty rest alone.
def matchTokens (tokens : List Token) (chars : List Char) : Bool :=
  (tokens.foldr (Token.extend chars) (chars.map (fun _ => false) ++ [true])).headD false

end InsertBatch.Glob
