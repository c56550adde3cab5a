import InsertBatch.Text.CaseData

namespace InsertBatch.Text

def simpleLower (c : Char) : Char :=
  match lowercaseRows.find? fun (first, last, step, _) =>
      first ≤ c.toNat && c.toNat ≤ last && (c.toNat - first) % step == 0 with
  | some (_, _, _, added) => Char.ofNat (c.toNat + added).toNat
  | none => c

-- Whether a cased character comes first once case-ignorable ones are skipped.
def casedFirst (chars : List Char) : Bool :=
  ((chars.dropWhile (inRuns caseIgnorableRuns)).head?.map (inRuns casedRuns)).getD false

-- `before` is what precedes, last character first. A capital sigma at the end of a
-- word becomes the final form.
def lowerAfter (before : List Char) : List Char → List Char
  | [] => []
  | c :: rest =>
    let lower :=
      if c = '\u0130' then ['i', '\u0307']
      else if c = '\u03a3' then
        [if casedFirst before && !casedFirst rest then '\u03c2' else '\u03c3']
      else [simpleLower c]
    lower ++ lowerAfter (c :: before) rest

-- Full Unicode lowercase, which may change the number of characters.
def lowercase (text : String) : String := String.ofList (lowerAfter [] text.toList)

end InsertBatch.Text
