namespace InsertBatch.Text

-- The parts between separators, one more than there are separators.
def fields (separator : Char) (chars : List Char) : List (List Char) :=
  chars.foldr (fun c found =>
    match found with
    | field :: rest => if c = separator then [] :: field :: rest else (c :: field) :: rest
    | [] => [[c]]) [[]]

end InsertBatch.Text
