namespace InsertBatch.Packing

-- Items are packed in order. A group costs `fixed`, the sizes of its items and one
-- for each separator between two of them. The open group is closed when the next
-- item would take it past `limit`; an item that alone is too large stays alone.

-- The rest of the open group, which costs `length` so far and has an item already,
-- and the groups behind it.
def packFrom (fixed limit : Nat) (size : α → Nat) (length : Nat) :
    List α → List α × List (List α)
  | [] => ([], [])
  | item :: rest =>
    if limit < length + 1 + size item then
      let (group, groups) := packFrom fixed limit size (fixed + size item) rest
      ([], (item :: group) :: groups)
    else
      let (group, groups) := packFrom fixed limit size (length + 1 + size item) rest
      (item :: group, groups)

def pack (fixed limit : Nat) (size : α → Nat) : List α → List (List α)
  | [] => []
  | item :: rest =>
    let (group, groups) := packFrom fixed limit size (fixed + size item) rest
    (item :: group) :: groups

end InsertBatch.Packing
