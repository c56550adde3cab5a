import InsertBatch.Toml.Scalar

namespace InsertBatch.Toml

-- A table that starts with this key stands for the date or time that its text gives. The
-- toml library (0.8) passes dates on like this, and is assumed to refuse other texts there.
def dateKey : String := "$__toml_private_datetime"

-- Behind a time: nothing, the letter Z, or up to a day in hours and minutes, either
-- of which may be as large as two digits allow.
def isOffsetText : List Char → Bool
  | [] => true
  | sign :: rest =>
    if sign = 'Z' || sign = 'z' then rest.isEmpty
    else if sign = '+' || sign = '-' then
      ((do
        let (hours, rest) ← fixed? 2 0 99 rest
        let rest ← expect? ':' rest
        let (minutes, rest) ← fixed? 2 0 99 rest
        return rest.isEmpty && hours * 60 + minutes ≤ 1440) : Option Bool).getD false
    else false

-- A date, a time without an offset, or both. Looser than a value of the document:
-- hour 24 is allowed.
def isDateText (chars : List Char) : Bool :=
  match chars with
  | _ :: _ :: ':' :: _ => timeUpTo? 24 chars == some []
  | _ =>
    match date? chars with
    | none => false
    | some [] => true
    | some (c :: rest) =>
      (c = 'T' || c = 't' || c = ' ') && (timeUpTo? 24 rest).any isOffsetText

def startsWithDateKey (entries : Table) : Bool := entries.head?.any (·.1 == dateKey)

-- The date of a table that starts with the key. Its other entries are not looked at.
def dateOf? : Table → Option Value
  | (_, .string text) :: _ => if isDateText text.toList then some .datetime else none
  | _ => none

mutual

-- The value with dates in place of the tables that stand for them. None if such a
-- table gives no date.
def settle? : Value → Option Value
  | .array items => (settleItems? items).map .array
  | .table entries =>
    if startsWithDateKey entries then dateOf? entries else (settleEntries? entries).map .table
  | value => some value

def settleItems? : List Value → Option (List Value)
  | [] => some []
  | item :: rest =>
    match settle? item, settleItems? rest with
    | some item, some rest => some (item :: rest)
    | _, _ => none

def settleEntries? : List (String × Value) → Option (List (String × Value))
  | [] => some []
  | (key, value) :: rest =>
    match settle? value, settleEntries? rest with
    | some value, some rest => some ((key, value) :: rest)
    | _, _ => none

end

end InsertBatch.Toml
