import InsertBatch.Ascii

namespace InsertBatch

-- SQL text as its UTF-8 bytes. Offsets, lengths and packet sizes count bytes.
abbrev Bytes := List UInt8

namespace Bytes

def ofString (text : String) : Bytes := text.toUTF8.data.toList

-- None when the bytes are not UTF-8.
def toString? (bytes : Bytes) : Option String := String.fromUTF8? ⟨bytes.toArray⟩

-- For bytes that came from text. Others have no text.
def toText (bytes : Bytes) : String := bytes.toString?.getD ""

-- The bytes from `start` up to `stop`, `stop` excluded.
def slice (bytes : Bytes) (start stop : Nat) : Bytes := (bytes.take stop).drop start

def join (separator : Bytes) (texts : List Bytes) : Bytes := (texts.intersperse separator).flatten

-- Length of the identifier at the front.
def wordLength (bytes : Bytes) : Nat := (bytes.takeWhile Ascii.isWord).length

-- Length of the ASCII blanks at the front.
def blankLength (bytes : Bytes) : Nat := (bytes.takeWhile Ascii.isBlank).length

end Bytes
end InsertBatch
