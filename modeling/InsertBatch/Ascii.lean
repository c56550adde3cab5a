namespace InsertBatch.Ascii

-- The bytes to which SQL text gives a meaning of its own. Every byte of a
-- multi-byte character is 0x80 or above, so none of these ever occurs inside one.
abbrev tab : UInt8 := 0x09
abbrev newline : UInt8 := 0x0a
abbrev formFeed : UInt8 := 0x0c
abbrev carriageReturn : UInt8 := 0x0d
abbrev space : UInt8 := 0x20
abbrev doubleQuote : UInt8 := 0x22
abbrev hash : UInt8 := 0x23
abbrev dollar : UInt8 := 0x24
abbrev singleQuote : UInt8 := 0x27
abbrev openParen : UInt8 := 0x28
abbrev closeParen : UInt8 := 0x29
abbrev star : UInt8 := 0x2a
abbrev comma : UInt8 := 0x2c
abbrev dash : UInt8 := 0x2d
abbrev slash : UInt8 := 0x2f
abbrev semicolon : UInt8 := 0x3b
abbrev question : UInt8 := 0x3f
abbrev backslash : UInt8 := 0x5c
abbrev underscore : UInt8 := 0x5f
abbrev backtick : UInt8 := 0x60

-- Vertical tab is not a blank.
def isBlank (b : UInt8) : Bool :=
  b == space || b == tab || b == newline || b == formFeed || b == carriageReturn

def isUpper (b : UInt8) : Bool := 0x41 ≤ b && b ≤ 0x5a

def isLower (b : UInt8) : Bool := 0x61 ≤ b && b ≤ 0x7a

def isDigit (b : UInt8) : Bool := 0x30 ≤ b && b ≤ 0x39

-- The bytes of an unquoted identifier. All bytes of non-ASCII characters count.
def isWord (b : UInt8) : Bool :=
  isUpper b || isLower b || isDigit b || b == underscore || b == dollar || 0x80 ≤ b

def lower (b : UInt8) : UInt8 := if isUpper b then b + 0x20 else b

end InsertBatch.Ascii
