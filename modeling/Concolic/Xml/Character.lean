/-
# Characters of XML

Which characters a document may hold, and which of them make up names.
-/

namespace Concolic.Xml

/-- May a document hold the character? -/
def isAllowed (c : Char) : Bool :=
  if c.val < 0x20 then c = '\t' || c = '\n' || c = '\r' else c.val != 0xfffe && c.val != 0xffff

/-- Is the character white space between the parts of a tag? -/
def isSpace (c : Char) : Bool := c = ' ' || c = '\t' || c = '\n' || c = '\r'

/-- The ranges of characters beyond ASCII that a name may start with. -/
def nameStartRanges : List (UInt32 × UInt32) :=
  [(0xc0, 0xd6), (0xd8, 0xf6), (0xf8, 0x2ff), (0x370, 0x37d), (0x37f, 0x1fff),
    (0x200c, 0x200d), (0x2070, 0x218f), (0x2c00, 0x2fef), (0x3001, 0xd7ff), (0xf900, 0xfdcf),
    (0xfdf0, 0xfffd), (0x10000, 0xeffff)]

/-- The ranges of characters beyond ASCII that only the rest of a name may hold. -/
def nameRestRanges : List (UInt32 × UInt32) :=
  [(0xb7, 0xb7), (0x300, 0x36f), (0x203f, 0x2040)]

/-- Does a character lie in one of the ranges? -/
def inRanges (ranges : List (UInt32 × UInt32)) (c : Char) : Bool :=
  ranges.any fun r => r.1 ≤ c.val && c.val ≤ r.2

/-- May a name start with the character? -/
def isNameStart (c : Char) : Bool :=
  c.isAlpha || c = ':' || c = '_' || inRanges nameStartRanges c

/-- May a name go on with the character? -/
def isNameRest (c : Char) : Bool :=
  isNameStart c || c.isDigit || c = '-' || c = '.' || inRanges nameRestRanges c

end Concolic.Xml
