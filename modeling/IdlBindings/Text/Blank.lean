/-!
Blank characters are those with the Unicode property White_Space. Wherever a
name or a line is asked for, a text of blank characters counts as no text.
-/

namespace IdlBindings.Text

/-- The code points with the property White_Space, as inclusive ranges. -/
def blankRanges : List (Nat × Nat) :=
  [(0x9, 0xd), (0x20, 0x20), (0x85, 0x85), (0xa0, 0xa0), (0x1680, 0x1680), (0x2000, 0x200a),
    (0x2028, 0x2029), (0x202f, 0x202f), (0x205f, 0x205f), (0x3000, 0x3000)]

def isBlankChar (c : Char) : Bool :=
  blankRanges.any fun range => range.1 ≤ c.toNat && c.toNat ≤ range.2

/-- Nothing but blank characters; the empty text is blank. -/
def isBlank (text : String) : Bool :=
  text.toList.all isBlankChar

/-- The characters between the blank ones at both ends. -/
def trim (chars : List Char) : List Char :=
  ((chars.dropWhile isBlankChar).reverse.dropWhile isBlankChar).reverse

end IdlBindings.Text
