/-!
# Blank characters

A character is blank when it has the Unicode property `White_Space`. Trimming, splitting into
words and the checks on names all use this one set.
-/

namespace FederatedMetrics.Text

/-- The code points with the property `White_Space`, as inclusive ranges. -/
def blankRanges : List (Nat × Nat) :=
  [(0x9, 0xD), (0x20, 0x20), (0x85, 0x85), (0xA0, 0xA0), (0x1680, 0x1680), (0x2000, 0x200A),
    (0x2028, 0x2029), (0x202F, 0x202F), (0x205F, 0x205F), (0x3000, 0x3000)]

/-- Whether a code point lies in one of the ranges. -/
def inRanges (ranges : List (Nat × Nat)) (code : Nat) : Bool :=
  ranges.any fun range => range.1 ≤ code && code ≤ range.2

def isBlank (c : Char) : Bool := inRanges blankRanges c.toNat

/-- Drop the blank characters on both sides. -/
def trimChars (cs : List Char) : List Char :=
  ((cs.dropWhile isBlank).reverse.dropWhile isBlank).reverse

/-- Drop the blank characters on both sides of a text. -/
def trim (s : String) : String := String.ofList (trimChars s.toList)

def hasBlank (s : String) : Bool := s.toList.any isBlank

/-- A text is blank when it holds nothing but blank characters. -/
def isBlankText (s : String) : Bool := s.toList.all isBlank

/-- The maximal runs of characters that are not blank, after a run that has begun and is held in
reverse. -/
def wordsFrom (begun : List Char) : List Char → List (List Char)
  | [] => if begun.isEmpty then [] else [begun.reverse]
  | c :: rest =>
      if isBlank c then
        if begun.isEmpty then wordsFrom [] rest else begun.reverse :: wordsFrom [] rest
      else wordsFrom (c :: begun) rest

/-- The maximal runs of characters that are not blank, in order. -/
def words (cs : List Char) : List (List Char) := wordsFrom [] cs

/-- Whether the first text occurs somewhere in the second. -/
def occursIn (part : List Char) : List Char → Bool
  | [] => part.isEmpty
  | c :: rest => part.isPrefixOf (c :: rest) || occursIn part rest

/-- The part of ASCII upper case becomes lower case, all else stays. -/
def asciiLower (s : String) : String := s.map Char.toLower

example : words " a  b ".toList = [['a'], ['b']] := by decide

example : occursIn "bc".toList "abcd".toList = true := by decide

end FederatedMetrics.Text
