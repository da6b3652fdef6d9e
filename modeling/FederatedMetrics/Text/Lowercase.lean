import FederatedMetrics.Text.CaseTable

/-!
# Lower case

Lower case is the full Unicode mapping. One character grows, the dotted capital I, and one depends
on its neighbours: a capital sigma at the end of a word becomes the final form.
-/

namespace FederatedMetrics.Text

/-- The distance from a code point to its lower case, if the range covers it. -/
def CaseRange.shiftOf? (range : CaseRange) (code : Nat) : Option Int :=
  if range.first ≤ code ∧ code ≤ range.last ∧ (code - range.first) % range.stride = 0 then
    some range.shift
  else none

/-- The simple lower case of a character, which is the character itself for most. -/
def lowerChar (c : Char) : Char :=
  match caseRanges.findSome? (·.shiftOf? c.toNat) with
  | some shift => Char.ofNat (c.toNat + shift).toNat
  | none => c

def isCased (c : Char) : Bool := inRanges casedRanges c.toNat

def isCaseIgnorable (c : Char) : Bool := inRanges caseIgnorableRanges c.toNat

/-- Whether the first character that is not ignorable is cased. -/
def meetsCased (cs : List Char) : Bool :=
  match cs.dropWhile isCaseIgnorable with
  | [] => false
  | c :: _ => isCased c

/-- The capital sigma, the only letter whose lower case depends on its place. -/
def capitalSigma : Char := Char.ofNat 0x3A3

/-- The capital I with a dot, the only letter whose lower case has two characters. -/
def dottedCapitalI : Char := Char.ofNat 0x130

/-- The lower case of a character between the text before it, in reverse, and the text after. -/
def lowerAt (before : List Char) (c : Char) (after : List Char) : List Char :=
  if c = capitalSigma then
    if meetsCased before && !meetsCased after then [Char.ofNat 0x3C2] else [Char.ofNat 0x3C3]
  else if c = dottedCapitalI then ['i', Char.ofNat 0x307]
  else [lowerChar c]

/-- The lower case of the second text, which stands after the first; that one is in reverse. -/
def lowerFrom (before : List Char) : List Char → List Char
  | [] => []
  | c :: after => lowerAt before c after ++ lowerFrom (c :: before) after

def lowerChars (cs : List Char) : List Char := lowerFrom [] cs

def lower (s : String) : String := String.ofList (lowerChars s.toList)

@[simp] theorem lowerFrom_nil (before : List Char) : lowerFrom before [] = [] := rfl

theorem lowerFrom_cons (before after : List Char) (c : Char) :
    lowerFrom before (c :: after) = lowerAt before c after ++ lowerFrom (c :: before) after := rfl

end FederatedMetrics.Text
