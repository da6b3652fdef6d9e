import FederatedMetrics.Json.Reader
import FederatedMetrics.Json.Decoder

/-!
# Identifiers

Stored entities carry identifiers of 128 bits. They are written as groups of hexadecimal digits, and
the reader takes several other forms.
-/

namespace FederatedMetrics

/-- An identifier of 128 bits. -/
structure Uuid where
  bits : BitVec 128
deriving DecidableEq, Repr

namespace Uuid

/-- The lower case hexadecimal digits from the highest of a count of places. -/
def hexDigits (n : Nat) : Nat → List Char
  | 0 => []
  | places + 1 => digit (n / Nat.pow 16 places % 16) :: hexDigits n places
where
  digit (d : Nat) : Char :=
    if d < 10 then Char.ofNat ('0'.toNat + d) else Char.ofNat ('a'.toNat + (d - 10))

/-- Hexadecimal digits in groups of 8, 4, 4, 4 and 12. -/
def text (id : Uuid) : String :=
  let digits := hexDigits id.bits.toNat 32
  let group (start size : Nat) := (digits.drop start).take size
  String.ofList (group 0 8 ++ '-' :: group 8 4 ++ '-' :: group 12 4 ++ '-' :: group 16 4
    ++ '-' :: group 20 12)

/-- The value of hexadecimal digits in either case. -/
def ofHex? (cs : List Char) : Option Uuid :=
  (cs.mapM Json.Reader.hexValue?).map fun ds => ⟨BitVec.ofNat 128 (ds.foldl (fun n d => n * 16 + d) 0)⟩

/-- Five groups of digits with hyphens between them. -/
def ofGroups? (cs : List Char) : Option Uuid :=
  if cs.length = 36 ∧ cs[8]? = some '-' ∧ cs[13]? = some '-' ∧ cs[18]? = some '-'
      ∧ cs[23]? = some '-' then
    ofHex? (cs.take 8 ++ (cs.drop 9).take 4 ++ (cs.drop 14).take 4 ++ (cs.drop 19).take 4
      ++ cs.drop 24)
  else none

/-- Read 32 digits, or grouped digits that may stand in braces or after the name of their space in
either case. -/
def ofText? (s : String) : Option Uuid :=
  let cs := s.toList
  if cs.length = 32 then ofHex? cs
  else if cs.length = 38 ∧ cs.head? = some '\x7b' ∧ cs.getLast? = some '\x7d' then
    ofGroups? (cs.drop 1).dropLast
  else if cs.length = 45 ∧ (cs.take 9).map Char.toLower = "urn:uuid:".toList then ofGroups? (cs.drop 9)
  else ofGroups? cs

def decode : Json.Decoder Uuid := Json.parsed ofText?

end Uuid

end FederatedMetrics
