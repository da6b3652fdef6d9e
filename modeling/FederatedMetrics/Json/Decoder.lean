import FederatedMetrics.Json.Reader

/-!
# Decoding JSON documents

A decoder reads a document at a given nesting allowance: the number of arrays and objects that may
still be entered on the way down. What is skipped does not count. A record is read from an object by
field name, where every field may have further names and no field may be given twice, or from an
array by position. A document with several faults is refused for the first of them.
-/

namespace FederatedMetrics.Json

/-- Why a document is refused. A `mismatch` has another shape than the one asked for. A document is
`malformed` where the reading of its text itself gives up: the text breaks off, it nests too deeply,
a literal has no value, an array has items after the last field, or a choice is not given by name. -/
inductive DecodeError where
  | mismatch
  | malformed
deriving DecidableEq, Repr

/-- A decoder of documents under a nesting allowance. -/
abbrev Decoder (α : Type) := Nat → Document → Except DecodeError α

variable {α β : Type}

/-- The arrays and objects that may be entered at the top of a document. -/
def maxNesting : Nat := 127

/-- The refusal of a document that has another shape. The inside of arrays and objects does not
matter then. -/
def refuse : Document → Except DecodeError α
  | .noValue => .error .malformed
  | .broken => .error .malformed
  | _ => .error .mismatch

/-- The refusal of a document when nothing more may be entered. -/
def tooDeep : Document → Except DecodeError α
  | .arr _ => .error .malformed
  | .obj _ => .error .malformed
  | .keyless _ => .error .malformed
  | document => refuse document

/-- The refusal of a document where nothing but an object with keys may be entered. -/
def refuseKeyless : Document → Except DecodeError α
  | .keyless _ => .error .malformed
  | document => refuse document

def nothing : Decoder Unit
  | _, .null => .ok ()
  | _, document => refuse document

def text : Decoder String
  | _, .str s => .ok s
  | _, document => refuse document

def flag : Decoder Bool
  | _, .bool b => .ok b
  | _, document => refuse document

/-- An integer literal of 64 bits with sign. -/
def int64 : Decoder Int
  | _, .int n => if -Int.pow 2 63 ≤ n ∧ n < Int.pow 2 63 then .ok n else .error .mismatch
  | _, document => refuse document

/-- A text in a form that a reader checks. -/
def parsed (read : String → Option α) : Decoder α := fun nesting document => do
  let s ← text nesting document
  (read s).elim (.error .mismatch) .ok

def nullable (decode : Decoder α) : Decoder (Option α)
  | _, .null => .ok none
  | nesting, document => (decode nesting document).map some

def listOf (decode : Decoder α) : Decoder (List α)
  | nesting + 1, .arr items => items.mapM (decode nesting)
  | 0, .arr _ => .error .malformed
  | _, document => refuse document

/-- The thing of a name. -/
def named (names : List (String × α)) (name : String) : Except DecodeError α :=
  (names.lookup name).elim (.error .mismatch) .ok

/-- One of several named things, also in the form of an object with the name as its key and null as
its value. -/
def choice (names : List (String × α)) : Decoder α
  | _, .str s => named names s
  | nesting + 1, .obj ((some s, value) :: rest) => do
      let x ← named names s
      nothing nesting value
      if rest.isEmpty then return x else throw .malformed
  | _ + 1, .keyless found => refuse found
  | _, _ => .error .malformed

mutual

/-- Any value, with its objects in canonical order. -/
def anyValue : Decoder Json
  | _, .null => .ok .null
  | _, .bool value => .ok (.bool value)
  | _, .int value => .ok (.int value)
  | _, .float value => .ok (.float value)
  | _, .str text => .ok (.str text)
  | nesting, .arr items =>
      match nesting with
      | 0 => .error .malformed
      | nesting + 1 => (anyItems nesting items).map .arr
  | nesting, .obj entries =>
      match nesting with
      | 0 => .error .malformed
      | nesting + 1 => (anyEntries nesting entries).map fun es => .obj (sortEntries es)
  | _, .noValue => .error .malformed
  | _, .keyless _ => .error .malformed
  | _, .broken => .error .malformed

def anyItems : Nat → List Document → Except DecodeError (List Json)
  | _, [] => .ok []
  | nesting, item :: rest => do
      let item ← anyValue nesting item
      let rest ← anyItems nesting rest
      return item :: rest

def anyEntries : Nat → List (Option String × Document) → Except DecodeError (List (String × Json))
  | _, [] => .ok []
  | _, (none, _) :: _ => .error .malformed
  | nesting, (some key, value) :: rest => do
      let value ← anyValue nesting value
      let rest ← anyEntries nesting rest
      return (key, value) :: rest

end

/-- An object with any values, in canonical order. -/
def anyObject : Decoder (List (String × Json))
  | nesting + 1, .obj entries => (anyEntries nesting entries).map sortEntries
  | 0, .obj _ => .error .malformed
  | _, document => refuseKeyless document

/-! ## Records -/

/-- What comes of reading fields: a value, or the fault that stands first, with its place in the
record. -/
inductive FieldResult (α : Type) where
  | value (x : α)
  | fault (place : Nat) (error : DecodeError)

namespace FieldResult

def map (f : α → β) : FieldResult α → FieldResult β
  | .value x => .value (f x)
  | .fault place error => .fault place error

/-- Of two faults the one that stands first counts, and the left one of two at the same place. -/
def apply : FieldResult (α → β) → FieldResult α → FieldResult β
  | .value f, result => result.map f
  | .fault place error, .value _ => .fault place error
  | .fault place error, .fault place' error' =>
      if place' < place then .fault place' error' else .fault place error

instance : Applicative FieldResult where
  pure := .value
  seq f x := f.apply (x ())

/-- Take a fault at a place into account. -/
def withFault (result : FieldResult α) (error : DecodeError) : Option Nat → FieldResult α
  | none => result
  | some place => (result.map fun x _ => x).apply (.fault place error : FieldResult Unit)

def toExcept : FieldResult α → Except DecodeError α
  | .value x => .ok x
  | .fault _ error => .error error

theorem apply_eq_value_iff {f : FieldResult (α → β)} {result : FieldResult α} {y : β} :
    f.apply result = .value y ↔ ∃ g x, f = .value g ∧ result = .value x ∧ g x = y := by
  cases f with
  | value g => cases result <;> simp [apply, map]
  | fault place error =>
      cases result with
      | value x => simp [apply]
      | fault place' error' => by_cases h : place' < place <;> simp [apply, h]

end FieldResult

/-- What a record is read from: the entries of an object, or the items of an array, which have no
keys, with the nesting allowance inside. -/
structure Fields where
  named : Bool
  entries : List (Option String × Document)
  nesting : Nat

namespace Fields

/-- The documents given for the field at a position or under one of its names, with their places. -/
def given (f : Fields) (position : Nat) (names : List String) : List (Nat × Document) :=
  if f.named then
    (f.entries.zipIdx.filter fun entry => entry.1.1.any names.contains).map fun entry =>
      (entry.2, entry.1.2)
  else (f.entries[position]?.map fun entry => (position, entry.2)).toList

/-- Read a field, which may be given once. -/
def read (f : Fields) (position : Nat) (names : List String) (decode : Decoder α)
    (absent : FieldResult α) : FieldResult α :=
  match f.given position names with
  | [] => absent
  | (place, document) :: repeated =>
      match decode f.nesting document with
      | .error error => .fault place error
      | .ok x => (FieldResult.value x).withFault .mismatch (repeated.head?.map (·.1))

/-- A field that has to be given; that it is not shows at the end of the record. -/
def required (f : Fields) (position : Nat) (names : List String) (decode : Decoder α) :
    FieldResult α :=
  f.read position names decode (.fault f.entries.length .mismatch)

/-- A field with a value of its own when it is not given. -/
def withDefault (f : Fields) (position : Nat) (names : List String) (decode : Decoder α)
    (otherwise : α) : FieldResult α :=
  f.read position names decode (.value otherwise)

/-- The first place with a fault of its own: a key without value, a text that breaks off, or an item
after the last field. -/
def faultPlace? (f : Fields) (arity : Nat) : Option Nat :=
  if f.named then f.entries.findIdx? fun entry => entry.1.isNone || !entry.2.isWhole
  else if f.entries.length ≤ arity then none
  else some arity

end Fields

/-- A record with a number of fields. -/
def record (arity : Nat) (read : Fields → FieldResult α) : Decoder α
  | nesting + 1, .obj entries => finish ⟨true, entries, nesting⟩
  | nesting + 1, .arr items => finish ⟨false, items.map (none, ·), nesting⟩
  | _, document => tooDeep document
where
  finish (f : Fields) : Except DecodeError α :=
    ((read f).withFault .malformed (f.faultPlace? arity)).toExcept

/-! ## Whole texts -/

/-- Decode a value. -/
def decode (decoder : Decoder α) (value : Json) : Except DecodeError α :=
  decoder maxNesting (Document.ofJson value)

/-- Decode a text. That something follows its document is a fault behind all others. -/
def decodeText (decoder : Decoder α) (s : String) : Except DecodeError α := do
  let (document, isAlone) := Document.ofText s
  let x ← decoder maxNesting document
  if isAlone then return x else throw .malformed

/-- The value that a whole text denotes, with its objects in canonical order. -/
def ofText? (s : String) : Option Json :=
  let (document, isAlone) := Document.ofText s
  if isAlone then (anyValue s.length document).toOption else none

end FederatedMetrics.Json
