/-!
# Media types

The body of a request is JSON when its media type says so: `application/json`, or a subtype with the
ending `+json`. Parameters may follow but have to be well formed.
-/

namespace FederatedMetrics.Http

/-- The characters of names in a media type. -/
def isTokenChar (c : Char) : Bool :=
  c.isAlphanum || "!#$%&'*+-.^_|~".toList.contains c || c.toNat = 96

/-- What may stand between quotes. -/
def isQuotedChar (c : Char) : Bool := 31 < c.toNat && c.toNat < 127

/-- Where the reader of a parameter list is. The flag of `quoted` says that nothing has been read
there. -/
inductive ParameterPart where
  | before
  | name
  | valueStart
  | value
  | quoted (isEmpty : Bool)
  | behind
deriving DecidableEq, Repr

/-- Whether a list of parameters is well formed from some part of it on. Nothing has to follow
a semicolon, and a quote does not close a value in which nothing has been read. -/
def parametersFrom : ParameterPart → List Char → Bool
  | .before, [] => true
  | .name, [] => false
  | .valueStart, [] => true
  | .value, [] => true
  | .quoted _, [] => false
  | .behind, [] => true
  | .before, c :: rest =>
      if c = ' ' then parametersFrom .before rest
      else isTokenChar c && parametersFrom .name rest
  | .name, c :: rest =>
      if c = '=' then parametersFrom .valueStart rest
      else isTokenChar c && parametersFrom .name rest
  | .valueStart, c :: rest =>
      if c = '\"' then parametersFrom (.quoted true) rest
      else isTokenChar c && parametersFrom .value rest
  | .value, c :: rest =>
      if c = ';' then parametersFrom .before rest
      else isTokenChar c && parametersFrom .value rest
  | .quoted isEmpty, c :: rest =>
      if c = '\"' && !isEmpty then parametersFrom .behind rest
      else isQuotedChar c && parametersFrom (.quoted false) rest
  | .behind, c :: rest =>
      if c = ';' then parametersFrom .before rest
      else c = ' ' && parametersFrom .behind rest

/-- A subtype in front of its last plus sign and behind it; a plus sign at the front does not
count. -/
def splitSuffix (subtype : List Char) : List Char × Option (List Char) :=
  let suffix := (subtype.reverse.takeWhile (· ≠ '+')).reverse
  let name := subtype.take (subtype.length - suffix.length - 1)
  if name.isEmpty then (subtype, none) else (name, some suffix)

/-- Whether a subtype stands for JSON, by its name or by its suffix. -/
def isJsonSubtype (subtype : List Char) : Bool :=
  let (name, suffix) := splitSuffix (subtype.map Char.toLower)
  name = "json".toList || suffix = some "json".toList

/-- Whether a media type stands for JSON. -/
def isJsonType (mediaType : String) : Bool :=
  let cs := mediaType.toList
  let kind := cs.takeWhile (· ≠ '/')
  let rest := (cs.dropWhile (· ≠ '/')).drop 1
  let subtype := rest.takeWhile (· ≠ ';')
  let parameters := (rest.dropWhile (· ≠ ';')).drop 1
  kind.map Char.toLower = "application".toList && !subtype.isEmpty && subtype.all isTokenChar
    && isJsonSubtype subtype && parametersFrom .before parameters

example : isJsonType "application/json; charset=utf-8" = true := by decide +kernel

example : isJsonType "application/vnd.api+json" = true := by decide +kernel

example : isJsonType "text/json" = false := by decide +kernel

end FederatedMetrics.Http
