import FederatedMetrics.Category
import FederatedMetrics.Formula.Expr
import FederatedMetrics.Identifier

/-!
# Failures

Everything that can go wrong has a cause, a kind that decides about the status, and a message.
-/

namespace FederatedMetrics

/-- The kinds of failure that clients can tell apart. -/
inductive FailureKind where
  | invalidInput
  | conflict
  | notFound
  | executionFailure
  | databaseError
deriving DecidableEq, Repr

namespace FailureKind

def name : FailureKind → String
  | .invalidInput => "InvalidInput"
  | .conflict => "Conflict"
  | .notFound => "NotFound"
  | .executionFailure => "ExecutionFailure"
  | .databaseError => "DatabaseError"

def all : List FailureKind :=
  [.invalidInput, .conflict, .notFound, .executionFailure, .databaseError]

def ofName? (s : String) : Option FailureKind := all.find? fun kind => kind.name = s

/-- What a failure of the kind is called in front of its message. -/
def title : FailureKind → String
  | .invalidInput => "Invalid input"
  | .conflict => "Conflict"
  | .notFound => "Not found"
  | .executionFailure => "Execution failure"
  | .databaseError => "Database error"

/-- The status with which a request about stored entities ends. -/
def status : FailureKind → Nat
  | .invalidInput => 400
  | .conflict => 409
  | .notFound => 404
  | .executionFailure => 500
  | .databaseError => 500

/-- The status with which a query group ends. Names in a group are taken from lists of what exists,
so a missing entity is a fault of the server here. -/
def queryStatus : FailureKind → Nat
  | .notFound => 500
  | kind => kind.status

end FailureKind

/-- What is wrong with the body of a request: it is not marked as JSON, its text is no JSON, or it has
another shape than the one asked for. -/
inductive BodyFault where
  | contentType
  | text
  | shape
deriving DecidableEq, Repr

def BodyFault.message : BodyFault → String
  | .contentType => "<content-type>"
  | .text => "<syntax>"
  | .shape => "<decode>"

/-- The cause of a failure. -/
inductive Failure where
  /- formulas -/
  | formula (error : FormulaError)
  /- names and definitions that clients send -/
  | invalidZone (name : String)
  | invalidDisplayName
  | invalidProperties
  | mixedDataTypes
  | repeatedDisplayCategory
  | uncovered (mapping displayCategory : String)
  | noSubQueries
  | nestedDerived
  | notOneMetric (subQuery : String)
  | groupedSubQuery (subQuery : String)
  | invalidSubQueryNames
  | variablesDiffer (source : String)
  | invalidMetricName
  /- query groups -/
  | emptyGroup
  | noMetrics (displayCategory : String)
  | unnamedDerived
  | unlabelledDerived
  | invalidPropertyName (name : String)
  | scopedGlobalMapping (name : String)
  | unmappedGlobal
  | differentKeys
  /- other requests -/
  | unknownMetric (metric displayCategory : String)
  | missingPropertyName
  | missingCategory
  | invalidSetting (key value : String)
  | rejectedBody (fault : BodyFault)
  /- stored entities -/
  | nameTaken
  | mappingNotFound (name : String)
  | mappingIdNotFound (id : Uuid)
  | derivedNotFound (name : String)
  | derivedIdNotFound (id : Uuid)
  /- execution -/
  | noExecutor (category : Category)
  | executorFailed (category : Category) (displayCategory : String) (cause : Failure)
  | missingKeyColumns (displayCategory : String)
  | missingMetricColumn (subQuery : String)
  | malformedRow (subQuery : String)
  | tableCount (expected actual : Nat)
  | rowWidth (query width headers : Nat)
  | missingGlobalColumn (query : Nat) (label : String)
  | deadlineExceeded (milliseconds : Nat)
  /- what an executor reports by itself -/
  | reported (kind : FailureKind) (message : String)
deriving DecidableEq, Repr

def FormulaError.message : FormulaError → String
  | .empty => "Empty formula"
  | .unexpectedCharacter c => "Unexpected character '" ++ String.singleton c ++ "' in formula"
  | .badNumber literal => "Invalid number '" ++ literal ++ "' in formula"
  | .malformed => "Invalid arithmetic formula"
  | .unbalanced => "Unbalanced parentheses in formula"
  | .leftover source => "Invalid arithmetic formula '" ++ source ++ "'"
  | .unknownVariable name => "Unknown formula variable '" ++ name ++ "'"

namespace Failure

def kind : Failure → FailureKind
  | .formula _ => .invalidInput
  | .invalidZone _ => .invalidInput
  | .invalidDisplayName => .invalidInput
  | .invalidProperties => .invalidInput
  | .mixedDataTypes => .invalidInput
  | .repeatedDisplayCategory => .invalidInput
  | .uncovered _ _ => .invalidInput
  | .noSubQueries => .invalidInput
  | .nestedDerived => .invalidInput
  | .notOneMetric _ => .invalidInput
  | .groupedSubQuery _ => .invalidInput
  | .invalidSubQueryNames => .invalidInput
  | .variablesDiffer _ => .invalidInput
  | .invalidMetricName => .invalidInput
  | .emptyGroup => .invalidInput
  | .noMetrics _ => .invalidInput
  | .unnamedDerived => .invalidInput
  | .unlabelledDerived => .invalidInput
  | .invalidPropertyName _ => .invalidInput
  | .scopedGlobalMapping _ => .invalidInput
  | .unmappedGlobal => .invalidInput
  | .differentKeys => .invalidInput
  | .unknownMetric _ _ => .invalidInput
  | .missingPropertyName => .invalidInput
  | .missingCategory => .invalidInput
  | .invalidSetting _ _ => .invalidInput
  | .rejectedBody _ => .invalidInput
  | .nameTaken => .conflict
  | .mappingNotFound _ => .notFound
  | .mappingIdNotFound _ => .notFound
  | .derivedNotFound _ => .notFound
  | .derivedIdNotFound _ => .notFound
  | .noExecutor _ => .executionFailure
  | .executorFailed _ _ _ => .executionFailure
  | .missingKeyColumns _ => .executionFailure
  | .missingMetricColumn _ => .executionFailure
  | .malformedRow _ => .executionFailure
  | .tableCount _ _ => .executionFailure
  | .rowWidth _ _ _ => .executionFailure
  | .missingGlobalColumn _ _ => .executionFailure
  | .deadlineExceeded _ => .executionFailure
  | .reported kind _ => kind

def message : Failure → String
  | .formula error => error.message
  | .invalidZone name => "Invalid timezone '" ++ name ++ "'"
  | .invalidDisplayName => "Invalid display name"
  | .invalidProperties => "Error with values passed in properties"
  | .mixedDataTypes => "All properties should have same data type"
  | .repeatedDisplayCategory => "Duplicate display category in properties"
  | .uncovered mapping displayCategory =>
      "Property mapping '" ++ mapping ++ "' has no property for display category '"
        ++ displayCategory ++ "'"
  | .noSubQueries => "Derived metric needs at least one sub-query"
  | .nestedDerived => "Derived metric sub-queries cannot be derived"
  | .notOneMetric subQuery => "Sub-query '" ++ subQuery ++ "' must have exactly one metric"
  | .groupedSubQuery subQuery => "Sub-query '" ++ subQuery ++ "' cannot have group-bys"
  | .invalidSubQueryNames => "Sub-query names must be unique and non-empty"
  | .variablesDiffer source =>
      "Formula '" ++ source ++ "' variables do not match sub-query names"
  | .invalidMetricName => "Invalid derived metric name"
  | .emptyGroup => "Query group has no queries"
  | .noMetrics displayCategory => "Query on '" ++ displayCategory ++ "' has no metrics"
  | .unnamedDerived => "Derived query must name a derived metric"
  | .unlabelledDerived => "Derived query needs a metric name or alias for its column"
  | .invalidPropertyName name => "Invalid property name '" ++ name ++ "'"
  | .scopedGlobalMapping name =>
      "Global property mapping '" ++ name ++ "' cannot set object type or entity"
  | .unmappedGlobal =>
      "Global filters and group-bys must be property mappings when queries span display categories"
  | .differentKeys => "Combined results need queries with the same group-bys"
  | .unknownMetric metric displayCategory =>
      "Unknown metric '" ++ metric ++ "' for display category '" ++ displayCategory ++ "'"
  | .missingPropertyName => "property_name is required"
  | .missingCategory => "category is required"
  | .invalidSetting key value => "Invalid " ++ key ++ ": " ++ value
  | .rejectedBody fault => fault.message
  | .nameTaken => "Entity with the same name exists"
  | .mappingNotFound name => "Property mapping '" ++ name ++ "' not found"
  | .mappingIdNotFound id => "Property mapping " ++ id.text ++ " not found"
  | .derivedNotFound name => "Derived metric '" ++ name ++ "' not found"
  | .derivedIdNotFound id => "Derived metric " ++ id.text ++ " not found"
  | .noExecutor category => "No executor registered for " ++ category.name
  | .executorFailed category displayCategory cause =>
      category.name ++ " query on '" ++ displayCategory ++ "' failed: " ++ cause.message
  | .missingKeyColumns displayCategory =>
      "Result for '" ++ displayCategory ++ "' is missing group-by columns"
  | .missingMetricColumn subQuery => "Sub-query '" ++ subQuery ++ "' returned no metric column"
  | .malformedRow subQuery => "Sub-query '" ++ subQuery ++ "' returned a malformed row"
  | .tableCount expected actual =>
      "Expected " ++ toString expected ++ " result tables, got " ++ toString actual
  | .rowWidth query width headers =>
      "Query " ++ toString query ++ " returned a row of width " ++ toString width ++ " for "
        ++ toString headers ++ " headers"
  | .missingGlobalColumn query label =>
      "Query " ++ toString query ++ " result lacks global group-by column '" ++ label ++ "'"
  | .deadlineExceeded milliseconds =>
      "Query group exceeded deadline of " ++ toString milliseconds ++ "ms"
  | .reported _ message => message

def status (f : Failure) : Nat := f.kind.status

def queryStatus (f : Failure) : Nat := f.kind.queryStatus

/-- The message after the title of its kind. -/
def description (f : Failure) : String := f.kind.title ++ ": " ++ f.message

end Failure

end FederatedMetrics
