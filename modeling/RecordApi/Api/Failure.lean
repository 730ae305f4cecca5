import RecordApi.Params.Decode
import RecordApi.Query.Page
import RecordApi.Storage.Error

/-!
# Failures of an operation

Whatever goes wrong while a request is served is a `Failure`.  It has the label under which
logs tell it, and a text, unless it comes from outside of the library.
-/

namespace RecordApi

inductive Failure where
  | filter (error : Filter.Error)
  | params (error : Params.Error)
  | store (error : StoreError)
  | pages (error : Page.CountError)
deriving DecidableEq, Repr

namespace Failure

def operandLabel : Operand.Error → String
  | .invalid .. => "InvalidValueError"
  | .beyondCalendar => "OverflowError"

def paramsLabel : Params.Error → String
  | .filter _ => "MalformedFilterError"
  | .indexNotDecimal | .integerTooLong => "ValueError"
  | .unnamedParameters => "AttributeError"
  | .bracketsOverPlain .. | .plainOverBrackets .. | .notJson _ | .notList _ | .notMap _ =>
      "MalformedQueryError"

def storeLabel : StoreError → String
  | .unknownField .. => "UnknownFieldError"
  | .unknownRelation .. => "UnknownRelationError"
  | .unsupportedOperator _ => "UnsupportedOperatorError"
  | .unsupportedDirection .. => "UnsupportedSortDirectionError"
  | .operand error => operandLabel error
  | .unguarded _ | .failed .. => "StorageError"
  | .comparison => "ArgumentError"
  | .outOfRange => "OverflowError"
  | .unreadable => "LookupError"

def pagesLabel : Page.CountError → String
  | .divisionByZero => "ZeroDivisionError"
  | .overflow => "OverflowError"

def label : Failure → String
  | .filter _ => "MalformedFilterError"
  | .params error => paramsLabel error
  | .store error => storeLabel error
  | .pages error => pagesLabel error

/-- The failure comes from outside: its text is not the library's own. -/
def isForeign : Failure → Bool
  | .params .indexNotDecimal | .params .integerTooLong | .params .unnamedParameters => true
  | .store (.operand .beyondCalendar) => true
  | .store .comparison | .store .outOfRange | .store .unreadable => true
  | .pages _ => true
  | _ => false

def ownText : Failure → String
  | .filter error => error.message
  | .params error => error.message
  | .store error => error.message
  | .pages _ => ""

/-- The text of a failure; a foreign one is told by its label alone. -/
def text (failure : Failure) : String :=
  if failure.isForeign then "<" ++ failure.label ++ ">" else failure.ownText

/-- How logs tell a failure. -/
def summary (failure : Failure) : String :=
  if failure.isForeign then failure.label else failure.label ++ ": " ++ failure.ownText

end Failure

def errorBody (status : Int) (message detail : Value) : Value :=
  .map [("error", .bool true), ("message", message), ("detail", detail),
    ("status_code", .int status)]

end RecordApi
