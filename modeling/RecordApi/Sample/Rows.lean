import RecordApi.Sample.Schema
import RecordApi.Storage.Writing

/-!
# Sample rows

A database for the sample schema, with a few rows for each model.
-/

namespace RecordApi
namespace Sample

def dateOf (year month day : Nat) : Value :=
  Value.ofOption .date (Date.ofCivil? year month day)

/-- A timestamp, its time of day given in microseconds. -/
def timeOf (year month day hour minute second micros : Nat) : Value :=
  Value.ofOption .timestamp do
    let date ← Date.ofCivil? year month day
    let clock ← Timestamp.clockOf? hour minute second micros
    return ⟨date, clock, none⟩

/-- A number of hundredths. -/
def priceOf (negative : Bool) (hundredths : Nat) : Value :=
  .decimal (.finite negative hundredths (-2))

def weightOf (negative : Bool) (numerator denominator : Nat) : Value :=
  .float (Binary64.ofRatio negative numerator denominator)

/-- Identifiers that differ in their last digit. -/
def uidOf (digit : Fin 10) : Value :=
  .uuid ⟨0x12345678123456781234567812345670 + ⟨digit.val, by omega⟩⟩

def ages : List Int := [5, 12, 17, 18, 20, 22, 25, 30, 35, 40, 45, 50, 55, 60, 64, 65, 70]

def authorRows : List (List Value) :=
  (ages.zip (List.range ages.length)).map fun (age, i) =>
    [.int (i + 1), .text ("author" ++ String.ofList (Date.padded 2 (i + 1))), .int age]

def postRows : List (List Value) := [
  [.int 1, .text "First steps", .bool true, dateOf 2024 1 10, .int 4],
  [.int 2, .text "Draft", .bool false, dateOf 2024 2 1, .int 4],
  [.int 3, .text "Zebra notes", .bool true, dateOf 2024 3 5, .int 4],
  [.int 4, .text "Hello", .bool true, dateOf 2023 12 31, .int 5],
  [.int 5, .text "100% sure_thing", .bool false, .null, .int 6]]

def commentRows : List (List Value) := [
  [.int 1, .text "nice", .int 3, .int 1],
  [.int 2, .text "great post", .int 10, .int 1],
  [.int 3, .text "meh", .int 0, .int 1],
  [.int 4, .text "typo", .int 1, .int 2],
  [.int 5, .text "Nice too", .int 3, .int 4]]

def tagRows : List (List Value) := [
  [.text "a", .text "Alpha"],
  [.text "b", .text "Beta"],
  [.text "c", .null],
  [.text "d/e", .text "Slash"]]

def itemRows : List (List Value) := [
  [.int 1, .text "Bolt", .int 10, weightOf false 1 2, priceOf false 125, .bool true,
    dateOf 2024 1 1, timeOf 2024 1 1 8 30 0 0, uidOf 1, .text "raw"],
  [.int 2, .text "bolt", .int 0, weightOf false 3 2, priceOf false 1000, .bool false,
    dateOf 2024 2 29, timeOf 2024 2 29 23 59 59 500000, uidOf 2, .text "done"],
  [.int 3],
  [.int 4, .text "Ünïcode ✓", .int (-5), weightOf true 9 4, priceOf true 350, .bool true,
    dateOf 1999 12 31, timeOf 1999 12 31 0 0 0 0, uidOf 4, .text "raw"],
  [.int 5, .text "a_b%c\\d", .int 9007199254740993, weightOf false (tenTo 20) 1,
    priceOf false 9999999999, .bool false, dateOf 2024 1 1, timeOf 2024 1 1 10 0 0 0, uidOf 5,
    .text "done"],
  [.int 6, .text "", .int 10, weightOf false 1 10, priceOf false 0, .null, .null,
    timeOf 2030 6 15 12 0 0 0]]

def nodeRows : List (List Value) := [
  [.int 1, .text "root", .null],
  [.int 2, .text "left", .int 1],
  [.int 3, .text "right", .int 1],
  [.int 4, .text "leaf", .int 2],
  [.int 5, .text "loner", .null]]

def reviewerRows : List (List Value) := [
  [.int 1, .text "ann"],
  [.int 2, .text "bob"]]

def reviewRows : List (List Value) := [
  [.int 1, .int 5, .int 1, .int 2],
  [.int 2, .int 3, .int 2, .null],
  [.int 3, .int 1, .int 1, .int 1]]

def membershipRows : List (List Value) := [
  [.int 1, .int 1, .text "owner"],
  [.int 1, .int 2, .text "guest"],
  [.int 2, .int 1, .text "guest"]]

/-- A row of the table that links posts and tags. -/
def postTag (post : Int) (tag : String) : Row :=
  [("post_id", .int post), ("tag_code", .text tag)]

def postTags : List Row :=
  [postTag 1 "a", postTag 1 "b", postTag 2 "a", postTag 4 "d/e"]

/-- The stored form of values in the order of the columns. -/
def rowOf (model : Model) (values : List Value) : Row :=
  Storage.newRow model (model.fields.zip values) []

def table (model : Model) (rows : List (List Value)) : String × List Row :=
  (model.table, rows.map (rowOf model))

def database : Database where
  tables := [table authors authorRows, table posts postRows, table comments commentRows,
    table tags tagRows, table items itemRows, table nodes nodeRows,
    table reviewers reviewerRows, table reviews reviewRows, table memberships membershipRows]
  links := [("post_tags", postTags)]

/-- The store of a registered entity. -/
def store? (registry : Registry) (name : String) : Option Store := do
  let model ← Assoc.get? registry name
  return ⟨schema, registry, name, ← schema.model? model⟩

end Sample
end RecordApi
