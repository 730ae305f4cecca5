import RecordApi.Storage.Cell

/-!
# Databases

A database holds the rows of each table in the order of their keys, and the rows of each linking
table.  A row gives a cell to every field of its model, or to every column of a linking table.
-/

namespace RecordApi

/-- A cell for each field. -/
abbrev Row := Assoc Cell

def Row.cell (row : Row) (field : String) : Cell :=
  (Assoc.get? row field).getD .null

structure Database where
  tables : Assoc (List Row)
  links : Assoc (List Row)
deriving DecidableEq

namespace Row

def key (model : Model) (row : Row) : List Cell :=
  model.primaryKey.map row.cell

/-- The order of two keys, by their first difference. -/
def keyOrder : List Cell → List Cell → Ordering
  | a :: as, b :: bs => (Cell.order a b).then (keyOrder as bs)
  | _, _ => .eq

def sameKey (model : Model) (a b : Row) : Bool :=
  keyOrder (a.key model) (b.key model) == .eq

/-- Puts a row among others before the first one with a greater key. -/
def insertInOrder (model : Model) (row : Row) : List Row → List Row
  | [] => [row]
  | other :: rest =>
      if keyOrder (row.key model) (other.key model) == .lt then row :: other :: rest
      else other :: insertInOrder model row rest

end Row

namespace Database

def empty : Database := ⟨[], []⟩

/-- The rows of a model, in the order of their keys. -/
def rows (db : Database) (model : Model) : List Row :=
  (Assoc.get? db.tables model.table).getD []

def withRows (db : Database) (model : Model) (rows : List Row) : Database :=
  { db with tables := Assoc.put model.table rows db.tables }

def linksOf (db : Database) (table : String) : List Row :=
  (Assoc.get? db.links table).getD []

theorem rows_withRows (db : Database) (model : Model) (rows : List Row) :
    (db.withRows model rows).rows model = rows := by
  simp [Database.rows, withRows, Assoc.get?_put_self]

theorem rows_withRows_of_ne {model other : Model} (h : model.table ≠ other.table)
    (db : Database) (rows : List Row) :
    (db.withRows model rows).rows other = db.rows other := by
  simp [Database.rows, withRows, Assoc.get?_put_of_ne h]

end Database
end RecordApi
