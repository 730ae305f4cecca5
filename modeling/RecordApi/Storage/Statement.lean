import RecordApi.Storage.Reading

/-!
# Statements

The statements that a store sends to a database, as text with a question mark for each
parameter.  Databases differ in how they write truth values, empty lists, patterns and
slices; `Dialect` names those that are known.
-/

namespace RecordApi

inductive Dialect where
  | sqlite
  | postgresql
deriving DecidableEq, Repr

/-- Text of a statement, and the values of its parameters in order. -/
structure Sql where
  text : String
  params : List Value := []

namespace Sql

def append (a b : Sql) : Sql := ⟨a.text ++ b.text, a.params ++ b.params⟩

instance : Append Sql := ⟨append⟩

instance : Coe String Sql := ⟨fun s => ⟨s, []⟩⟩

/-- Fragments with a separator between them. -/
def joined (separator : String) (parts : List Sql) : Sql :=
  ⟨Value.joined separator (parts.map (·.text)), parts.flatMap (·.params)⟩

def parenthesised (sql : Sql) : Sql :=
  ⟨"(" ++ sql.text ++ ")", sql.params⟩

end Sql

namespace Dialect

def truth : Dialect → Bool → String
  | .sqlite, b => if b then "1" else "0"
  | .postgresql, b => if b then "true" else "false"

/-- A condition that holds on every row, or on none. -/
def constant : Dialect → Bool → String
  | .sqlite, b => if b then "1 = 1" else "0 = 1"
  | .postgresql, b => if b then "true" else "false"

/-- A parameter that is bound by a type. -/
def param (dialect : Dialect) (type : ColumnType) (v : Value) : Sql :=
  ⟨if dialect = .postgresql ∧ type = .uuid then "?::UUID" else "?", [v]⟩

end Dialect

def Comparison.symbol : Comparison → String
  | .eq => "="
  | .ne => "!="
  | .gt => ">"
  | .gte => ">="
  | .lt => "<"
  | .lte => "<="

namespace Test

def regexpSymbol (dialect : Dialect) (negated caseless : Bool) : String :=
  match dialect with
  | .sqlite => if negated then "NOT REGEXP" else "REGEXP"
  | .postgresql => (if negated then "!~" else "~") ++ (if caseless then "*" else "")

/-- Membership in a list without members. -/
def emptyList (dialect : Dialect) (column : String) (negated : Bool) : String :=
  match dialect, negated with
  | .sqlite, false => s!"{column} IN (SELECT 1 FROM (SELECT 1) WHERE 1!=1)"
  | .sqlite, true => s!"({column} NOT IN (SELECT 1 FROM (SELECT 1) WHERE 1!=1))"
  | .postgresql, false => s!"{column} IN (NULL) AND (1 != 1)"
  | .postgresql, true => s!"({column} NOT IN (NULL) OR (1 = 1))"

/-- The text of a test of a column in the table called `owner`. -/
def sql (dialect : Dialect) (owner : String) (column : Column) (test : Test Value) : Sql :=
  let name := owner ++ "." ++ column.name
  let operand (v : Value) : Sql := dialect.param (column.type.operandType v) v
  let plain (s : String) : Sql :=
    dialect.param (if column.type.takesTexts then .varchar none else column.type) (.text s)
  let not (negated : Bool) : String := if negated then "NOT " else ""
  match test with
  | .isNull negated => s!"{name} IS {not negated}NULL"
  | .isTruth negated value => s!"{name} IS {not negated}{dialect.truth value}"
  | .equalsTruth negated value =>
      let symbol := if negated then "!=" else "="
      s!"{name} {symbol} {dialect.truth value}"
  | .compare comparison v => s!"{name} {comparison.symbol} " ++ operand v
  | .compareColumn other => s!"{name} = {owner}.{other.name}"
  | .between negated low high =>
      s!"{name} {not negated}BETWEEN " ++ operand low ++ " AND " ++ operand high
  | .among negated [] => emptyList dialect name negated
  | .among negated (v :: rest) =>
      let type := column.type.operandType v
      let list := Sql.parenthesised (Sql.joined ", " ((v :: rest).map (dialect.param type)))
      if negated then Sql.parenthesised (s!"{name} NOT IN " ++ list) else s!"{name} IN " ++ list
  | .quantified all operands =>
      let quantifier := if all then "ALL" else "ANY"
      let items := operands.map fun v => if v.isNull then ("NULL" : Sql) else operand v
      s!"{name} = {quantifier} (ARRAY[" ++ Sql.joined ", " items ++ "])"
  | .wildcard negated false pattern => s!"{name} {not negated}LIKE " ++ plain pattern
  | .wildcard negated true pattern =>
      match dialect with
      | .postgresql => s!"{name} {not negated}ILIKE " ++ plain pattern
      | .sqlite =>
          s!"lower({name}) {not negated}LIKE lower(" ++ plain pattern ++ ")"
  | .holdsText placement text =>
      let quoted := plain (String.ofList (Wildcard.escape text.toList))
      let pattern :=
        match placement with
        | .atStart => quoted ++ " || '%'"
        | .atEnd => "'%' || " ++ quoted
        | .anywhere => "'%' || " ++ quoted ++ " || '%'"
      Sql.parenthesised (s!"{name} LIKE " ++ pattern ++ s!" ESCAPE '{Wildcard.escapeMark}'")
  | .regexp negated caseless pattern =>
      let symbol := regexpSymbol dialect negated caseless
      s!"{name} {symbol} " ++ plain pattern
  | .words text =>
      match dialect with
      | .postgresql => s!"{name} @@ plainto_tsquery(" ++ plain text ++ ")"
      | .sqlite => s!"{name} MATCH " ++ plain text

end Test

namespace Clause

/-- The clause binds less than a conjunction. -/
def isDisjunction {α : Type} : Clause α → Bool
  | .group .or (_ :: _) => true
  | _ => false

mutual

def sql (dialect : Dialect) (owner : String) : Clause Value → Sql
  | .test column t => t.sql dialect owner column
  | .group combinator [] => dialect.constant (combinator == .and)
  | .group .and clauses => Sql.joined " AND " (conjunctSqls dialect owner clauses)
  | .group .or clauses => Sql.joined " OR " (memberSqls dialect owner clauses)

def memberSqls (dialect : Dialect) (owner : String) : List (Clause Value) → List Sql
  | [] => []
  | clause :: rest => sql dialect owner clause :: memberSqls dialect owner rest

def conjunctSqls (dialect : Dialect) (owner : String) : List (Clause Value) → List Sql
  | [] => []
  | clause :: rest =>
      let text := sql dialect owner clause
      (if clause.isDisjunction then text.parenthesised else text) ::
        conjunctSqls dialect owner rest

end

/-- The text of a clause beside others in a conjunction. -/
def conjunctSql (dialect : Dialect) (owner : String) (clause : Clause Value) : Sql :=
  let text := clause.sql dialect owner
  if clause.isDisjunction then text.parenthesised else text

end Clause

namespace Model

/-- The column of a field in the database. -/
def columnName (model : Model) (field : String) : String :=
  ((model.column? field).map (·.name)).getD field

end Model

namespace Selection

/-- The text of a demand for a related row; `used` holds the tables that have an alias
already, and each further alias of a table counts up. -/
def existenceSql (dialect : Dialect) (owner : Model) (used : List String) (e : Existence Value) :
    Sql × List String :=
  let nickname (used : List String) (table : String) : String :=
    s!"{table}_{used.count table + 1}"
  let target := nickname used e.target.table
  let used := e.target.table :: used
  let ownColumn (field : String) : String := s!"{owner.table}.{owner.columnName field}"
  let otherColumn (field : String) : String := s!"{target}.{e.target.columnName field}"
  let (tables, join, used) :=
    match e.relation.join with
    | .held field own =>
        (s!"{e.target.table} AS {target}", s!"{ownColumn own} = {otherColumn field}", used)
    | .holds field other =>
        (s!"{e.target.table} AS {target}", s!"{otherColumn other} = {ownColumn field}", used)
    | .linked table own other =>
        let link := nickname used table
        (s!"{e.target.table} AS {target}, {table} AS {link}",
          s!"{ownColumn own.field} = {link}.{own.column} AND {otherColumn other.field} = {link}.{other.column}",
          table :: used)
  let filter := e.clause.conjunctSql dialect target
  (s!"EXISTS (SELECT 1 FROM {tables} WHERE {join} AND " ++ filter ++ ")", used)

def existenceSqls (dialect : Dialect) (owner : Model) :
    List String → List (Existence Value) → List Sql
  | _, [] => []
  | used, e :: rest =>
      let (sql, used) := existenceSql dialect owner used e
      sql :: existenceSqls dialect owner used rest

/-- The condition of a statement that selects rows, with its keyword. -/
def whereSql (dialect : Dialect) (model : Model) (selection : Selection Value) : Sql :=
  let exist := existenceSqls dialect model [] selection.required
  match selection.clause, exist with
  | none, [] => ""
  | some clause, [] => " WHERE " ++ clause.sql dialect model.table
  | none, [one] => " WHERE " ++ one
  | none, several => " WHERE " ++ Sql.joined " AND " (several.map Sql.parenthesised)
  | some clause, some_ =>
      " WHERE " ++ Sql.joined " AND "
        (clause.conjunctSql dialect model.table :: some_.map Sql.parenthesised)

end Selection

namespace Store

/-- The columns that a query reads: the key and the projection, in the order of the table. -/
def selectedColumns (model : Model) (attributes : Option (List String)) : List Column :=
  let fields := Storage.shownFields model attributes
  model.columns.filter fun column => model.inKey column.key || fields.contains column.key

def orderSql (model : Model) (keys : List SortKey) : Sql :=
  if keys.isEmpty then ""
  else
    " ORDER BY " ++ Value.joined ", " (keys.map fun key =>
      s!"{model.table}.{key.column.name}" ++
        (match key.direction with
        | none => ""
        | some false => " ASC"
        | some true => " DESC"))

def sliceSql (dialect : Dialect) (limit offset : Option Int) : Sql :=
  let bound (n : Int) : Sql := ⟨"?", [.int n]⟩
  let behind := (offset.filter (· != 0)).map bound
  match dialect, limit with
  | _, none => ""
  | .sqlite, some n => " LIMIT " ++ bound n ++ " OFFSET " ++ behind.getD (bound 0)
  | .postgresql, some n =>
      " LIMIT " ++ bound n ++ (match behind with
        | some offset => " OFFSET " ++ offset
        | none => "")

def selectSql (store : Store) (dialect : Dialect) (selection : Selection Value)
    (attributes : Option (List String)) (keys : List SortKey) (limit offset : Option Int) : Sql :=
  let names := (selectedColumns store.model attributes).map fun column =>
    s!"{store.model.table}.{column.name}"
  let list := Value.joined ", " names
  s!"SELECT {list} FROM {store.model.table}" ++ selection.whereSql dialect store.model ++
    orderSql store.model keys ++ sliceSql dialect limit offset

/-- The statement is known to its dialect. -/
def checkDialect (dialect : Dialect) (store : Store) (action : Action)
    (selection : Selection Value) : Except StoreError Unit :=
  if dialect = .sqlite ∧ selection.hasQuantifier then
    .error (.failed action store.name .dialect)
  else .ok ()

/-- The statements of a list query: one that counts and one that selects. -/
def listStatements (store : Store) (dialect : Dialect) (query : Query) :
    Except StoreError (List Sql) := do
  let selection ← Selection.ofQuery store query
  let selection := selection.simplified
  Storage.checkFields store.model store.name query.attributes
  let keys ← SortKey.ofOrder store.model store.name query.order
  checkDialect dialect store .list selection
  let count : Sql := s!"SELECT count(*) AS count_1 FROM {store.model.table}"
  return [count ++ selection.whereSql dialect store.model,
    store.selectSql dialect selection query.attributes keys query.limit query.offset]

def findStatements (store : Store) (dialect : Dialect) (query : Query) :
    Except StoreError (List Sql) := do
  Storage.checkFields store.model store.name query.attributes
  let selection ← Selection.ofQuery store query
  let selection := selection.simplified
  let keys ← SortKey.ofOrder store.model store.name query.order
  checkDialect dialect store .find selection
  return [store.selectSql dialect selection query.attributes keys (some 1) none]

def destroyStatements (store : Store) (dialect : Dialect) (filter : Option Predicate) :
    Except StoreError (List Sql) := do
  match ← Clause.ofPredicate? store.model store.name filter with
  | none => .error (.unguarded store.name)
  | some clause =>
      let selection : Selection Value := ⟨some clause.simplified, []⟩
      checkDialect dialect store .destroy selection
      let statement : Sql := s!"DELETE FROM {store.model.table}"
      return [statement ++ selection.whereSql dialect store.model]

end Store
end RecordApi
