import RecordApi.Pattern.Matcher
import RecordApi.Pattern.Reader
import RecordApi.Pattern.Wildcard
import RecordApi.Storage.Binding
import RecordApi.Storage.Database

/-!
# Evaluating clauses on rows

A test has a truth value on a row: yes, no, or unknown where null takes part.  Some
operators cannot be evaluated on some rows, and then there is no truth value at all.  A
clause holds when its truth is yes.  Groups are looked through from left to right and
only as far as needed, so that a member behind the deciding one is never evaluated.
-/

namespace RecordApi

namespace Test

/-- Whether a text behind a cell passes a check; unknown for null. -/
def ofText (negated : Bool) (cell : Cell) (check : String → Bool) : Truth :=
  match cell.text? with
  | none => .unknown
  | some s => Truth.ofBool (check s != negated)

/-- The wildcard pattern of texts that hold a given text. -/
def placementPattern (placement : Placement) (text : String) : List Char :=
  let quoted := Wildcard.escape text.toList
  match placement with
  | .atStart => quoted ++ ['%']
  | .atEnd => '%' :: quoted
  | .anywhere => '%' :: quoted ++ ['%']

/-- Whether a text matches a pattern in which characters may be escaped. -/
def matchesEscaped (pattern : List Char) (s : String) : Bool :=
  match Wildcard.ofEscaped? (pattern.takeWhile (· ≠ '\x00')) with
  | some parts => Wildcard.isMatch parts (Wildcard.visible s)
  | none => false

def negateIf (negated : Bool) (truth : Truth) : Truth :=
  if negated then truth.not else truth

/-- The truth of a test of a column on a row, if the test can be evaluated there. -/
def truth? (column : Column) (row : Row) (test : Test Cell) : Option Truth :=
  let cell := row.cell column.key
  let affinity := column.type.affinity
  let truthOf (comparison : Comparison) (operand : Cell) : Truth :=
    comparison.truth cell (operand.against affinity)
  let truthCell (b : Bool) : Cell := .int (if b then 1 else 0)
  match test with
  | .isNull negated => some (Truth.ofBool (cell.isNull != negated))
  | .isTruth negated value =>
      some (Truth.ofBool ((truthOf .eq (truthCell value) == .yes) != negated))
  | .equalsTruth negated value => some (truthOf (if negated then .ne else .eq) (truthCell value))
  | .compare comparison operand => some (truthOf comparison operand)
  | .compareColumn other =>
      let theirs := other.type.affinity
      some (Comparison.eq.truth (cell.beside affinity theirs)
        ((row.cell other.key).beside theirs affinity))
  | .between negated low high =>
      some (negateIf negated ((truthOf .gte low).and (truthOf .lte high)))
  | .among negated operands =>
      some (negateIf negated (Truth.disjunction (operands.map (truthOf .eq))))
  | .quantified _ _ => none
  | .wildcard negated _ pattern =>
      some (ofText negated cell fun s =>
        Wildcard.isMatch (Wildcard.ofChars (Wildcard.visible pattern)) (Wildcard.visible s))
  | .holdsText placement text =>
      some (ofText false cell (matchesEscaped (placementPattern placement text)))
  | .regexp negated _ pattern =>
      match cell with
      | .null => some .unknown
      | .text s =>
          (Pattern.read? pattern.toList).map fun node =>
            Truth.ofBool (Pattern.search node s.toList != negated)
      | _ => none
  | .words _ => none

/-- The cells of the operands, in order, each bound by its type beside the column.  A pattern or a
text has no cell of its own: it is taken, or it is refused. -/
def bindings (column : Column) : Test Value → List (Except BindError Cell)
  | .compare _ operand => [Binding.bind (column.type.operandType operand) operand]
  | .between _ low high =>
      [low, high].map fun v => Binding.bind (column.type.operandType v) v
  | .among _ operands =>
      operands.map (Binding.bind (column.type.operandType (operands.headD .null)))
  | .wildcard _ _ _ | .holdsText _ _ | .regexp _ _ _ | .words _ =>
      if column.type.takesTexts then [] else [.error .refused]
  | _ => []

/-- The cell of a value that is bound without error. -/
def boundCell (type : ColumnType) (v : Value) : Cell :=
  match Binding.bind type v with
  | .ok cell => cell
  | .error _ => .null

/-- A test with its operands bound; all operands of a list take the type of the first. -/
def bound (column : Column) : Test Value → Test Cell
  | .isNull negated => .isNull negated
  | .isTruth negated value => .isTruth negated value
  | .equalsTruth negated value => .equalsTruth negated value
  | .compare comparison operand =>
      .compare comparison (boundCell (column.type.operandType operand) operand)
  | .compareColumn other => .compareColumn other
  | .between negated low high =>
      .between negated (boundCell (column.type.operandType low) low)
        (boundCell (column.type.operandType high) high)
  | .among negated operands =>
      .among negated (operands.map (boundCell (column.type.operandType (operands.headD .null))))
  | .quantified all operands => .quantified all (operands.map (boundCell column.type))
  | .wildcard negated caseless pattern => .wildcard negated caseless pattern
  | .holdsText placement text => .holdsText placement text
  | .regexp negated caseless pattern => .regexp negated caseless pattern
  | .words text => .words text

def isQuantified {α : Type} : Test α → Bool
  | .quantified _ _ => true
  | _ => false

/-- The test looks a single column up in its index, when it has one. -/
def looksUp {α : Type} : Test α → Bool
  | .isNull negated => !negated
  | .isTruth negated _ => !negated
  | .equalsTruth negated _ => !negated
  | .compare comparison _ => comparison != .ne
  | .between negated _ _ => !negated
  | .among negated _ => !negated
  | _ => false

end Test

namespace Clause

variable {α : Type}

def always : Clause α := .group .and []

def isAlways : Clause α → Bool
  | .group .and [] => true
  | _ => false

def isNever : Clause α → Bool
  | .group .or [] => true
  | _ => false

/-- The members of a group with a given combinator; any other clause is a single one. -/
def membersOf (combinator : Combinator) : Clause α → List (Clause α)
  | .group c clauses => if c = combinator then clauses else [.group c clauses]
  | clause => [clause]

/-- A group without members that decide nothing.  A deciding member stands for the whole
group, a single member for itself, and groups of the same kind are merged. -/
def combine (combinator : Combinator) (clauses : List (Clause α)) : Clause α :=
  let neutral : Clause α → Bool :=
    match combinator with
    | .and => isAlways
    | .or => isNever
  let deciding : Clause α → Bool :=
    match combinator with
    | .and => isNever
    | .or => isAlways
  match clauses.find? deciding with
  | some clause => clause
  | none =>
      match clauses.filter (!neutral ·) with
      | [clause] => clause
      | kept => .group combinator (kept.flatMap (membersOf combinator))

mutual

/-- Combines all groups of a clause, the inner ones first. -/
def simplified : Clause α → Clause α
  | .test column t => .test column t
  | .group combinator clauses => combine combinator (simplifiedAll clauses)

def simplifiedAll : List (Clause α) → List (Clause α)
  | [] => []
  | clause :: rest => simplified clause :: simplifiedAll rest

end

mutual

def bindings : Clause Value → List (Except BindError Cell)
  | .test column t => t.bindings column
  | .group _ clauses => allBindings clauses

def allBindings : List (Clause Value) → List (Except BindError Cell)
  | [] => []
  | clause :: rest => bindings clause ++ allBindings rest

end

mutual

def bound : Clause Value → Clause Cell
  | .test column t => .test column (t.bound column)
  | .group combinator clauses => .group combinator (allBound clauses)

def allBound : List (Clause Value) → List (Clause Cell)
  | [] => []
  | clause :: rest => bound clause :: allBound rest

end

mutual

/-- Some test in the clause quantifies over its operands. -/
def hasQuantifier : Clause α → Bool
  | .test _ t => t.isQuantified
  | .group _ clauses => anyHasQuantifier clauses

def anyHasQuantifier : List (Clause α) → Bool
  | [] => false
  | clause :: rest => hasQuantifier clause || anyHasQuantifier rest

end

mutual

/-- Whether a clause holds on a row, if that can be told. -/
def holds? (row : Row) : Clause Cell → Option Bool
  | .test column t => (t.truth? column row).map (· == .yes)
  | .group .and clauses => allHold? row clauses
  | .group .or clauses => anyHolds? row clauses

def allHold? (row : Row) : List (Clause Cell) → Option Bool
  | [] => some true
  | clause :: rest =>
      match holds? row clause with
      | some true => allHold? row rest
      | other => other

def anyHolds? (row : Row) : List (Clause Cell) → Option Bool
  | [] => some false
  | clause :: rest =>
      match holds? row clause with
      | some false => anyHolds? row rest
      | other => other

end

/-- The clause looks up the field in its index. -/
def looksUp (field : String) : Clause α → Bool
  | .test column t => column.key == field && t.looksUp
  | .group _ _ => false

/-- The conjuncts of a clause, those that look up the key before all others. -/
def keyFirst (field : String) (clause : Clause α) : List (Clause α) :=
  let members := membersOf .and clause
  members.filter (looksUp field) ++ members.filter (!looksUp field ·)

/-- Whether a row is selected from its table, if that can be told. -/
def selects? (model : Model) (clause : Clause Cell) (row : Row) : Option Bool :=
  allHold? row (keyFirst model.keyField clause)

end Clause
end RecordApi
