/-!
# Problems with given values

What is wrong with a value that was given for a field of a body or a configuration, and
where.
-/

namespace RecordApi

/-- Why a value is not accepted. -/
inductive Problem where
  | missing
  | notInteger
  | integerText
  | integerSize
  | fractional
  | notFinite
  | notText
  | notOctets
  | notTruth
  | truthText
  | notFloat
  | floatText
  | notDecimal
  | decimalText
  | notDate
  | dateText
  /-- A date is given with a time of day. -/
  | dateWithTime
  | notTimestamp
  | timestampNumber
  | timestampText
  | notUuid
  | uuidText
  | notMap
  | notChoice
  | tooSmall
  | notObject
  | notJson
deriving DecidableEq, Repr

def Problem.code : Problem → String
  | .missing => "missing"
  | .notInteger => "int_type"
  | .integerText => "int_parsing"
  | .integerSize => "int_parsing_size"
  | .fractional => "int_from_float"
  | .notFinite => "finite_number"
  | .notText => "string_type"
  | .notOctets => "bytes_type"
  | .notTruth => "bool_type"
  | .truthText => "bool_parsing"
  | .notFloat => "float_type"
  | .floatText => "float_parsing"
  | .notDecimal => "decimal_type"
  | .decimalText => "decimal_parsing"
  | .notDate => "date_type"
  | .dateText => "date_from_datetime_parsing"
  | .dateWithTime => "date_from_datetime_inexact"
  | .notTimestamp => "datetime_type"
  | .timestampNumber => "datetime_parsing"
  | .timestampText => "datetime_from_date_parsing"
  | .notUuid => "uuid_type"
  | .uuidText => "uuid_parsing"
  | .notMap => "dict_type"
  | .notChoice => "enum"
  | .tooSmall => "greater_than_equal"
  | .notObject => "model_attributes_type"
  | .notJson => "json_invalid"

/-- A problem and the path of keys to the value that has it. -/
structure Issue where
  path : List String
  problem : Problem
deriving DecidableEq, Repr

end RecordApi
