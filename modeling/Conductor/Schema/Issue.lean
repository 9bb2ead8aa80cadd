/-! What validation finds wrong with a value, and where. -/

namespace Conductor

/-- A step on the way into a value. -/
inductive Place where
  | field (name : String)
  | index (i : Nat)
  /-- An entry whose key is an integer. -/
  | key (n : Int)
deriving Repr, DecidableEq

inductive Problem where
  | missing
  | notText
  /-- Bytes that spell no text. -/
  | notUnicode
  | notOneOf
  | notModel
  | notList
  | notDict
  | notBool
  | unreadableBool
  | notInteger
  | unreadableInteger
  | fractionalInteger
  | hugeInteger
  | notFinite
  | notNumber
  | unreadableNumber
  | belowMinimum
  | notRecord
  | noTag
  | unknownTag
  /-- A rule of the model itself is broken. -/
  | rule (message : String)
deriving Repr, DecidableEq

/-- The name of a problem in reports. -/
def Problem.tag : Problem → String
  | .missing => "missing"
  | .notText => "string_type"
  | .notUnicode => "string_unicode"
  | .notOneOf => "literal_error"
  | .notModel => "model_type"
  | .notList => "list_type"
  | .notDict => "dict_type"
  | .notBool => "bool_type"
  | .unreadableBool => "bool_parsing"
  | .notInteger => "int_type"
  | .unreadableInteger => "int_parsing"
  | .fractionalInteger => "int_from_float"
  | .hugeInteger => "int_parsing_size"
  | .notFinite => "finite_number"
  | .notNumber => "float_type"
  | .unreadableNumber => "float_parsing"
  | .belowMinimum => "greater_than_equal"
  | .notRecord => "model_attributes_type"
  | .noTag => "union_tag_not_found"
  | .unknownTag => "union_tag_invalid"
  | .rule _ => "value_error"

structure Issue where
  problem : Problem
  place : List Place
deriving Repr, DecidableEq

def Issue.inside (p : Place) (i : Issue) : Issue := { i with place := p :: i.place }

end Conductor
