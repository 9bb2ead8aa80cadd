/-! What records answer to beside their fields. -/

namespace Conductor.Record

/-- Names that every record has a meaning for, none of them a number. -/
def attributes : List String := [
  "construct", "copy", "dict", "from_orm", "json", "model_computed_fields", "model_config",
  "model_construct", "model_copy", "model_dump", "model_dump_json", "model_extra", "model_fields",
  "model_fields_set", "model_json_schema", "model_parametrized_name", "model_post_init",
  "model_rebuild", "model_validate", "model_validate_json", "model_validate_strings", "parse_file",
  "parse_obj", "parse_raw", "schema", "schema_json", "update_forward_refs", "validate",
  "__annotations__", "__class__", "__class_getitem__", "__class_vars__", "__copy__", "__deepcopy__",
  "__delattr__", "__dict__", "__dir__", "__doc__", "__eq__", "__fields_set__", "__format__", "__ge__",
  "__getattr__", "__getattribute__", "__getstate__", "__gt__", "__hash__", "__init__",
  "__init_subclass__", "__iter__", "__le__", "__lt__", "__module__", "__ne__", "__new__",
  "__pretty__", "__private_attributes__", "__reduce__", "__reduce_ex__", "__repr__",
  "__repr_args__", "__repr_name__", "__repr_str__", "__rich_repr__", "__setattr__", "__setstate__",
  "__sizeof__", "__slots__", "__str__", "__subclasshook__", "__weakref__", "_calculate_keys",
  "_copy_and_set_values", "_get_value", "_iter"]

end Conductor.Record
