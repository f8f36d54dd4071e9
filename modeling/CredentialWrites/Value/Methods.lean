import CredentialWrites.Value.Access

/-!
# The methods of values without attributes of their own

Numbers, texts, bytes and collections have methods, which nobody can assign, and a few parts that
are seen as attributes and that nobody can assign either. Anything else is no attribute of theirs.

* `Value.methodNames` : the names of the methods of a value.
* `Value.fixedAttrs?` : the parts of a value that are seen as attributes.
-/

namespace CredentialWrites

namespace Value

/-- The methods that texts and bytes have in common. -/
def textMethods : List String :=
  ["capitalize", "center", "count", "endswith", "expandtabs", "find", "index", "isalnum", "isalpha",
    "isascii", "isdigit", "islower", "isspace", "istitle", "isupper", "join", "ljust",
    "lower", "lstrip",
    "maketrans", "partition", "removeprefix", "removesuffix", "replace", "rfind", "rindex", "rjust",
    "rpartition", "rsplit", "rstrip", "split", "splitlines", "startswith", "strip",
    "swapcase", "title",
    "translate", "upper", "zfill"]

/-- The methods of sets that cannot be changed. -/
def setMethods : List String :=
  ["copy", "difference", "intersection", "isdisjoint", "issubset", "issuperset",
    "symmetric_difference", "union"]

/-- The methods of whole numbers. -/
def intMethods : List String :=
  ["as_integer_ratio", "bit_count", "bit_length", "conjugate", "from_bytes", "to_bytes"]

/-- The methods of other numbers. -/
def floatMethods : List String :=
  ["as_integer_ratio", "conjugate", "fromhex", "hex", "is_integer"]

/-- The names of the methods of a value without attributes of its own. -/
def methodNames : Value → List String
  | bool _ => intMethods
  | int _ => intMethods
  | float _ => floatMethods
  | nan _ => floatMethods
  | text _ => ["casefold", "encode", "format", "format_map", "isdecimal",
      "isidentifier", "isnumeric", "isprintable"] ++ textMethods
  | bytes _ => ["decode", "fromhex", "hex"] ++ textMethods
  | buffer _ _ => ["append", "clear", "copy", "decode", "extend", "fromhex", "hex", "insert", "pop",
      "remove", "reverse"] ++ textMethods
  | tuple _ => ["count", "index"]
  | list _ _ => ["append", "clear", "copy", "count", "extend", "index", "insert", "pop", "remove",
      "reverse", "sort"]
  | frozenSet _ => setMethods
  | set _ _ => ["add", "clear", "difference_update", "discard", "intersection_update",
      "pop", "remove", "symmetric_difference_update", "update"] ++ setMethods
  | view _ => ["copy", "get", "items", "keys", "values"]
  | map _ _ => ["clear", "copy", "fromkeys", "get", "items", "keys", "pop", "popitem", "setdefault",
      "update", "values"]
  | stream _ _ => ["close", "send", "throw"]
  | _ => []

/-- The parts of a value that are seen as attributes, under the name of the kind that they belong
to. -/
def fixedAttrs? : Value → Option (String × List String)
  | bool _ => some ("int", ["denominator", "imag", "numerator", "real"])
  | int _ => some ("int", ["denominator", "imag", "numerator", "real"])
  | float _ => some ("float", ["imag", "real"])
  | nan _ => some ("float", ["imag", "real"])
  | stream _ _ => some ("generator", ["gi_frame", "gi_running", "gi_suspended", "gi_yieldfrom"])
  | _ => none

/-- Why an attribute of a value without attributes of its own cannot be assigned. -/
def unassignable (v : Value) (name : String) : Fault :=
  if (v.fixedAttrs?.map Prod.snd).any (·.contains name) then
    .fixedAttribute ((v.fixedAttrs?.map Prod.fst).getD v.kindName) name
  else if v.methodNames.contains name then .readOnlyAttribute v.kindName name
  else .noAttribute v.kindName name

end Value

end CredentialWrites
