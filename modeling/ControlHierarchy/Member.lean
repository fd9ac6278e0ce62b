import ControlHierarchy.Field
import ControlHierarchy.Plain

/-!
# Members of plain values

The words that plain values answer to. Nothing can be assigned in what they
answer, except where an array answers with its own entries.
-/

namespace ControlHierarchy

namespace Member

def ofNumbers : List String := ["real", "imag", "conjugate", "is_integer", "as_integer_ratio"]

def ofWholes : List String :=
  ["numerator", "denominator", "bit_length", "bit_count", "to_bytes", "from_bytes"]

def ofDoubles : List String := ["hex", "fromhex"]

/-- What labels answer to, and policies besides being whole numbers. -/
def ofLabels : List String := ["name", "value"]

def ofSequences : List String := ["count", "index"]

def ofLists : List String :=
  ["append", "clear", "copy", "extend", "insert", "pop", "remove", "reverse", "sort"]

def ofTexts : List String :=
  ["encode", "find", "format", "join", "lower", "replace", "split", "splitlines", "strip", "title",
    "upper"]

def ofRecords : List String :=
  ["clear", "copy", "get", "items", "keys", "pop", "popitem", "setdefault", "update", "values"]

def ofArrays : List String := [
  "T", "real", "imag", "flat", "shape", "strides", "size", "ndim", "nbytes", "itemsize", "dtype",
    "data", "base", "flags", "all",
  "any", "argmax", "argmin", "argpartition", "argsort", "astype", "byteswap", "choose", "clip",
    "compress", "conj", "conjugate",
  "copy", "cumprod", "cumsum", "device", "diagonal", "dot", "dump", "dumps", "fill", "getfield",
    "item", "mT", "max", "mean",
  "min", "nonzero", "partition", "prod", "put", "ravel", "repeat", "reshape", "resize", "round",
    "searchsorted", "setfield",
  "setflags", "sort", "squeeze", "std", "sum", "swapaxes", "take", "to_device", "tobytes", "tofile",
    "tolist", "trace",
  "transpose", "var", "view"]

end Member

namespace Plain

variable {α : Type}

def members : Plain α → List String
  | flag _ | integer _ => Member.ofNumbers ++ Member.ofWholes
  | policy _ => Member.ofNumbers ++ Member.ofWholes ++ Member.ofLabels
  | number _ => Member.ofNumbers ++ Member.ofDoubles
  | entry _ => Member.ofArrays ++ Member.ofNumbers ++ Member.ofDoubles
  | text _ => Member.ofSequences ++ Member.ofTexts
  | label _ => Member.ofLabels
  | sequence _ | attached .. => Member.ofSequences ++ Member.ofLists
  | tuple _ => Member.ofSequences
  | array .. | objects _ => Member.ofArrays
  | record _ => Member.ofRecords

def answersTo (value : Plain α) (field : Field) : Bool :=
  (value.members.map Field.ofWord).contains field

/-- The fields of a value that its sort fixes, though it has fields to be
assigned: those of a policy. -/
def fixedFields : Plain α → List Field
  | policy _ => (["real", "imag", "numerator", "denominator"] ++ Member.ofLabels).map Field.ofWord
  | _ => []

end Plain

end ControlHierarchy
