import Uwebfilter.CStrings

/-!
# JSON values as json-c presents them

A parsed document, and the accessors of json-c the daemon reads it with.  A
JSON `null` is the `NULL` pointer.
-/

namespace Uwebfilter

open CStrings

/-- A parsed JSON document.  A number with a fraction or an exponent keeps its
text. -/
inductive Json
  | null
  | bool (value : Bool)
  | int (value : Int)
  | double (text : Bytes)
  | string (value : Bytes)
  | array (elements : List Json)
  | object (members : List (Bytes × Json))

namespace Json

/-- A pointer to the value, where it is not `NULL`. -/
def nonNull : Json → Option Json
  | .null => none
  | value => some value

/-- `json_object_object_get`: a later member of a name replaces an earlier one,
and what is not an object has no members. -/
def objectGet : Json → Bytes → Option Json
  | .object members, key =>
      (members.reverse.find? fun member => member.1 = key).bind fun member => member.2.nonNull
  | _, _ => none

/-- `json_object_array_length` and `json_object_array_get_idx`, whose assertion
fails for what is not an array. -/
def arrayElements : Json → Option (List Json)
  | .array elements => some elements
  | _ => none

end Json

/-- The conversions of json-c between kinds of values, of which only those the
callers rely on are laid down. -/
structure JsonC where
  getInt : Json → Int
  getInt64 : Json → Int
  getString : Json → Bytes
  getInt_int : ∀ value, getInt (.int value) = max (-2147483648) (min 2147483647 value)
  getInt64_int : ∀ value, getInt64 (.int value) =
    max (-9223372036854775808) (min 9223372036854775807 value)
  getString_string : ∀ value, getString (.string value) = cString value

namespace JsonC

variable (jsonC : JsonC)

theorem getInt_of_bounds {value : Int} (above : -2147483648 ≤ value)
    (below : value ≤ 2147483647) : jsonC.getInt (.int value) = value := by
  rw [jsonC.getInt_int]
  omega

theorem getInt64_of_bounds {value : Int} (above : -9223372036854775808 ≤ value)
    (below : value ≤ 9223372036854775807) : jsonC.getInt64 (.int value) = value := by
  rw [jsonC.getInt64_int]
  omega

theorem getString_of_nulFree {value : Bytes} (nulFree : 0 ∉ value) :
    jsonC.getString (.string value) = value := by
  rw [jsonC.getString_string, cString_of_nulFree nulFree]

end JsonC

/-- The conversions on values of their own kind; others read as zero or empty. -/
def plainJsonC : JsonC where
  getInt
    | .int value => max (-2147483648) (min 2147483647 value)
    | _ => 0
  getInt64
    | .int value => max (-9223372036854775808) (min 9223372036854775807 value)
    | _ => 0
  getString
    | .string value => cString value
    | _ => []
  getInt_int _ := rfl
  getInt64_int _ := rfl
  getString_string _ := rfl

end Uwebfilter
