/-!
# JSON values

The values that queries are written out as.  An object holds its fields in the order in
which they are written.
-/

namespace RecordQuery

/-- A JSON value. -/
inductive Json where
  | null
  | integer (value : Int)
  | string (text : String)
  | array (items : List Json)
  | object (fields : List (String × Json))

end RecordQuery
