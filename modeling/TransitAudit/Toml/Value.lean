/-!
TOML values and documents. A document is a list of statements, which are put together to one table.
-/

namespace TransitAudit.Toml

inductive Value where
  | string (s : String)
  | integer (i : Int)
  | real (x : Float)
  | bool (b : Bool)
  /-- A date, a time or both, in normal form. -/
  | moment (text : String)
  | array (elements : List Value)
  | table (members : List (String × Value))
deriving Inhabited

/-- A text that is no TOML document. -/
inductive Fault where
  | malformed
  | defined
deriving DecidableEq, Repr

/-- How a table came about: on the way to another one, by keys with dots, or by a header of its
own. -/
inductive Origin where
  | passed
  | dotted
  | header
deriving DecidableEq, Repr

/-- What a key stands for while a document is put together. Values cannot be extended. -/
inductive Entry where
  | value (v : Value)
  | table (origin : Origin) (entries : List (String × Entry))
  /-- The tables under one header in double brackets, the latest first. -/
  | tables (latest : List (String × Entry)) (earlier : List (List (String × Entry)))

/-- A line of a document. -/
inductive Statement where
  | header (path : List String)
  | listHeader (path : List String)
  | assignment (path : List String) (v : Value)

end TransitAudit.Toml
