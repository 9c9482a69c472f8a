import DocWeave.OrderedMap

/-!
# Items of a TOML document

A document is a table of items. How a table came about decides what may be added to it later, so tables
remember it.
-/

namespace DocWeave.Toml

/-- How a table was written. -/
inductive TableForm where
  /-- Between braces; nothing can be added. -/
  | inline
  /-- Under a header of its own. -/
  | header
  /-- Only as part of the path in the header of another table. -/
  | implied
  /-- By the dots in a key. -/
  | dotted
deriving DecidableEq, Repr

/-- What a key stands for. -/
inductive Item where
  | string (s : String)
  | integer (n : Int64)
  | float (x : Float)
  | boolean (b : Bool)
  /-- A date, a time or both, in normal form. -/
  | moment (s : String)
  | array (items : List Item)
  | table (form : TableForm) (entries : List (String × Item))
  /-- Tables under one repeated header; never empty. -/
  | tables (elements : List Item)
deriving Inhabited

/-- The entries of a table in their order. -/
abbrev TableBody := OrderedMap String Item

end DocWeave.Toml
