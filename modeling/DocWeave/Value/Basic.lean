import DocWeave.OrderedMap

/-!
# Values

What an expression evaluates to. Integers have 64 bits. A `hash` keeps its keys in the order in which
they came; no key occurs twice in a hash that `Value.hashOf` builds. `code` is source text that stands
for itself because it could not be evaluated.
-/

namespace DocWeave

/-- A template value. -/
inductive Value where
  | nil
  | bool (b : Bool)
  | int (i : Int64)
  | float (x : Float)
  | str (s : String)
  | sym (s : String)
  | code (s : String)
  | array (items : List Value)
  | hash (entries : List (String × Value))
deriving Inhabited

namespace Value

/-- A hash with the given entries, a later one replacing an earlier one of the same key. -/
def hashOf (entries : List (String × Value)) : Value := .hash (OrderedMap.ofList entries)

/-- The name of the value's type in messages. -/
def typeName : Value → String
  | .nil => "nil"
  | .bool _ => "boolean"
  | .int _ => "integer"
  | .float _ => "float"
  | .str _ => "string"
  | .sym _ => "symbol"
  | .array _ => "array"
  | .hash _ => "hash"
  | .code _ => "expression"

/-- The value is `nil`. -/
def isNil : Value → Bool
  | .nil => true
  | _ => false

/-- Everything but `nil` and `false` counts as true. -/
def truthy : Value → Bool
  | .nil | .bool false => false
  | _ => true

/-- The text of a string or symbol. -/
def text? : Value → Option String
  | .str s | .sym s => some s
  | _ => none

/-! ## Equality

Floats are equal as numbers, so a "not a number" differs from itself and both zeros are equal. Hashes
are equal when they have the same keys with equal values, in whatever order. -/

mutual

/-- Two values are equal and of the same type. -/
def same : Value → Value → Bool
  | .nil, .nil => true
  | .bool a, .bool b => a == b
  | .int a, .int b => a == b
  | .float a, .float b => a == b
  | .str a, .str b => a == b
  | .sym a, .sym b => a == b
  | .code a, .code b => a == b
  | .array as, .array bs => sameItems as bs
  | .hash as, .hash bs => as.length == bs.length && sameEntries as bs
  | _, _ => false

/-- Two lists have equal items at equal places. -/
def sameItems : List Value → List Value → Bool
  | [], [] => true
  | a :: as, b :: bs => same a b && sameItems as bs
  | _, _ => false

/-- Every entry of the first list has an equal value at its key in the second. -/
def sameEntries : List (String × Value) → List (String × Value) → Bool
  | [], _ => true
  | (k, a) :: rest, bs =>
    (match OrderedMap.get? bs k with
      | some b => same a b
      | none => false) && sameEntries rest bs

end

end Value

/-- Locals, constants, stubs: values by name. -/
abbrev Bindings := OrderedMap String Value

end DocWeave
