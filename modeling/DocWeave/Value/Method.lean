import DocWeave.EvalError
import DocWeave.Value.Json
import DocWeave.Value.Order

/-!
# Methods, indexing and arithmetic of values

Integer arithmetic is exact or fails: a result outside 64 bits is an error, never a wrapped number.
An operation on an integer and a float is done in floats. Where the sort promises nothing, `sort`, `max`
and `min` fail.
-/

namespace DocWeave.Value

open DocWeave.Text

/-! ## Methods -/

/-- The text of a string or symbol; no other value has the method. -/
def textFor (method : String) (v : Value) : Except EvalError String :=
  match v.text? with
  | some s => .ok s
  | none => .error (.undefinedMethod method v.typeName)

/-- A string made from the text of a string or symbol. -/
def mapText (method : String) (v : Value) (f : List Char → List Char) : Except EvalError Value :=
  (v.textFor method).map fun s => .str (String.ofList (f s.toList))

/-- `value.method(args)`. -/
def send (v : Value) (method : String) (args : List Value) : Except EvalError Value :=
  let unsupported : Except EvalError Value := .error (.undefinedMethod method v.typeName)
  let onArray (f : List Value → Value) : Except EvalError Value :=
    match v with
    | .array items => .ok (f items)
    | _ => unsupported
  let onSorted (f : List Value → Value) : Except EvalError Value :=
    match v with
    | .array items =>
      match sorted? items with
      | some done => .ok (f done)
      | none => .error .noTotalOrder
    | _ => unsupported
  let onHash (f : List (String × Value) → Value) : Except EvalError Value :=
    match v with
    | .hash entries => .ok (f entries)
    | _ => unsupported
  match method with
  | "to_s" => .ok (.str v.display)
  | "inspect" => .ok (.str v.inspect)
  | "to_json" => .ok (.str v.toJson)
  | "to_sym" => (v.textFor method).map .sym
  | "nil?" => .ok (.bool v.isNil)
  | "upcase" => v.mapText method upper
  | "downcase" => v.mapText method lower
  | "strip" => v.mapText method trim
  | "humanize" => v.mapText method (Inflection.humanized · true)
  | "titleize" => v.mapText method Inflection.titleized
  | "underscore" => v.mapText method Inflection.underscored
  | "dasherize" => v.mapText method Inflection.dasherized
  | "size" | "length" | "count" =>
    match v with
    | .str s => .ok (.int (Int64.ofNat s.length))
    | .array items => .ok (.int (Int64.ofNat items.length))
    | .hash entries => .ok (.int (Int64.ofNat entries.length))
    | _ => unsupported
  | "first" => onArray fun items => items.head?.getD .nil
  | "last" => onArray fun items => items.getLast?.getD .nil
  | "keys" => onHash fun entries => .array (entries.map fun e => .str e.1)
  | "values" => onHash fun entries => .array (entries.map (·.2))
  | "join" => onArray fun items =>
    let separator := (args.head?.bind text?).getD ""
    .str (separator.intercalate (items.map display))
  | "reverse" =>
    match v with
    | .array items => .ok (.array items.reverse)
    | .str s => .ok (.str (String.ofList s.toList.reverse))
    | _ => unsupported
  | "sort" => onSorted .array
  | "max" => onSorted fun done => done.getLast?.getD .nil
  | "min" => onSorted fun done => done.head?.getD .nil
  | _ => unsupported

/-- `value[index]`: an array counts from its end for a negative index; what is not there is `nil`. -/
def index (v i : Value) : Except EvalError Value :=
  match v, i with
  | .array items, .int i =>
    let place := if i.toInt < 0 then Int.ofNat items.length + i.toInt else i.toInt
    .ok (if place < 0 then .nil else items[place.toNat]?.getD .nil)
  | .hash entries, key => .ok (((key.text?).bind fun k => OrderedMap.get? entries k).getD .nil)
  | _, _ => .error (.notIndexable v.typeName i.typeName)

/-! ## Arithmetic -/

/-- The integer, if it fits into 64 bits. -/
def fit? (n : Int) : Option Int64 :=
  if Int64.minValue.toInt ≤ n ∧ n ≤ Int64.maxValue.toInt then some (Int64.ofInt n) else none

/-- The arithmetic operations. -/
inductive Arith where
  | add
  | sub
  | mul
deriving DecidableEq, Repr

namespace Arith

/-- The sign of an operation. -/
def sign : Arith → String
  | .add => "+"
  | .sub => "-"
  | .mul => "*"

/-- The operation on integers. -/
def onInt : Arith → Int → Int → Int
  | .add => (· + ·)
  | .sub => (· - ·)
  | .mul => (· * ·)

/-- The operation on floats. -/
def onFloat : Arith → Float → Float → Float
  | .add => (· + ·)
  | .sub => (· - ·)
  | .mul => (· * ·)

end Arith

/-- An operation on two numbers. -/
def arith (op : Arith) (a b : Value) : Except EvalError Value :=
  match a, b with
  | .int x, .int y =>
    match fit? (op.onInt x.toInt y.toInt) with
    | some n => .ok (.int n)
    | none => .error (.overflow x.toInt op.sign y.toInt)
  | .int x, .float y => .ok (.float (op.onFloat x.toFloat y))
  | .float x, .int y => .ok (.float (op.onFloat x y.toFloat))
  | .float x, .float y => .ok (.float (op.onFloat x y))
  | _, _ => .error (.noConversion b.typeName a.typeName op.sign)

/-- Addition; strings and arrays are joined. -/
def add (a b : Value) : Except EvalError Value :=
  match a, b with
  | .str s, .str t => .ok (.str (s ++ t))
  | .array xs, .array ys => .ok (.array (xs ++ ys))
  | _, _ => arith .add a b

/-- Subtraction. -/
def sub (a b : Value) : Except EvalError Value := arith .sub a b

/-- Multiplication. -/
def mul (a b : Value) : Except EvalError Value := arith .mul a b

/-- Change of sign. The least integer is its own negative. -/
def neg : Value → Except EvalError Value
  | .int i => .ok (.int (-i))
  | .float x => .ok (.float (-x))
  | v => .error (.undefinedMethod "-@" v.typeName)

/-- Equality, with integers and floats compared as floats. -/
def equal (a b : Value) : Bool :=
  match a, b with
  | .int x, .float y => x.toFloat == y
  | .float x, .int y => y.toFloat == x
  | _, _ => same a b

/-- The order of two numbers or two strings. -/
def compare (a b : Value) : Except EvalError Ordering :=
  let refusal : EvalError := .incomparable a.typeName b.typeName
  match a, b with
  | .str s, .str t => .ok (Ord.compare s t)
  | _, _ =>
    match compareNumbers? a b with
    | some (some o) => .ok o
    | _ => .error refusal

end DocWeave.Value
