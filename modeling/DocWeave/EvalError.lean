import DocWeave.Expr.SyntaxError

/-!
# Failures of evaluation

Everything that can go wrong while an expression is read and evaluated, by cause. The wording is in
`EvalError.message` alone.
-/

namespace DocWeave

/-- Why an expression has no value. -/
inductive EvalError where
  /-- The text is no expression or program. -/
  | malformed (fault : Expr.SyntaxError)
  /-- A value has no method of this name. -/
  | undefinedMethod (name type : String)
  /-- A value cannot be indexed with another. -/
  | notIndexable (type index : String)
  /-- The result does not fit into 64 bits. -/
  | overflow (lhs : Int) (op : String) (rhs : Int)
  /-- The operands do not go together. -/
  | noConversion (source target op : String)
  /-- The operands have no order. -/
  | incomparable (lhs rhs : String)
  /-- More items are sorted than may be sorted by an order that is not total on them. What the sort does
  there is left open; it may stop the program, which it does in these words. -/
  | noTotalOrder
  /-- An argument is no text. -/
  | argumentNotText (callee : String) (place : Nat) (type : String)
  /-- An argument is missing. -/
  | tooFewArguments (callee : String) (given needed : Nat)
  /-- An option is missing. -/
  | missingKeyword (callee key : String)
  /-- The first argument has the wrong shape. -/
  | wrongArgument (callee complaint : String)
  /-- No member is being documented that could be meant. -/
  | noCurrentMember (callee : String)
  /-- Doc blocks include each other too deeply. -/
  | nestedTooDeep (limit : Nat) (reference : String)
  /-- A name means nothing in a subject. -/
  | undefinedName (name subject : String)
  /-- A constant means nothing. -/
  | uninitializedConstant (path : String)
  /-- A tag is opened on this line of the template and never closed. -/
  | unterminatedTag (line : Nat)
  /-- A name stands where only literals may. -/
  | notLiteral (text : String)
  /-- An environment refuses in its own words. -/
  | refused (reason : String)

/-- The wording of a failure. -/
def EvalError.message : EvalError → String
  | .malformed fault => fault.message
  | .undefinedMethod name type => "undefined method `" ++ name ++ "' for " ++ type
  | .notIndexable type index => "cannot index " ++ type ++ " with " ++ index
  | .overflow lhs op rhs => s!"integer overflow in {lhs} {op} {rhs}"
  | .noConversion source target op =>
    "no implicit conversion of " ++ source ++ " into " ++ target ++ " for `" ++ op ++ "'"
  | .incomparable lhs rhs => "comparison of " ++ lhs ++ " with " ++ rhs ++ " failed"
  | .noTotalOrder =>
    "user-provided comparison function does not correctly implement a total order"
  | .argumentNotText callee place type =>
    s!"{callee}: expected a string for argument {place}, got {type}"
  | .tooFewArguments callee given needed =>
    s!"{callee}: wrong number of arguments (given {given}, expected at least {needed})"
  | .missingKeyword callee key => s!"{callee}: missing keyword: :{key}"
  | .wrongArgument callee complaint => s!"{callee}: {complaint}"
  | .noCurrentMember callee => s!"{callee}: no reference given outside a member block"
  | .nestedTooDeep limit reference =>
    s!"doc blocks nested deeper than {limit} levels at {reference}"
  | .undefinedName name subject =>
    "undefined local variable or method `" ++ name ++ "' for " ++ subject
  | .uninitializedConstant path => s!"uninitialized constant {path}"
  | .unterminatedTag line => s!"unterminated `<%` tag on template line {line}"
  | .notLiteral text => s!"`{text}` is not a literal"
  | .refused reason => reason

end DocWeave
