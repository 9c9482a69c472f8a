import DocWeave.Proofs.Expr.Printing

/-!
# What the routines of the grammar read

`Yields` says that a routine succeeds, with what it read and the tokens it left. Each routine of the
grammar has one rule here for every way in which it succeeds, so that a reading is put together from
the readings of its parts.
-/

namespace DocWeave.Expr

/-- The routine read `a` and left `rest`. -/
def Yields {α : Type} {bound : Nat} (o : Outcome α bound) (a : α) (rest : List Placed) : Prop :=
  ∃ h, o = .ok ⟨a, rest, h⟩

/-- A mark comes next. -/
def headIs (m : Mark) : List Placed → Bool
  | ⟨.mark m', _, _⟩ :: _ => m == m'
  | _ => false

theorem skipSeparators_of_headIs {ts : List Placed} (h : headIs .separator ts = false) :
    skipSeparators ts = ts := by
  unfold skipSeparators
  cases ts with
  | nil => rfl
  | cons p tail =>
    obtain ⟨t, spaced, offset⟩ := p
    rw [List.dropWhile_cons]
    cases t with
    | mark m => cases m <;> first | rfl | cases h
    | _ => rfl

theorem expect_yields {m : Mark} (fault : GrammarFault) {b : Bool} {o : Nat}
    {ts rest : List Placed} (h : ts = ⟨.mark m, b, o⟩ :: rest) : Yields (expect m fault ts) () rest := by
  subst h
  exact ⟨by simp, by simp [expect]⟩

/-! ## Operators -/

/-- A level reads its first operand and then goes on with its operators. -/
theorem parseLevel_yields {level : Nat} {ts mid rest : List Placed} {lhs e : Expr}
    (hl : level < levels) (h₁ : Yields (parseLevel (level + 1) ts) lhs mid)
    (h₂ : Yields (parseOperators level lhs mid) e rest) : Yields (parseLevel level ts) e rest := by
  obtain ⟨b₁, h₁⟩ := h₁
  obtain ⟨b₂, h₂⟩ := h₂
  refine ⟨by omega, ?_⟩
  rw [parseLevel, dif_pos hl, h₁]
  show (parseOperators level lhs mid >>= _) = _
  rw [h₂]
  rfl

/-- Behind the last level of operators come the signs. -/
theorem parseLevel_yields_signed {level : Nat} {ts rest : List Placed} {e : Expr}
    (hl : levels ≤ level) (h : Yields (parseSigned ts) e rest) :
    Yields (parseLevel level ts) e rest := by
  obtain ⟨b, h⟩ := h
  refine ⟨b, ?_⟩
  rw [parseLevel, dif_neg (by omega), h]

/-- An operator of the level joins what was read with its right operand. -/
theorem parseOperators_yields {level : Nat} {m : Mark} {op : BinaryOp} {spaced : Bool} {offset : Nat}
    {tail mid rest : List Placed} {lhs rhs e : Expr} (hm : operatorAt? level m = some op)
    (h₁ : Yields (parseLevel (level + 1) tail) rhs mid)
    (h₂ : Yields (parseOperators level (.binary op lhs rhs) mid) e rest) :
    Yields (parseOperators level lhs (⟨.mark m, spaced, offset⟩ :: tail)) e rest := by
  obtain ⟨b₁, h₁⟩ := h₁
  obtain ⟨b₂, h₂⟩ := h₂
  refine ⟨by simp only [List.length_cons]; omega, ?_⟩
  rw [parseOperators]
  simp only [hm]
  rw [h₁]
  show (parseOperators level (.binary op lhs rhs) mid >>= _) = _
  rw [h₂]
  rfl

/-- Without an operator of the level nothing more is read. -/
theorem parseOperators_yields_stop {level : Nat} {ts : List Placed} (e : Expr)
    (h : ∀ m spaced offset tail, ts = ⟨.mark m, spaced, offset⟩ :: tail →
      operatorAt? level m = none) : Yields (parseOperators level e ts) e ts := by
  refine ⟨by omega, ?_⟩
  rw [parseOperators.eq_def]
  split
  · next m spaced offset tail =>
    rw [h m spaced offset tail rfl]
  · rfl

/-! ## Signs and operands -/

theorem parseSigned_yields_neg {spaced : Bool} {offset : Nat} {tail rest : List Placed} {e : Expr}
    (h : Yields (parseSigned tail) e rest) :
    Yields (parseSigned (⟨.mark .minus, spaced, offset⟩ :: tail)) (.neg e) rest := by
  obtain ⟨b, h⟩ := h
  refine ⟨by simp only [List.length_cons]; omega, ?_⟩
  rw [parseSigned, h]
  rfl

theorem parseSigned_yields_not {spaced : Bool} {offset : Nat} {tail rest : List Placed} {e : Expr}
    (h : Yields (parseSigned tail) e rest) :
    Yields (parseSigned (⟨.mark .bang, spaced, offset⟩ :: tail)) (.not e) rest := by
  obtain ⟨b, h⟩ := h
  refine ⟨by simp only [List.length_cons]; omega, ?_⟩
  rw [parseSigned, h]
  rfl

/-- An operand without signs is read with its methods and indices. -/
theorem parseSigned_yields {ts mid rest : List Placed} {e e' : Expr}
    (h₁ : Yields (parsePrimary ts) e mid) (h₂ : Yields (parsePostfix e mid) e' rest) :
    Yields (parseSigned ts) e' rest := by
  obtain ⟨b₁, h₁⟩ := h₁
  obtain ⟨b₂, h₂⟩ := h₂
  refine ⟨by omega, ?_⟩
  rw [parseSigned.eq_def]
  split
  · rw [parsePrimary.eq_def] at h₁; cases h₁
  · rw [parsePrimary.eq_def] at h₁; cases h₁
  · rw [h₁]
    show (parsePostfix e mid >>= _) = _
    rw [h₂]
    rfl

/-! ## Methods and indices -/

/-- Arguments in parentheses behind the name of a call or method. -/
theorem parseCallArgs_yields {offset : Nat} {tail rest : List Placed} {args : List Arg}
    (h : Yields (parseParenArgs (skipSeparators tail)) args rest) :
    Yields (parseCallArgs (⟨.mark .parenOpen, false, offset⟩ :: tail)) args rest := by
  obtain ⟨b, h⟩ := h
  have hs := skipSeparators_length tail
  refine ⟨by simp only [List.length_cons]; omega, ?_⟩
  rw [parseCallArgs, h]
  rfl

/-- A method may have no arguments and no parentheses. -/
theorem parseCallArgs_yields_none {ts : List Placed} (h : parenFollows ts = false) :
    Yields (parseCallArgs ts) [] ts := by
  refine ⟨by omega, ?_⟩
  rw [parseCallArgs.eq_def]
  split
  · cases h
  · rfl

/-- A token that names a method. -/
def namesMethod (name : String) : Token → Prop
  | .ident s => s = name
  | .const s => s = name
  | _ => False

theorem parsePostfix_yields_method {name : String} {t : Token} {b₁ b₂ : Bool} {o₁ o₂ : Nat}
    {tail mid rest : List Placed} {e e' : Expr} {args : List Arg} (ht : namesMethod name t)
    (h₁ : Yields (parseCallArgs tail) args mid)
    (h₂ : Yields (parsePostfix (methodOf e name args) mid) e' rest) :
    Yields (parsePostfix e (⟨.mark .dot, b₁, o₁⟩ :: ⟨t, b₂, o₂⟩ :: tail)) e' rest := by
  obtain ⟨c₁, h₁⟩ := h₁
  obtain ⟨c₂, h₂⟩ := h₂
  refine ⟨by simp only [List.length_cons]; omega, ?_⟩
  cases t with
  | ident s | const s =>
    obtain rfl : s = name := ht
    rw [parsePostfix, h₁]
    show (parsePostfix (methodOf e s args) mid >>= _) = _
    rw [h₂]
    rfl
  | _ => exact ht.elim

theorem parsePostfix_yields_index {o₁ o₂ : Nat} {b : Bool} {tail mid rest : List Placed}
    {e e' place : Expr} (h₁ : Yields (parseLevel 0 tail) place (⟨.mark .bracketClose, b, o₂⟩ :: mid))
    (h₂ : Yields (parsePostfix (.index e place) mid) e' rest) :
    Yields (parsePostfix e (⟨.mark .bracketOpen, false, o₁⟩ :: tail)) e' rest := by
  obtain ⟨c₁, h₁⟩ := h₁
  obtain ⟨c₂, h₂⟩ := h₂
  refine ⟨by simp only [List.length_cons] at c₁ ⊢; omega, ?_⟩
  rw [parsePostfix, h₁]
  show (parsePostfix (.index e place) mid >>= _) = _
  rw [h₂]
  rfl

/-- What follows is neither a method nor an index. -/
def endsPostfix : List Placed → Bool
  | ⟨.mark .dot, _, _⟩ :: _ => false
  | ⟨.mark .bracketOpen, false, _⟩ :: _ => false
  | _ => true

theorem parsePostfix_yields_stop {ts : List Placed} (e : Expr) (h : endsPostfix ts = true) :
    Yields (parsePostfix e ts) e ts := by
  refine ⟨by omega, ?_⟩
  rw [parsePostfix.eq_def]
  split
  · cases h
  · cases h
  · cases h
  · cases h
  · rfl

/-! ## Operands -/

theorem parsePrimary_yields_paren {b₁ b₂ : Bool} {o₁ o₂ : Nat} {tail mid rest : List Placed}
    {e : Expr} (h : Yields (parseLevel 0 (skipSeparators tail)) e mid)
    (hm : skipSeparators mid = ⟨.mark .parenClose, b₂, o₂⟩ :: rest) :
    Yields (parsePrimary (⟨.mark .parenOpen, b₁, o₁⟩ :: tail)) e rest := by
  obtain ⟨c, h⟩ := h
  have h₁ := skipSeparators_length tail
  have h₂ := skipSeparators_length mid
  rw [hm, List.length_cons] at h₂
  refine ⟨by simp only [List.length_cons]; omega, ?_⟩
  obtain ⟨c', hexpect⟩ := expect_yields .parenExpected hm
  rw [parsePrimary, h]
  show (expect .parenClose .parenExpected (skipSeparators mid) >>= _) = _
  rw [hexpect]
  rfl

theorem parsePrimary_yields_array {b : Bool} {o : Nat} {tail rest : List Placed}
    {items : List Expr} (h : Yields (parseItems tail) items rest) :
    Yields (parsePrimary (⟨.mark .bracketOpen, b, o⟩ :: tail)) (.array items) rest := by
  obtain ⟨c, h⟩ := h
  refine ⟨by simp only [List.length_cons]; omega, ?_⟩
  rw [parsePrimary, h]
  rfl

theorem parsePrimary_yields_hash {b : Bool} {o : Nat} {tail rest : List Placed}
    {entries : List (Expr × Expr)} (h : Yields (parseEntries tail) entries rest) :
    Yields (parsePrimary (⟨.mark .braceOpen, b, o⟩ :: tail)) (.hash entries) rest := by
  obtain ⟨c, h⟩ := h
  refine ⟨by simp only [List.length_cons]; omega, ?_⟩
  rw [parsePrimary, h]
  rfl

theorem parsePrimary_yields_const {name path : String} {b : Bool} {o : Nat}
    {tail rest : List Placed} (h : Yields (parsePath name tail) path rest) :
    Yields (parsePrimary (⟨.const name, b, o⟩ :: tail)) (.const path) rest := by
  obtain ⟨c, h⟩ := h
  refine ⟨by simp only [List.length_cons]; omega, ?_⟩
  rw [parsePrimary, h]
  rfl

/-- The value that a token writes out by itself. -/
def literal? : Token → Option Value
  | .str s => some (.str s)
  | .int i => some (.int i)
  | .float x => some (.float x)
  | .symbol s => some (.sym s)
  | .ident name =>
    if name = "nil" then some .nil
    else if name = "true" then some (.bool true)
    else if name = "false" then some (.bool false)
    else none
  | _ => none

theorem parsePrimary_yields_literal {t : Token} {v : Value} (b : Bool) (o : Nat)
    (rest : List Placed) (h : literal? t = some v) :
    Yields (parsePrimary (⟨t, b, o⟩ :: rest)) (.lit v) rest := by
  refine ⟨by simp, ?_⟩
  cases t with
  | str s | int i | float x | symbol s => cases h; rw [parsePrimary]
  | ident name =>
    rw [literal?] at h
    rw [parsePrimary]
    split at h
    · next hn => cases h; rw [if_pos hn]
    · next hn =>
      rw [if_neg hn]
      split at h
      · next hn => cases h; rw [if_pos hn]
      · next hn =>
        rw [if_neg hn]
        split at h
        · next hn => cases h; rw [if_pos hn]
        · cases h
  | const s | label s | mark m => cases h

/-- A name that stands for what is bound to it: none of the words that the grammar treats apart. -/
def isReference (name : String) : Bool :=
  name != "nil" && name != "true" && name != "false" && !isUnsupported name

theorem isReference_iff {name : String} : isReference name = true ↔
    name ≠ "nil" ∧ name ≠ "true" ∧ name ≠ "false" ∧ isUnsupported name = false := by
  simp [isReference, and_assoc]

theorem isReference_of_isPlainName {name : String} (h : isPlainName name = true) :
    isReference name = true := by
  rw [isReference_iff]
  have h : isIdentifier name = true ∧ name ≠ "nil" ∧ name ≠ "true" ∧ name ≠ "false" ∧
      isUnsupported name = false := by
    simpa [isPlainName, and_assoc] using h
  exact h.2

theorem parsePrimary_yields_call {name : String} {b : Bool} {o : Nat} {tail rest : List Placed}
    {args : List Arg} (hn : isReference name = true) (hp : parenFollows tail = true)
    (h : Yields (parseCallArgs tail) args rest) :
    Yields (parsePrimary (⟨.ident name, b, o⟩ :: tail)) (.call name args) rest := by
  obtain ⟨h₁, h₂, h₃, h₄⟩ := isReference_iff.mp hn
  obtain ⟨c, h⟩ := h
  refine ⟨by simp only [List.length_cons]; omega, ?_⟩
  rw [parsePrimary, if_neg h₁, if_neg h₂, if_neg h₃, if_neg (by simp [h₄]), if_pos hp, h]
  rfl

/-- A name and a blank may be followed by arguments without parentheses. -/
theorem parsePrimary_yields_command {name : String} {b : Bool} {o : Nat} {tail rest : List Placed}
    {args : List Arg} (hn : isReference name = true) (hp : parenFollows tail = false)
    (ha : argumentFollows tail = true) (h : Yields (parseCommandArgs tail) args rest) :
    Yields (parsePrimary (⟨.ident name, b, o⟩ :: tail)) (.call name args) rest := by
  obtain ⟨h₁, h₂, h₃, h₄⟩ := isReference_iff.mp hn
  obtain ⟨c, h⟩ := h
  refine ⟨by simp only [List.length_cons]; omega, ?_⟩
  rw [parsePrimary, if_neg h₁, if_neg h₂, if_neg h₃, if_neg (by simp [h₄]), if_neg (by simp [hp]),
    if_pos ha, h]
  rfl

theorem parsePrimary_yields_var {name : String} (b : Bool) (o : Nat) {tail : List Placed}
    (hn : isReference name = true) (hp : parenFollows tail = false)
    (ha : argumentFollows tail = false) :
    Yields (parsePrimary (⟨.ident name, b, o⟩ :: tail)) (.var name) tail := by
  obtain ⟨h₁, h₂, h₃, h₄⟩ := isReference_iff.mp hn
  refine ⟨by simp, ?_⟩
  rw [parsePrimary, if_neg h₁, if_neg h₂, if_neg h₃, if_neg (by simp [h₄]), if_neg (by simp [hp]),
    if_neg (by simp [ha])]

/-! ## Constants -/

theorem parsePath_yields_part {path name path' : String} {b₁ b₂ : Bool} {o₁ o₂ : Nat}
    {tail rest : List Placed} (h : Yields (parsePath (path ++ "::" ++ name) tail) path' rest) :
    Yields (parsePath path (⟨.mark .scope, b₁, o₁⟩ :: ⟨.const name, b₂, o₂⟩ :: tail)) path' rest := by
  obtain ⟨c, h⟩ := h
  refine ⟨by simp only [List.length_cons]; omega, ?_⟩
  change (parsePath (path ++ "::" ++ name) tail >>= _) = _
  rw [h]
  rfl

theorem parsePath_yields_stop (path : String) {ts : List Placed}
    (h : headIs .scope ts = false) : Yields (parsePath path ts) path ts := by
  refine ⟨by omega, ?_⟩
  -- only the mark that is excluded leads on
  cases ts with
  | nil => rfl
  | cons t tail =>
    obtain ⟨token, spaced, offset⟩ := t
    cases token with
    | mark m =>
      cases m with
      | scope => cases h
      | _ => rfl
    | _ => rfl

/-! ## Lists -/

/-- The last item stands before the closing bracket. -/
theorem parseItems_yields_last {b : Bool} {o : Nat} {ts rest : List Placed} {e : Expr}
    (hne : headIs .bracketClose ts = false)
    (h : Yields (parseLevel 0 ts) e (⟨.mark .bracketClose, b, o⟩ :: rest)) :
    Yields (parseItems ts) [e] rest := by
  obtain ⟨c, h⟩ := h
  refine ⟨by simp only [List.length_cons] at c; omega, ?_⟩
  rw [parseItems.eq_def]
  split
  · cases hne
  · rw [h]
    rfl

/-- Behind a comma the items go on. -/
theorem parseItems_yields_cons {b : Bool} {o : Nat} {ts mid rest : List Placed} {e : Expr}
    {es : List Expr} (hne : headIs .bracketClose ts = false)
    (h₁ : Yields (parseLevel 0 ts) e (⟨.mark .comma, b, o⟩ :: mid))
    (h₂ : Yields (parseItems mid) es rest) : Yields (parseItems ts) (e :: es) rest := by
  obtain ⟨c₁, h₁⟩ := h₁
  obtain ⟨c₂, h₂⟩ := h₂
  refine ⟨by simp only [List.length_cons] at c₁; omega, ?_⟩
  rw [parseItems.eq_def]
  split
  · cases hne
  · rw [h₁]
    show (parseItems mid >>= _) = _
    rw [h₂]
    rfl

/-- An entry without a label: a key, an arrow and a value. -/
theorem parseEntry_yields {b : Bool} {o : Nat} {ts mid rest : List Placed} {key e : Expr}
    (hne : ∀ name b o tail, ts ≠ ⟨.label name, b, o⟩ :: tail)
    (h₁ : Yields (parseLevel 0 ts) key (⟨.mark .arrow, b, o⟩ :: mid))
    (h₂ : Yields (parseLevel 0 mid) e rest) : Yields (parseEntry ts) (key, e) rest := by
  obtain ⟨c₁, h₁⟩ := h₁
  obtain ⟨c₂, h₂⟩ := h₂
  refine ⟨by simp only [List.length_cons] at c₁; omega, ?_⟩
  rw [parseEntry.eq_def]
  split
  · exact absurd rfl (hne _ _ _ _)
  · rw [h₁]
    show (parseLevel 0 mid >>= _) = _
    rw [h₂]
    rfl

/-- An entry with a label. -/
theorem parseEntry_yields_label {key : String} {b : Bool} {o : Nat} {tail rest : List Placed}
    {e : Expr} (h : Yields (parseLevel 0 tail) e rest) :
    Yields (parseEntry (⟨.label key, b, o⟩ :: tail)) (.lit (.str key), e) rest := by
  obtain ⟨c, h⟩ := h
  refine ⟨by simp only [List.length_cons]; omega, ?_⟩
  rw [parseEntry, h]
  rfl

theorem parseEntries_yields_last {b : Bool} {o : Nat} {ts rest : List Placed} {entry : Expr × Expr}
    (hne : headIs .braceClose ts = false)
    (h : Yields (parseEntry ts) entry (⟨.mark .braceClose, b, o⟩ :: rest)) :
    Yields (parseEntries ts) [entry] rest := by
  obtain ⟨c, h⟩ := h
  refine ⟨by simp only [List.length_cons] at c; omega, ?_⟩
  rw [parseEntries.eq_def]
  split
  · cases hne
  · rw [h]
    rfl

theorem parseEntries_yields_cons {b : Bool} {o : Nat} {ts mid rest : List Placed}
    {entry : Expr × Expr} {entries : List (Expr × Expr)} (hne : headIs .braceClose ts = false)
    (h₁ : Yields (parseEntry ts) entry (⟨.mark .comma, b, o⟩ :: mid))
    (h₂ : Yields (parseEntries mid) entries rest) :
    Yields (parseEntries ts) (entry :: entries) rest := by
  obtain ⟨c₁, h₁⟩ := h₁
  obtain ⟨c₂, h₂⟩ := h₂
  refine ⟨by simp only [List.length_cons] at c₁; omega, ?_⟩
  rw [parseEntries.eq_def]
  split
  · cases hne
  · rw [h₁]
    show (parseEntries mid >>= _) = _
    rw [h₂]
    rfl

theorem parseArg_yields_keyword {key : String} {b : Bool} {o : Nat} {tail rest : List Placed}
    {e : Expr} (h : Yields (parseLevel 0 tail) e rest) :
    Yields (parseArg (⟨.label key, b, o⟩ :: tail)) (.keyword key e) rest := by
  obtain ⟨c, h⟩ := h
  refine ⟨by simp only [List.length_cons]; omega, ?_⟩
  rw [parseArg, h]
  rfl

theorem parseArg_yields_splat {b : Bool} {o : Nat} {tail rest : List Placed} {e : Expr}
    (h : Yields (parseLevel 0 tail) e rest) :
    Yields (parseArg (⟨.mark .star, b, o⟩ :: tail)) (.splat e) rest := by
  obtain ⟨c, h⟩ := h
  refine ⟨by simp only [List.length_cons]; omega, ?_⟩
  rw [parseArg, h]
  rfl

theorem parseArg_yields_positional {ts rest : List Placed} {e : Expr}
    (hlabel : ∀ name b o tail, ts ≠ ⟨.label name, b, o⟩ :: tail) (hstar : headIs .star ts = false)
    (h : Yields (parseLevel 0 ts) e rest) : Yields (parseArg ts) (.positional e) rest := by
  obtain ⟨c, h⟩ := h
  refine ⟨c, ?_⟩
  rw [parseArg.eq_def]
  split
  · exact absurd rfl (hlabel _ _ _ _)
  · cases hstar
  · rw [h]
    rfl

/-- The last argument stands before the closing parenthesis, with separators between them or not. -/
theorem parseParenArgs_yields_last {b : Bool} {o : Nat} {ts mid rest : List Placed} {arg : Arg}
    (hne : headIs .parenClose ts = false) (h : Yields (parseArg ts) arg mid)
    (hm : skipSeparators mid = ⟨.mark .parenClose, b, o⟩ :: rest) :
    Yields (parseParenArgs ts) [arg] rest := by
  obtain ⟨c, h⟩ := h
  have hs := skipSeparators_length mid
  rw [hm, List.length_cons] at hs
  refine ⟨by omega, ?_⟩
  rw [parseParenArgs.eq_def]
  split
  · cases hne
  · rw [h]
    simp only [bind, Except.bind]
    split
    · next hcomma => rw [hm] at hcomma; cases hcomma
    · obtain ⟨c', hexpect⟩ := expect_yields .parenOrCommaExpected hm
      rw [hexpect]
      rfl

theorem parseParenArgs_yields_cons {b : Bool} {o : Nat} {ts mid next rest : List Placed} {arg : Arg}
    {args : List Arg} (hne : headIs .parenClose ts = false) (h₁ : Yields (parseArg ts) arg mid)
    (hm : skipSeparators mid = ⟨.mark .comma, b, o⟩ :: next)
    (h₂ : Yields (parseParenArgs (skipSeparators next)) args rest) :
    Yields (parseParenArgs ts) (arg :: args) rest := by
  obtain ⟨c₁, h₁⟩ := h₁
  obtain ⟨c₂, h₂⟩ := h₂
  have hs := skipSeparators_length mid
  have hs' := skipSeparators_length next
  rw [hm, List.length_cons] at hs
  refine ⟨by omega, ?_⟩
  rw [parseParenArgs.eq_def]
  split
  · cases hne
  · rw [h₁]
    simp only [bind, Except.bind]
    split
    · next hcomma =>
      rw [hm] at hcomma
      cases hcomma
      rw [h₂]
      rfl
    · next hcomma => exact absurd hm (hcomma _ _ _)

theorem parseCommandArgs_yields_last {ts rest : List Placed} {arg : Arg}
    (h : Yields (parseArg ts) arg rest) (hr : headIs .comma rest = false) :
    Yields (parseCommandArgs ts) [arg] rest := by
  obtain ⟨c, h⟩ := h
  refine ⟨c, ?_⟩
  rw [parseCommandArgs, h]
  simp only [bind, Except.bind]
  split
  · cases hr
  · rfl

theorem parseCommandArgs_yields_cons {b : Bool} {o : Nat} {ts mid rest : List Placed} {arg : Arg}
    {args : List Arg} (h₁ : Yields (parseArg ts) arg (⟨.mark .comma, b, o⟩ :: mid))
    (h₂ : Yields (parseCommandArgs mid) args rest) :
    Yields (parseCommandArgs ts) (arg :: args) rest := by
  obtain ⟨c₁, h₁⟩ := h₁
  obtain ⟨c₂, h₂⟩ := h₂
  refine ⟨by simp only [List.length_cons] at c₁; omega, ?_⟩
  rw [parseCommandArgs, h₁]
  simp only [bind, Except.bind]
  rw [h₂]
  rfl

end DocWeave.Expr
