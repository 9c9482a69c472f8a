import DocWeave.Decimal.Reading
import DocWeave.Expr.SyntaxError
import DocWeave.Value.Method

/-!
# Cutting text into tokens

`lexOne` cuts the word that starts with a given character; `lexFrom` goes through the text and keeps
the byte offset, the bracket depth and the last token. A line end or `;` is a separator only outside
brackets, behind at least one token, and not behind a token after which an expression must go on.
Comments run from `#` to the end of the line.
-/

namespace DocWeave.Expr

open DocWeave.Text

/-! ## Classes of characters -/

/-- A character that may begin a name. -/
def isNameStart (c : Char) : Bool := c.isLower || c == '_' || c == '@'

/-- A character that may go on in a name. -/
def isNameInner (c : Char) : Bool := c.isAlphanum || c == '_'

/-- A digit or a digit separator. -/
def isNumberChar (c : Char) : Bool := c.isDigit || c == '_'

/-! ## Words -/

/-- A run of digits without its separators, and what follows it. -/
def takeNumber (s : List Char) : List Char × List Char :=
  ((s.takeWhile isNumberChar).filter (· != '_'), s.dropWhile isNumberChar)

/-- What an escape inside quotes stands for: line end and tab in double quotes, a backslash and the
quote itself in both. -/
def unescape (quote next : Char) : Option Char :=
  if quote = '"' ∧ next = 'n' then some '\n'
  else if quote = '"' ∧ next = 't' then some '\t'
  else if next = '\\' then some '\\'
  else if next = quote then some next
  else none

/-- The text up to the closing quote, and what follows it. A backslash that escapes nothing stands
for itself. -/
def takeString (quote : Char) : List Char → Option (List Char × List Char)
  | [] => none
  | [c] => if c = quote then some ([], []) else none
  | c :: d :: s =>
    if c = quote then some ([], d :: s)
    else match (if c = '\\' then unescape quote d else none) with
      | some e => (takeString quote s).map fun (text, rest) => (e :: text, rest)
      | none => (takeString quote (d :: s)).map fun (text, rest) => (c :: text, rest)

/-- One of `?` and `!`, if it comes next and `=` does not follow it. -/
def takeNameEnd : List Char → List Char × List Char
  | c :: s =>
    if (c == '?' || c == '!') && s.head? != some '=' then ([c], s) else ([], c :: s)
  | [] => ([], [])

/-- One of `?` and `!`, if it comes next. -/
def takeSymbolEnd : List Char → List Char × List Char
  | c :: s => if c == '?' || c == '!' then ([c], s) else ([], c :: s)
  | [] => ([], [])

/-- A number that begins with the digit `c`. -/
def lexNumber (c : Char) (s : List Char) : Except LexicalFault (Token × List Char) :=
  let (whole, rest) := takeNumber (c :: s)
  match rest with
  | '.' :: d :: tail =>
    if d.isDigit then
      let (fraction, rest) := takeNumber (d :: tail)
      .ok (.float (Decimal.toFloat whole fraction 0), rest)
    else integer whole rest
  | _ => integer whole rest
where
  /-- The integer with the given digits, if it fits into 64 bits. -/
  integer (digits rest : List Char) : Except LexicalFault (Token × List Char) :=
    match Value.fit? (Int.ofNat (Decimal.ofDigits digits)) with
    | some i => .ok (.int i, rest)
    | none => .error .integerTooLarge

/-- A name, or a label when a single colon follows. -/
def lexName (c : Char) (s : List Char) : Token × List Char :=
  let inner := s.takeWhile isNameInner
  let (last, rest) := takeNameEnd (s.dropWhile isNameInner)
  let name := String.ofList (c :: inner ++ last)
  match rest with
  | ':' :: ':' :: _ => (.ident name, rest)
  | ':' :: tail => (.label name, tail)
  | _ => (.ident name, rest)

/-- A symbol whose name follows the colon. -/
def lexSymbol (s : List Char) : Token × List Char :=
  let inner := s.takeWhile isNameInner
  let (last, rest) := takeSymbolEnd (s.dropWhile isNameInner)
  (.symbol (String.ofList (inner ++ last)), rest)

/-- An operator of two characters. -/
def mark2? (c d : Char) : Option Mark :=
  match c, d with
  | '=', '>' => some .arrow
  | '=', '=' => some .equal
  | '!', '=' => some .notEqual
  | '<', '=' => some .lessEqual
  | '>', '=' => some .greaterEqual
  | '&', '&' => some .both
  | '|', '|' => some .either
  | _, _ => none

/-- A mark of one character. -/
def mark1? : Char → Option Mark
  | '(' => some .parenOpen
  | ')' => some .parenClose
  | '[' => some .bracketOpen
  | ']' => some .bracketClose
  | '\x7b' => some .braceOpen
  | '\x7d' => some .braceClose
  | ',' => some .comma
  | '.' => some .dot
  | '+' => some .plus
  | '-' => some .minus
  | '*' => some .star
  | '!' => some .bang
  | '=' => some .assign
  | '<' => some .less
  | '>' => some .greater
  | _ => none

/-- A mark that begins with `c`. -/
def lexMark (c : Char) (s : List Char) : Except LexicalFault (Token × List Char) :=
  match s with
  | d :: rest =>
    match mark2? c d with
    | some m => .ok (.mark m, rest)
    | none => single c s
  | [] => single c s
where
  /-- A mark of one character. -/
  single (c : Char) (s : List Char) : Except LexicalFault (Token × List Char) :=
    match mark1? c with
    | some m => .ok (.mark m, s)
    | none => .error (.unexpectedCharacter c)

/-- A word that begins with a colon. -/
def lexColon (s : List Char) : Except (Nat × LexicalFault) (Token × List Char) :=
  match s with
  | ':' :: rest => .ok (.mark .scope, rest)
  | d :: rest =>
    if isNameStart d || d.isUpper then .ok (lexSymbol (d :: rest))
    else if d = '"' ∨ d = '\'' then
      match takeString d rest with
      | some (text, tail) => .ok (.symbol (String.ofList text), tail)
      | none => .error (1, .unterminatedString)
    else .error (0, .unexpectedCharacter ':')
  | [] => .error (0, .unexpectedCharacter ':')

/-- The word that begins with `c`, and what follows it. A failure says how many bytes behind the
word's start it lies. -/
def lexOne (c : Char) (s : List Char) : Except (Nat × LexicalFault) (Token × List Char) :=
  if c = '"' ∨ c = '\'' then
    match takeString c s with
    | some (text, rest) => .ok (.str (String.ofList text), rest)
    | none => .error (0, .unterminatedString)
  else if c.isDigit then (lexNumber c s).mapError fun fault => (0, fault)
  else if isNameStart c then .ok (lexName c s)
  else if c.isUpper then
    .ok (.const (String.ofList (c :: s.takeWhile isNameInner)), s.dropWhile isNameInner)
  else if c = ':' then lexColon s
  else (lexMark c s).mapError fun fault => (0, fault)

/-! ## What is left is behind what was taken -/

theorem takeString_suffix {quote : Char} {s text rest : List Char}
    (h : takeString quote s = some (text, rest)) : rest <:+ s := by
  fun_induction takeString quote s generalizing text with
  | case1 => simp at h
  | case2 => simp at h; simp [h]
  | case3 => simp at h
  | case4 d s =>
    simp only [Option.some.injEq, Prod.mk.injEq] at h
    exact h.2 ▸ List.suffix_cons _ _
  | case5 c d s _ e _ ih =>
    simp only [Option.map_eq_some_iff, Prod.mk.injEq, Prod.exists] at h
    obtain ⟨t, r, hs, rfl, rfl⟩ := h
    exact ((ih hs).trans (List.suffix_cons _ _)).trans (List.suffix_cons _ _)
  | case6 c d s _ _ ih =>
    simp only [Option.map_eq_some_iff, Prod.mk.injEq, Prod.exists] at h
    obtain ⟨t, r, hs, rfl, rfl⟩ := h
    exact (ih hs).trans (List.suffix_cons _ _)

theorem takeNameEnd_suffix (s : List Char) : (takeNameEnd s).2 <:+ s := by
  fun_cases takeNameEnd s <;> simp

theorem takeSymbolEnd_suffix (s : List Char) : (takeSymbolEnd s).2 <:+ s := by
  fun_cases takeSymbolEnd s <;> simp

theorem lexNumber_integer_suffix {digits rest rest' : List Char} {t : Token}
    (h : lexNumber.integer digits rest = .ok (t, rest')) : rest' <:+ rest := by
  simp only [lexNumber.integer] at h
  split at h
  · simp only [Except.ok.injEq, Prod.mk.injEq] at h; simp [h.2]
  · simp at h

/-- A run that begins with `c` leaves a tail of what follows `c`. -/
theorem dropWhile_cons_suffix {p : Char → Bool} {c : Char} {s : List Char} (h : p c = true) :
    (c :: s).dropWhile p <:+ s := by
  simpa [List.dropWhile, h] using List.dropWhile_suffix p

theorem lexNumber_suffix {c : Char} {s rest : List Char} {t : Token} (hc : c.isDigit = true)
    (h : lexNumber c s = .ok (t, rest)) : rest <:+ s := by
  have hn : isNumberChar c = true := by simp [isNumberChar, hc]
  have hw : (takeNumber (c :: s)).2 <:+ s := dropWhile_cons_suffix hn
  simp only [lexNumber] at h
  split at h
  · next d tail hr =>
    split at h
    · next hd =>
      simp only [Except.ok.injEq, Prod.mk.injEq] at h
      have h1 : isNumberChar d = true := by simp [isNumberChar, hd]
      have h2 : (takeNumber (d :: tail)).2 <:+ tail := dropWhile_cons_suffix h1
      rw [hr] at hw
      rw [← h.2]
      exact (h2.trans (List.suffix_cons _ _)).trans ((List.suffix_cons _ _).trans hw)
    · exact (lexNumber_integer_suffix h).trans hw
  · exact (lexNumber_integer_suffix h).trans hw

theorem lexName_suffix (c : Char) (s : List Char) : (lexName c s).2 <:+ s := by
  have hs : (takeNameEnd (s.dropWhile isNameInner)).2 <:+ s :=
    (takeNameEnd_suffix _).trans (List.dropWhile_suffix _)
  simp only [lexName]
  split
  · exact hs
  · next h => rw [h] at hs; exact (List.suffix_cons _ _).trans hs
  · exact hs

theorem lexSymbol_suffix (s : List Char) : (lexSymbol s).2 <:+ s :=
  (takeSymbolEnd_suffix _).trans (List.dropWhile_suffix _)

theorem lexMark_single_suffix {c : Char} {s rest : List Char} {t : Token}
    (h : lexMark.single c s = .ok (t, rest)) : rest <:+ s := by
  simp only [lexMark.single] at h
  split at h
  · simp only [Except.ok.injEq, Prod.mk.injEq] at h; simp [h.2]
  · simp at h

theorem lexMark_suffix {c : Char} {s rest : List Char} {t : Token}
    (h : lexMark c s = .ok (t, rest)) : rest <:+ s := by
  simp only [lexMark] at h
  split at h
  · split at h
    · simp only [Except.ok.injEq, Prod.mk.injEq] at h
      exact h.2 ▸ List.suffix_cons _ _
    · exact lexMark_single_suffix h
  · exact lexMark_single_suffix h

theorem lexColon_suffix {s rest : List Char} {t : Token}
    (h : lexColon s = .ok (t, rest)) : rest <:+ s := by
  simp only [lexColon] at h
  split at h
  · simp only [Except.ok.injEq, Prod.mk.injEq] at h
    exact h.2 ▸ List.suffix_cons _ _
  · next d tail _ =>
    split at h
    · simp only [Except.ok.injEq] at h
      simpa [h] using lexSymbol_suffix (d :: tail)
    · split at h
      · split at h
        · next hs =>
          simp only [Except.ok.injEq, Prod.mk.injEq] at h
          exact h.2 ▸ (takeString_suffix hs).trans (List.suffix_cons _ _)
        · simp at h
      · simp at h
  · simp at h

/-- Cutting out a word that begins with `c` leaves a tail of what follows `c`. -/
theorem lexOne_suffix {c : Char} {s rest : List Char} {t : Token}
    (h : lexOne c s = .ok (t, rest)) : rest <:+ s := by
  simp only [lexOne] at h
  split at h
  · split at h
    · next hs =>
      simp only [Except.ok.injEq, Prod.mk.injEq] at h
      exact h.2 ▸ takeString_suffix hs
    · simp at h
  · split at h
    · next hd =>
      cases hn : lexNumber c s with
      | error e => rw [hn] at h; cases h
      | ok p =>
        rw [hn] at h
        exact lexNumber_suffix hd (Except.ok.inj h ▸ hn)
    · split at h
      · simp only [Except.ok.injEq] at h
        simpa [h] using lexName_suffix c s
      · split at h
        · simp only [Except.ok.injEq, Prod.mk.injEq] at h
          exact h.2 ▸ List.dropWhile_suffix _
        · split at h
          · exact lexColon_suffix h
          · cases hn : lexMark c s with
            | error e => rw [hn] at h; cases h
            | ok p =>
              rw [hn] at h
              exact lexMark_suffix (Except.ok.inj h ▸ hn)

/-! ## The whole text -/

/-- A token after which an expression must go on, or another separator. -/
def absorbsLineEnd : Token → Bool
  | .mark m =>
    match m with
    | .comma | .plus | .minus | .star | .arrow | .assign | .both | .either | .dot | .separator => true
    | _ => false
  | _ => false

/-- The bracket depth behind a token. -/
def depthAfter (depth : Nat) : Token → Nat
  | .mark .parenOpen | .mark .bracketOpen | .mark .braceOpen => depth + 1
  | .mark .parenClose | .mark .bracketClose | .mark .braceClose => depth - 1
  | _ => depth

/-- The number of bytes of a text. -/
def byteLength (s : List Char) : Nat := s.foldr (fun c n => c.utf8Size + n) 0

/-- The tokens of a text that starts at the byte `offset`, inside `depth` brackets, behind the token
`last` if there is one and behind a blank if `spaced` says so. -/
def lexFrom (offset depth : Nat) (spaced : Bool) (last : Option Token) (s : List Char) :
    Except SyntaxError (List Placed) :=
  match s with
  | [] => .ok []
  | c :: rest =>
    if c = ' ' ∨ c = '\t' ∨ c = '\r' then lexFrom (offset + 1) depth true last rest
    else if c = '#' then
      let tail := rest.dropWhile (· != '\n')
      lexFrom (offset + c.utf8Size + byteLength (rest.takeWhile (· != '\n'))) depth spaced last tail
    else if c = '\n' ∨ c = ';' then
      if depth = 0 ∧ last.any (!absorbsLineEnd ·) = true then do
        let tokens ← lexFrom (offset + 1) depth true (some (.mark .separator)) rest
        return ⟨.mark .separator, spaced, offset⟩ :: tokens
      else lexFrom (offset + 1) depth true last rest
    else
      match _h : lexOne c rest with
      | .error (n, fault) => .error (.lexical (offset + n) fault)
      | .ok (t, tail) => do
        let taken := byteLength ((c :: rest).take (rest.length + 1 - tail.length))
        let tokens ← lexFrom (offset + taken) (depthAfter depth t) false (some t) tail
        return ⟨t, spaced, offset⟩ :: tokens
termination_by s.length
decreasing_by
  all_goals simp only [List.length_cons]
  · omega
  · have := (List.dropWhile_suffix (l := rest) (· != '\n')).length_le; omega
  · omega
  · omega
  · have := (lexOne_suffix _h).length_le; omega

/-- A separator token. -/
def Placed.isSeparator (p : Placed) : Bool :=
  match p.token with
  | .mark .separator => true
  | _ => false

/-- The tokens of a text, without separators at the end. -/
def lex (s : String) : Except SyntaxError (List Placed) :=
  (lexFrom 0 0 false none s.toList).map fun tokens =>
    (tokens.reverse.dropWhile Placed.isSeparator).reverse

end DocWeave.Expr
