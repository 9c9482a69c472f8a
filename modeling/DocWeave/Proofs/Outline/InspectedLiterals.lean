import DocWeave.Proofs.Expr.IntegerArithmetic
import DocWeave.Proofs.Expr.RoundTrip
import DocWeave.Proofs.Inflection.Grouping
import DocWeave.Proofs.OrderedMap
import DocWeave.Proofs.Text.Ascii
import DocWeave.Proofs.Text.Layout
import DocWeave.Proofs.Text.Splitting

/-!
# Literals survive inspection

What `Value.inspect` writes is source text again. The text of a value is cut into words that are read as
a literal expression (`spelt_inspect`), and this expression has the value (`eval_literal`). Nothing is
taken off the text before it is read: it has no blanks around it and no `.freeze` at its end
(`tight_inspect`).
-/

namespace DocWeave

open DocWeave.Text DocWeave.Expr

/-! ## Values that are written in full -/

namespace Value

/-- Printable ASCII, line end and tab. -/
def isPlainChar (c : Char) : Bool :=
  c == '\n' || c == '\t' || (decide (32 ≤ c.toNat) && decide (c.toNat ≤ 126))

/-- A text of plain characters. -/
def isPlainText (s : String) : Bool := s.toList.all isPlainChar

mutual

/-- A value without floating point and source text. Its texts are plain, its symbols are spelt like names
and it does not contain the least integer, whose digits are no integer of 64 bits. No key of a hash stands
twice or is spelt like a constant. -/
def isPlain : Value → Bool
  | .nil | .bool _ => true
  | .int i => i != Int64.minValue
  | .str s => isPlainText s
  | .sym s => isBareSymbol s
  | .array items => arePlain items
  | .hash entries => decide (OrderedMap.keys entries).Nodup && areEntriesPlain entries
  | .float _ | .code _ => false

/-- Every item is plain. -/
def arePlain : List Value → Bool
  | [] => true
  | v :: vs => isPlain v && arePlain vs

/-- Every key and value is plain, and no key is spelt like a constant. -/
def areEntriesPlain : List (String × Value) → Bool
  | [] => true
  | (k, v) :: rest =>
    isPlainText k && !isConstantName k.toList && isPlain v && areEntriesPlain rest

end

/-! ## The literal of a value -/

mutual

/-- The expression that a value is written as. -/
def literal : Value → Expr
  | .int i => if i.toInt < 0 then .neg (.lit (.int (-i))) else .lit (.int i)
  | .array items => .array (literals items)
  | .hash entries => .hash (literalEntries entries)
  | v => .lit v

/-- The expressions of the items of an array. -/
def literals : List Value → List Expr
  | [] => []
  | v :: vs => literal v :: literals vs

/-- The expressions of the entries of a hash. -/
def literalEntries : List (String × Value) → List (Expr × Expr)
  | [] => []
  | (k, v) :: rest => (.lit (.str k), literal v) :: literalEntries rest

end

end Value

/-- A key that is not there goes to the end. -/
theorem OrderedMap.insert_of_not_mem {κ α : Type} [BEq κ] [LawfulBEq κ] {m : OrderedMap κ α} {k : κ}
    (h : k ∉ OrderedMap.keys m) (a : α) : OrderedMap.insert m k a = m ++ [(k, a)] := by
  induction m with
  | nil => rfl
  | cons p rest ih =>
    obtain ⟨j, b⟩ := p
    have hparts : k ≠ j ∧ k ∉ OrderedMap.keys rest := by
      simpa [OrderedMap.keys] using h
    have hne : (k == j) = false := by simpa using hparts.1
    rw [OrderedMap.insert, hne, if_neg Bool.false_ne_true, ih hparts.2, List.cons_append]

namespace Outline

open Value

mutual

/-- The literal of a value has the value. -/
theorem eval_literal : ∀ v : Value, isPlain v = true → Expr.eval literalsOnly [] (literal v) = pure v
  | .nil, _ | .bool _, _ | .str _, _ | .sym _, _ => rfl
  | .int i, _ => by
    rw [literal]
    split
    · show literalsOnly.settle (.ok (.int (- -i))) = pure (.int i)
      rw [Int64.neg_neg]
      rfl
    · rfl
  | .array items, h => by
    rw [literal, Expr.eval, eval_literals items h]
    rfl
  | .hash entries, h => by
    rw [isPlain, Bool.and_eq_true, decide_eq_true_eq] at h
    rw [literal, Expr.eval, eval_literalEntries entries [] h.2 h.1]
    rfl
  | .float _, h => by cases h
  | .code _, h => by cases h

theorem eval_literals : ∀ items : List Value, arePlain items = true →
    Expr.evalItems literalsOnly [] (literals items) = pure items
  | [], _ => rfl
  | v :: vs, h => by
    rw [arePlain, Bool.and_eq_true] at h
    rw [literals, Expr.evalItems, eval_literal v h.1, eval_literals vs h.2]
    rfl

/-- Each key is new, so each entry goes to the end. -/
theorem eval_literalEntries : ∀ (entries : List (String × Value)) (done : Bindings),
    areEntriesPlain entries = true → (OrderedMap.keys (done ++ entries)).Nodup →
    Expr.evalEntries literalsOnly [] done (literalEntries entries) = pure (done ++ entries)
  | [], done, _, _ => by
    rw [List.append_nil]
    rfl
  | (k, v) :: rest, done, h, hnodup => by
    simp only [areEntriesPlain, Bool.and_eq_true] at h
    have hnew : k ∉ OrderedMap.keys done := by
      intro hmem
      rw [OrderedMap.keys, List.map_append, List.nodup_append] at hnodup
      exact hnodup.2.2 k hmem k (by simp) rfl
    have hinsert : OrderedMap.insert done k v = done ++ [(k, v)] :=
      OrderedMap.insert_of_not_mem hnew v
    have hall : done ++ (k, v) :: rest = done ++ [(k, v)] ++ rest := by simp
    rw [hall] at hnodup ⊢
    rw [literalEntries, Expr.evalEntries, eval_literal v h.1.2]
    show Expr.evalEntries literalsOnly [] (OrderedMap.insert done k v) (literalEntries rest) = _
    rw [hinsert]
    exact eval_literalEntries rest (done ++ [(k, v)]) h.2 hnodup

end

/-! ## Texts and numbers -/

/-- A printable character stands for itself in a quotation. -/
theorem isUnprintable_of_printable {c : Char} (h : 32 ≤ c.toNat ∧ c.toNat ≤ 126) :
    isUnprintable c = false := by
  rw [isUnprintable, if_pos (by omega)]
  simp only [Bool.or_eq_false_iff, decide_eq_false_iff_not, beq_eq_false_iff_ne]
  omega

/-- What a quotation writes for a plain character: an escape that is undone, or the character. -/
theorem quoteChar_plain {c : Char} (h : isPlainChar c = true) :
    (∃ d, quoteChar c = ['\\', d] ∧ unescape '"' d = some c) ∨
      (quoteChar c = [c] ∧ c ≠ '"' ∧ c ≠ '\\') := by
  by_cases hquote : c = '"'
  · exact .inl ⟨'"', by rw [hquote]; rfl, by rw [hquote]; rfl⟩
  by_cases hslash : c = '\\'
  · exact .inl ⟨'\\', by rw [hslash]; rfl, by rw [hslash]; rfl⟩
  by_cases hline : c = '\n'
  · exact .inl ⟨'n', by rw [hline]; rfl, by rw [hline]; rfl⟩
  by_cases htab : c = '\t'
  · exact .inl ⟨'t', by rw [htab]; rfl, by rw [htab]; rfl⟩
  have hprintable : 32 ≤ c.toNat ∧ c.toNat ≤ 126 := by
    simpa [isPlainChar, hline, htab] using h
  have hreturn : c ≠ '\r' ∧ c ≠ '\x00' := by
    constructor <;> rintro rfl <;> exact absurd hprintable (by decide)
  refine .inr ⟨?_, hquote, hslash⟩
  rw [quoteChar, if_neg hquote, if_neg hslash, if_neg hline, if_neg htab, if_neg hreturn.1,
    if_neg hreturn.2, isUnprintable_of_printable hprintable, if_neg Bool.false_ne_true]

/-- A quotation is taken up to its closing quote. -/
theorem takeString_quoted {s : List Char} (h : ∀ c ∈ s, isPlainChar c = true) (rest : List Char) :
    takeString '"' (s.flatMap quoteChar ++ '"' :: rest) = some (s, rest) := by
  induction s with
  | nil => cases rest <;> simp [takeString]
  | cons c s ih =>
    have ih := ih fun d hd => h d (List.mem_cons_of_mem _ hd)
    rw [List.flatMap_cons, List.append_assoc]
    obtain ⟨d, hquote, hescape⟩ | ⟨hquote, hne, hslash⟩ := quoteChar_plain (h c List.mem_cons_self)
    · rw [hquote]
      simp [takeString, hescape, ih]
    · -- the closing quote is still to come, so the text behind `c` is not empty
      obtain ⟨d, tail, hd⟩ : ∃ d tail, s.flatMap quoteChar ++ '"' :: rest = d :: tail := by
        cases hs : s.flatMap quoteChar with
        | nil => exact ⟨'"', rest, rfl⟩
        | cons d t => exact ⟨d, t ++ '"' :: rest, rfl⟩
      rw [hquote, hd]
      rw [hd] at ih
      simp [takeString, hne, hslash, ih]

theorem cuts_quote {s : String} (h : isPlainText s = true) (spaced : Bool) (rest : List Char) :
    Cuts spaced ((quote s).toList ++ rest) [(.str s, spaced)] rest := by
  have htake := takeString_quoted (List.all_eq_true.mp h) rest
  rw [quote, String.toList_ofList, quoted, List.cons_append, List.append_assoc]
  apply Cuts.word spaced (by decide)
  · simp [lexOne, htake, String.ofList_toList]
  · intro offset
    rfl

/-- The negative of an integer that is not the least one. -/
theorem toInt_neg_of_ne {i : Int64} (h : i ≠ Int64.minValue) : (-i).toInt = -i.toInt := by
  have hne : i.toInt ≠ -9223372036854775808 := fun heq => h (Int64.toInt_inj.mp heq)
  obtain ⟨hlow, hhigh⟩ := IntExpr.fitsWord_toInt i
  apply IntExpr.toInt_neg_of_fits
  constructor <;> omega

/-! ## Reading the text of a value -/

/-- Literals without parts are read from one token. -/
theorem reads_token {v : Value} (h : isPrintableLiteral v = true) :
    Reads (fun spaced => [(literalToken v, spaced)]) (.lit v) :=
  ((readAt_words ⟨false, true⟩ (.lit v) h).anywhere 0 (by omega)).reads

/-- The text is cut into words that are read as the expression. -/
def Spelt (text : List Char) (e : Expr) : Prop := ∃ ws, CutsAs text ws ∧ Reads ws e

theorem spelt_word (name : String) {v : Value} (hname : isIdentifier name = true)
    (htoken : literalToken v = .ident name) (h : isPrintableLiteral v = true) :
    Spelt name.toList (.lit v) :=
  ⟨_, fun spaced _ hr => htoken ▸ cuts_name hname spaced hr, reads_token h⟩

theorem spelt_int {i : Int64} (h : i ≠ Int64.minValue) :
    Spelt (toString i.toInt).toList (literal (.int i)) := by
  rw [literal]
  split
  · next hneg =>
    have hopposite : (-i).toInt = -i.toInt := toInt_neg_of_ne h
    have hnonneg : 0 ≤ (-i).toInt := by omega
    have hprintable : isPrintable (.neg (.lit (.int (-i)))) = true := decide_eq_true hnonneg
    refine ⟨fun spaced => [(.mark .minus, spaced), (.int (-i), false)], ?_,
      ((readAt_words ⟨false, true⟩ _ hprintable).anywhere 0 (by omega)).reads⟩
    intro spaced rest hr
    have htext : (toString i.toInt).toList = '-' :: Nat.toDigits 10 (-i).toInt.toNat := by
      have habs : i.toInt.natAbs = (-i).toInt.toNat := by omega
      rw [Decimal.toList_toString, Decimal.sign, if_pos hneg, habs]
      rfl
    rw [htext, List.cons_append]
    exact (Cuts.bracket (c := '-') spaced rfl rfl _).trans (cuts_number hnonneg false hr)
  · next hneg =>
    have hnonneg : 0 ≤ i.toInt := by omega
    refine ⟨_, ?_, reads_token (v := .int i) (decide_eq_true hnonneg)⟩
    intro spaced rest hr
    have htext : (toString i.toInt).toList = Nat.toDigits 10 i.toInt.toNat := by
      have habs : i.toInt.natAbs = i.toInt.toNat := by omega
      rw [Decimal.toList_toString, Decimal.sign, if_neg hneg, habs, List.nil_append]
    rw [htext]
    exact cuts_number hnonneg spaced hr

/-- A label that is not spelt like a constant is an identifier. -/
theorem isIdentifier_of_isLabel {key : String} (h : isLabel key = true)
    (hconst : isConstantName key.toList = false) : isIdentifier key = true := by
  unfold isLabel at h
  unfold isIdentifier
  split at h
  · cases h
  · next c s hs =>
    rw [hs] at hconst
    simp only [Bool.and_eq_true] at h
    have hinner : s.all isNameInner = true := h.2
    have htail : isNameTail s = true := by
      rw [isNameTail, List.dropWhile_eq_nil_iff.mpr fun c hc => List.all_eq_true.mp hinner c hc]
    have hupper : c.isUpper = false := by simpa [isConstantName, hinner] using hconst
    have hstart : isNameStart c = true := by
      have hc : ((c.isUpper || c.isLower) || c == '_') = true := h.1
      simp only [hupper, Bool.false_or, Bool.or_eq_true] at hc
      simp only [isNameStart, Bool.or_eq_true]
      exact .inl hc
    rw [hs]
    simp only [hstart, htail, Bool.and_self]

/-- The text is cut into words that are read as the entry of a hash. -/
def SpeltEntry (text : List Char) (entry : Expr × Expr) : Prop :=
  ∃ ws, CutsAs text ws ∧ ReadsEntry ws entry

theorem Spelt.labelled {text : List Char} {e : Expr} (h : Spelt text e) {key : String}
    (hkey : isIdentifier key = true) :
    SpeltEntry (key.toList ++ ':' :: ' ' :: text) (.lit (.str key), e) := by
  obtain ⟨ws, hcuts, hreads⟩ := h
  refine ⟨fun spaced => (.label key, spaced) :: ws true, ?_, ?_⟩
  · intro spaced rest hr
    rw [List.append_assoc]
    exact (cuts_label hkey spaced _).trans (Cuts.blank false (hcuts true rest hr))
  · intro spaced ts rest hs hc
    obtain ⟨offset, tail, rfl, hs⟩ := hs
    exact ⟨rfl, parseEntry_yields_label (hreads.closed hs hc)⟩

theorem Spelt.keyed {text : List Char} {e : Expr} (h : Spelt text e) {key : String}
    (hkey : isPlainText key = true) :
    SpeltEntry ((quote key).toList ++ ' ' :: '=' :: '>' :: ' ' :: text) (.lit (.str key), e) := by
  obtain ⟨ws, hcuts, hreads⟩ := h
  refine ⟨fun spaced => [(.str key, spaced)] ++ (.mark .arrow, true) :: ws true, ?_,
    readsEntry_arrow (reads_token (v := .str key) rfl) hreads⟩
  intro spaced rest hr
  rw [List.append_assoc]
  have harrow := cuts_arrow (' ' :: (text ++ rest))
  exact (cuts_quote hkey spaced _).trans (harrow.trans (Cuts.blank false (hcuts true rest hr)))

theorem commaText_eq_intercalate (texts : List (List Char)) :
    commaText texts = [',', ' '].intercalate texts := by
  induction texts with
  | nil => rfl
  | cons text rest ih =>
    cases rest with
    | nil => simp [commaText]
    | cons next rest => rw [commaText, ih, List.intercalate_cons_cons, List.append_assoc]; rfl

/-- Words that belong to listed texts. -/
theorem exists_words {β : Type} {R : (Bool → List Word) → β → Prop} {texts : List (List Char)}
    {bs : List β} (h : List.Forall₂ (fun text b => ∃ ws, CutsAs text ws ∧ R ws b) texts bs) :
    ∃ wss, List.Forall₂ CutsAs texts wss ∧ List.Forall₂ R wss bs := by
  induction h with
  | nil => exact ⟨[], .nil, .nil⟩
  | cons h _ ih =>
    obtain ⟨ws, hcuts, hR⟩ := h
    obtain ⟨wss, hcutss, hRs⟩ := ih
    exact ⟨ws :: wss, .cons hcuts hcutss, .cons hR hRs⟩

theorem spelt_array {texts : List String} {items : List Expr}
    (h : List.Forall₂ Spelt (texts.map String.toList) items) :
    Spelt ("[" ++ ", ".intercalate texts ++ "]").toList (.array items) := by
  obtain ⟨wss, hcuts, hreads⟩ := exists_words h
  refine ⟨fun spaced => (.mark .bracketOpen, spaced) ::
    (commaWords wss false ++ [(.mark .bracketClose, false)]), ?_, ?_⟩
  · intro spaced rest _
    rw [String.toList_append, String.toList_append, String.toList_intercalate]
    have hlisted := cuts_listed (a := '[') (z := ']') rfl rfl rfl rfl hcuts spaced rest
    rw [commaText_eq_intercalate] at hlisted
    exact hlisted
  · refine reads_of_primary (fun _ => ⟨_, _, rfl, rfl⟩) ?_
    rintro spaced ts rest ⟨offset, tail, rfl, hs⟩
    exact parsePrimary_yields_array (parseItems_reads hreads hs)

theorem spelt_hash {texts : List String} {entries : List (Expr × Expr)}
    (h : List.Forall₂ SpeltEntry (texts.map String.toList) entries) :
    Spelt ("\x7b" ++ ", ".intercalate texts ++ "\x7d").toList (.hash entries) := by
  obtain ⟨wss, hcuts, hreads⟩ := exists_words h
  refine ⟨fun spaced => (.mark .braceOpen, spaced) ::
    (commaWords wss false ++ [(.mark .braceClose, false)]), ?_, ?_⟩
  · intro spaced rest _
    rw [String.toList_append, String.toList_append, String.toList_intercalate]
    have hlisted := cuts_listed (a := '\x7b') (z := '\x7d') rfl rfl rfl rfl hcuts spaced rest
    rw [commaText_eq_intercalate] at hlisted
    exact hlisted
  · refine reads_of_primary (fun _ => ⟨_, _, rfl, rfl⟩) ?_
    rintro spaced ts rest ⟨offset, tail, rfl, hs⟩
    exact parsePrimary_yields_hash (parseEntries_reads hreads hs)

mutual

/-- The text of a value spells its literal. -/
theorem spelt_inspect : ∀ v : Value, isPlain v = true → Spelt v.inspect.toList (literal v)
  | .nil, _ => spelt_word "nil" (by decide) rfl rfl
  | .bool true, _ => spelt_word "true" (by decide) rfl rfl
  | .bool false, _ => spelt_word "false" (by decide) rfl rfl
  | .int i, h => spelt_int (by simpa [isPlain] using h)
  | .str s, h => ⟨_, fun spaced rest _ => cuts_quote h spaced rest, reads_token (v := .str s) rfl⟩
  | .sym s, h => by
    refine ⟨_, ?_, reads_token (v := .sym s) rfl⟩
    intro spaced rest hr
    rw [inspect, String.toList_append]
    exact cuts_bareSymbol h spaced hr
  | .array items, h => spelt_array (spelt_inspectItems items h)
  | .hash entries, h => by
    rw [isPlain, Bool.and_eq_true] at h
    exact spelt_hash (spelt_inspectEntries entries h.2)
  | .float _, h => by cases h
  | .code _, h => by cases h

theorem spelt_inspectItems : ∀ items : List Value, arePlain items = true →
    List.Forall₂ Spelt ((inspectItems items).map String.toList) (literals items)
  | [], _ => List.Forall₂.nil
  | v :: vs, h => by
    rw [arePlain, Bool.and_eq_true] at h
    exact List.Forall₂.cons (spelt_inspect v h.1) (spelt_inspectItems vs h.2)

theorem spelt_inspectEntries : ∀ entries : List (String × Value), areEntriesPlain entries = true →
    List.Forall₂ SpeltEntry ((inspectEntries entries).map String.toList) (literalEntries entries)
  | [], _ => List.Forall₂.nil
  | (k, v) :: rest, h => by
    simp only [areEntriesPlain, Bool.and_eq_true, Bool.not_eq_true'] at h
    refine List.Forall₂.cons ?_ (spelt_inspectEntries rest h.2)
    have hv := spelt_inspect v h.1.2
    split
    · next hlabel =>
      have hkey := isIdentifier_of_isLabel hlabel h.1.1.2
      simpa [String.toList_append] using hv.labelled hkey
    · simpa [String.toList_append] using hv.keyed h.1.1.1

end

/-- The text of a value is read as its literal. -/
theorem parse_inspect {v : Value} (h : isPlain v = true) : Expr.parse v.inspect = .ok (literal v) := by
  obtain ⟨ws, hcuts, hreads⟩ := spelt_inspect v h
  obtain ⟨ps, hlex, hwords⟩ := lex_of_cutsAs hcuts
  rw [String.ofList_toList] at hlex
  rw [Expr.parse, hlex]
  exact parseWhole_reads hreads (spells_of_map hwords)

/-! ## The ends of the text -/

/-- Nothing is taken off the ends of the text. -/
structure Tight (s : List Char) : Prop where
  blanks : trim s = s
  freezes : before? ".freeze".toList s = none

theorem trim_of_ends {s : List Char} (hhead : ∀ c ∈ s.head?, isBlank c = false)
    (hlast : ∀ c ∈ s.getLast?, isBlank c = false) : trim s = s := by
  have hstart : trimStart s = s := by
    cases s with
    | nil => rfl
    | cons c s => rw [trimStart, List.dropWhile_cons, hhead c rfl, if_neg Bool.false_ne_true]
  have hend : s.reverse.dropWhile isBlank = s.reverse := by
    rw [← List.head?_reverse] at hlast
    cases hs : s.reverse with
    | nil => rfl
    | cons c t =>
      rw [hs] at hlast
      rw [List.dropWhile_cons, hlast c rfl, if_neg Bool.false_ne_true]
  rw [trim, hstart, trimEnd, hend, List.reverse_reverse]

/-- A text without blanks and points. -/
theorem tight_of_word {s : List Char} (h : ∀ c ∈ s, isBlank c = false ∧ c ≠ '.') : Tight s := by
  refine ⟨trim_of_ends ?_ ?_, ?_⟩
  · intro c hc
    exact (h c (List.mem_of_mem_head? hc)).1
  · intro c hc
    exact (h c (List.mem_of_mem_getLast? hc)).1
  · rw [← Option.not_isSome_iff_eq_none]
    intro hsome
    obtain ⟨front, hfront⟩ := Option.isSome_iff_exists.mp hsome
    refine (h '.' ?_).2 rfl
    rw [eq_of_before? hfront]
    simp

/-- A text between two marks. -/
theorem tight_of_marks {a z : Char} (mid : List Char) (ha : isBlank a = false)
    (hz : isBlank z = false) (he : z ≠ 'e') : Tight (a :: (mid ++ [z])) := by
  refine ⟨trim_of_ends ?_ ?_, ?_⟩
  · intro c hc
    obtain rfl : a = c := by simpa using hc
    exact ha
  · intro c hc
    rw [← List.cons_append, List.getLast?_append] at hc
    obtain rfl : z = c := by simpa using hc
    exact hz
  · rw [← Option.not_isSome_iff_eq_none]
    intro hsome
    obtain ⟨front, hfront⟩ := Option.isSome_iff_exists.mp hsome
    have hlast := congrArg List.getLast? (eq_of_before? hfront)
    rw [← List.cons_append, List.getLast?_append, List.getLast?_append] at hlast
    exact he (by simpa using hlast)

/-- Characters of names and numbers, and the marks that stand with them. -/
theorem solid_of_name {c : Char} (h : isNameInner c = true ∨ c ∈ [':', '-', '?', '!']) :
    isBlank c = false ∧ c ≠ '.' := by
  rcases h with h | h
  · have hascii : c.toNat < 128 := by
      simp only [isNameInner, Bool.or_eq_true, beq_iff_eq] at h
      rcases h with h | rfl
      · exact ascii_of_isAlphanum h
      · decide
    refine forall_ascii (p := fun c => isNameInner c = true → isBlank c = false ∧ c ≠ '.') ?_ hascii h
    decide +kernel
  · simp only [List.mem_cons, List.not_mem_nil, or_false] at h
    rcases h with rfl | rfl | rfl | rfl <;> decide

theorem isNameInner_of_isDigit {c : Char} (h : c.isDigit = true) : isNameInner c = true := by
  simp [isNameInner, Char.isAlphanum, h]

/-- The characters of a symbol. -/
theorem mem_of_isBareSymbol {name : String} (h : isBareSymbol name = true) {c : Char}
    (hc : c ∈ name.toList) : isNameInner c = true ∨ c ∈ ['?', '!'] := by
  unfold isBareSymbol at h
  split at h
  · next d s hs =>
    simp only [Bool.and_eq_true] at h
    rw [hs] at hc
    rcases List.mem_cons.mp hc with rfl | hc
    · exact .inl h.1.1
    · -- the name ends where its inner characters end, or with one mark
      obtain ⟨last, hlast, hsplit, -⟩ := nameTail_split h.2 [] (by simp)
      rw [List.append_nil] at hsplit
      rw [← hsplit, List.mem_append] at hc
      rcases hc with hc | hc
      · exact .inl (List.all_eq_true.mp List.all_takeWhile c hc)
      · rcases hlast with rfl | rfl | rfl
        · cases hc
        · exact .inr (List.mem_singleton.mp hc ▸ by simp)
        · exact .inr (List.mem_singleton.mp hc ▸ by simp)
  · cases h

theorem tight_inspect {v : Value} (h : isPlain v = true) : Tight v.inspect.toList := by
  have hdigits : ∀ n, ∀ c ∈ Nat.toDigits 10 n, isNameInner c = true := fun n c hc =>
    isNameInner_of_isDigit (Nat.isDigit_of_mem_toDigits (by decide) (by decide) hc)
  have hname : ∀ s : List Char, s.all isNameInner = true → Tight s := fun s hs =>
    tight_of_word fun c hc => solid_of_name (.inl (List.all_eq_true.mp hs c hc))
  cases v with
  | nil => exact hname _ (by decide)
  | bool b => cases b <;> exact hname _ (by decide)
  | int i =>
    apply tight_of_word
    intro c hc
    apply solid_of_name
    rw [inspect, Decimal.toList_toString] at hc
    rcases List.mem_append.mp hc with hc | hc
    · rw [Decimal.eq_minus_of_mem_sign hc]
      exact .inr (by simp)
    · exact .inl (hdigits _ c hc)
  | str s =>
    rw [inspect, quote, String.toList_ofList, quoted]
    exact tight_of_marks _ (by decide) (by decide) (by decide)
  | sym s =>
    apply tight_of_word
    intro c hc
    apply solid_of_name
    rw [inspect, String.toList_append] at hc
    rcases List.mem_cons.mp (show c ∈ ':' :: s.toList from hc) with rfl | hc
    · exact .inr (by simp)
    · rcases mem_of_isBareSymbol h hc with hinner | hmark
      · exact .inl hinner
      · exact .inr (by simp at hmark ⊢; tauto)
  | array items =>
    rw [inspect, String.toList_append, String.toList_append]
    exact tight_of_marks _ (by decide) (by decide) (by decide)
  | hash entries =>
    rw [inspect, String.toList_append, String.toList_append]
    exact tight_of_marks _ (by decide) (by decide) (by decide)
  | float x => cases h
  | code s => cases h

theorem dropFreezes_of_tight {s : List Char} (h : Tight s) (fuel : Nat) : dropFreezes fuel s = s := by
  cases fuel with
  | zero => rfl
  | succ n => rw [dropFreezes, h.freezes]

/-- A value that is built from `nil`, truth values, integers other than the least one, plain texts,
symbols that are spelt like names, arrays, and hashes with plain keys that are not spelt like constants,
is read back from its text. -/
theorem literalValue_inspect (v : Value) (h : v.isPlain = true) : literalValue v.inspect = v := by
  have htight := tight_inspect h
  simp only [literalValue, htight.blanks, dropFreezes_of_tight htight, String.ofList_toList,
    parse_inspect h, eval_literal v h]
  rfl

/-- Quotes, brackets, comment signs, arrows and `.freeze` inside texts, labels that are spelt like
literals, and the integers at both ends of the range. -/
theorem literalValue_inspect_nested :
    let v : Value := .hash [
      ("nil", .array [.int (-9223372036854775807), .int 9223372036854775807, .hash [], .nil]),
      ("say \"x\" => [#y]\\", .str "one\n\ttwo # three, four].freeze"),
      ("", .hash [("K?", .sym "Ready?"), ("_k", .array [.bool true, .array [], .str ""])])]
    v.isPlain = true ∧ literalValue v.inspect = v :=
  ⟨by decide +kernel, literalValue_inspect _ (by decide +kernel)⟩

end Outline

end DocWeave
