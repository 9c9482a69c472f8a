import DocWeave.Proofs.Expr.Lexing
import DocWeave.Proofs.Expr.Places

/-!
# Reading inverts printing

The grammar reads the words of every expression back as the expression, at the expression's own
tightness and hence at every place where it may stand (`readAt_words`). From this and from the cutting
of the text into words it follows that `Expr.parse` inverts `Expr.print`.
-/

namespace DocWeave.Expr

/-! ## The forms of expressions -/

/-- An expression that needs no operator is read when its words are, before methods and indices. -/
theorem readAt_of_operand {style : Style} {e : Expr} (ht : e.tightness = levels + 1)
    (h : ∀ spaced ts rest, Spells (words style e spaced) ts rest → Clear rest →
      ∀ e' rest', Yields (parsePostfix e rest) e' rest' →
      Yields (parseLevel (levels + 1) ts) e' rest') : ReadAt style e.tightness e := by
  rw [ht]
  intro spaced ts rest hs hclear _ e' rest' hcont
  rw [encloseWords, if_neg (by omega)] at hs
  rw [Continues, if_neg (by omega), if_neg (by omega)] at hcont
  exact h spaced ts rest hs hclear e' rest' hcont

theorem readAt_of_primary {style : Style} {e : Expr} (ht : e.tightness = levels + 1)
    (h : ∀ spaced ts rest, Spells (words style e spaced) ts rest → Clear rest →
      Yields (parsePrimary ts) e rest) : ReadAt style e.tightness e := by
  refine readAt_of_operand ht ?_
  intro spaced ts rest hs hclear e' rest' hcont
  exact parseLevel_yields_signed (by omega) (parseSigned_yields (h spaced ts rest hs hclear) hcont)

/-- The receiver of a method or an index is read before them. -/
theorem ReadAt.receiver {style : Style} {e : Expr} (h : ReadAt style (levels + 1) e)
    {spaced : Bool} {ts rest : List Placed}
    (hs : Spells (encloseWords (levels + 1) e (words style e) spaced) ts rest) (hclear : Clear rest)
    {e' : Expr} {rest' : List Placed} (hcont : Yields (parsePostfix e rest) e' rest') :
    Yields (parseLevel (levels + 1) ts) e' rest' := by
  refine h spaced ts rest hs hclear (fun k h₁ h₂ => absurd h₁ (by omega)) e' rest' ?_
  rw [Continues, if_neg (by omega), if_neg (by omega)]
  exact hcont

/-- The operand of a sign is read with its own signs. -/
theorem ReadAt.operand {style : Style} {e : Expr} (h : ReadAt style levels e) {spaced : Bool}
    {ts rest : List Placed} (hs : Spells (encloseWords levels e (words style e) spaced) ts rest)
    (hclear : Clear rest) (hguards : Guards levels rest) : Yields (parseSigned ts) e rest := by
  obtain ⟨b, hread⟩ := h spaced ts rest hs hclear hguards e rest (by
    rw [Continues, if_neg (by omega), if_pos rfl]
    exact ⟨rfl, rfl⟩)
  rw [parseLevel, dif_neg (by omega)] at hread
  exact ⟨b, hread⟩

/-- The right operand of an operator is read up to the next operator of its level. -/
theorem ReadAt.rhs {style : Style} {e : Expr} {level : Nat} (h : ReadAt style (level + 1) e)
    (hl : level ≤ levels) {spaced : Bool} {ts rest : List Placed}
    (hs : Spells (encloseWords (level + 1) e (words style e) spaced) ts rest)
    (hclear : Clear rest) (hguards : Guards level rest) :
    Yields (parseLevel (level + 1) ts) e rest :=
  h spaced ts rest hs hclear (fun k hk => hguards k (by omega)) e rest
    (hguards (level + 1) (by omega) (by omega) e)

theorem readAt_literal (style : Style) {v : Value} (h : isPrintableLiteral v = true) :
    ReadAt style (levels + 1) (.lit v) := by
  refine readAt_of_primary (e := .lit v) rfl ?_
  rintro spaced ts rest ⟨offset, tail, rfl, htail⟩ -
  obtain rfl : tail = rest := htail
  refine parsePrimary_yields_literal spaced offset tail ?_
  cases v with
  | nil | int i | str s | sym s => rfl
  | bool b => cases b <;> rfl
  | float x | code s | array items | hash entries => cases h

/-- The parts of a path are put together again. -/
theorem parsePath_yields {parts : List (List Char)} (path : String) {ts rest : List Placed}
    (hs : Spells (parts.flatMap fun name =>
      [(.mark .scope, false), (.const (String.ofList name), false)]) ts rest)
    (hr : headIs .scope rest = false) :
    Yields (parsePath path ts)
      (path ++ String.ofList (parts.flatMap ([':', ':'] ++ ·))) rest := by
  induction parts generalizing path ts with
  | nil =>
    obtain rfl : ts = rest := hs
    simpa using parsePath_yields_stop path hr
  | cons name parts ih =>
    obtain ⟨o₁, tail, rfl, o₂, tail', rfl, hs⟩ := hs
    have hpath : path ++ String.ofList ((name :: parts).flatMap ([':', ':'] ++ ·)) =
        path ++ "::" ++ String.ofList name ++ String.ofList (parts.flatMap ([':', ':'] ++ ·)) := by
      apply String.toList_inj.mp
      simp
    rw [hpath]
    exact parsePath_yields_part (ih (path ++ "::" ++ String.ofList name) hs)

theorem parsePrimary_yields_path (path : String) {spaced : Bool} {ts rest : List Placed}
    (hs : Spells (pathWords path spaced) ts rest) (hr : headIs .scope rest = false) :
    Yields (parsePrimary ts) (.const path) rest := by
  obtain ⟨first, parts, hp, hpath⟩ := exists_pathParts path
  rw [pathWords, hp] at hs
  obtain ⟨offset, tail, rfl, hs⟩ := hs
  have hwhole : String.ofList first ++ String.ofList (parts.flatMap ([':', ':'] ++ ·)) = path := by
    apply String.toList_inj.mp
    simp [hpath]
  have h := parsePath_yields (String.ofList first) hs hr
  rw [hwhole] at h
  exact parsePrimary_yields_const h

/-- The items of an array are read one after the other. -/
theorem parseItems_reads {wss : List (Bool → List Word)} {items : List Expr}
    (h : List.Forall₂ Reads wss items) : ∀ {spaced : Bool} {ts rest : List Placed},
    Spells (commaWords wss spaced ++ [(.mark .bracketClose, false)]) ts rest →
    Yields (parseItems ts) items rest := by
  induction h with
  | nil =>
    rintro spaced ts rest ⟨offset, tail, rfl, htail⟩
    obtain rfl : tail = rest := htail
    exact ⟨by simp, by rw [parseItems]⟩
  | cons he hes ih =>
    intro spaced ts rest hs
    cases hes with
    | nil =>
      obtain ⟨offset, hs⟩ := spells_snoc hs
      exact parseItems_yields_last ((he.begins.apart hs).1 _ (by simp))
        (he.closed hs (Closes.mark _ _ _ (by simp)))
    | cons hnext hes =>
      rw [commaWords, List.append_assoc] at hs
      obtain ⟨mid, hs, offset, tail, rfl, htail⟩ := spells_append.mp hs
      exact parseItems_yields_cons ((he.begins.apart hs).1 _ (by simp))
        (he.closed hs (Closes.mark _ _ _ (by simp))) (ih htail)

/-- A key, an arrow and a value. -/
theorem readsEntry_arrow {wk wv : Bool → List Word} {key e : Expr} (hk : Reads wk key)
    (he : Reads wv e) :
    ReadsEntry (fun spaced => wk spaced ++ (.mark .arrow, true) :: wv true) (key, e) := by
  intro spaced ts rest hs hc
  obtain ⟨mid, hkey, offset, tail, rfl, hvalue⟩ := spells_append.mp hs
  have happart := hk.begins.apart hkey
  exact ⟨happart.1 _ (by simp), parseEntry_yields happart.2
    (hk.closed hkey (Closes.mark _ _ _ (by simp))) (he.closed hvalue hc)⟩

/-- The entries of a hash are read one after the other. -/
theorem parseEntries_reads {wss : List (Bool → List Word)} {entries : List (Expr × Expr)}
    (h : List.Forall₂ ReadsEntry wss entries) : ∀ {spaced : Bool} {ts rest : List Placed},
    Spells (commaWords wss spaced ++ [(.mark .braceClose, false)]) ts rest →
    Yields (parseEntries ts) entries rest := by
  induction h with
  | nil =>
    rintro spaced ts rest ⟨offset, tail, rfl, htail⟩
    obtain rfl : tail = rest := htail
    exact ⟨by simp, by rw [parseEntries]⟩
  | cons he hes ih =>
    intro spaced ts rest hs
    cases hes with
    | nil =>
      obtain ⟨offset, hs⟩ := spells_snoc hs
      obtain ⟨hne, hentry⟩ := he hs (Closes.mark _ _ _ (by simp))
      exact parseEntries_yields_last hne hentry
    | cons hnext hes =>
      rw [commaWords, List.append_assoc] at hs
      obtain ⟨mid, hs, offset, tail, rfl, htail⟩ := spells_append.mp hs
      obtain ⟨hne, hentry⟩ := he hs (Closes.mark _ _ _ (by simp))
      exact parseEntries_yields_cons hne hentry (ih htail)

/-- The expression of an argument. -/
def argBody : Arg → Expr
  | .positional e => e
  | .splat e => e
  | .keyword _ e => e

/-- The words of one argument. -/
def argWord (style : Style) : Arg → Bool → List Word
  | .positional e, spaced => words style e spaced
  | .splat e, spaced => (.mark .star, spaced) :: words style e false
  | .keyword key e, spaced => (.label key, spaced) :: words style e true

theorem argWords_eq_map (style : Style) (args : List Arg) :
    argWords style args = args.map (argWord style) := by
  induction args with
  | nil => rfl
  | cons arg args ih =>
    cases arg <;> rw [argWords, ih] <;> rfl

theorem parseArg_reads {style : Style} {arg : Arg} (h : ReadAt style 0 (argBody arg))
    {spaced : Bool} {ts rest : List Placed} (hc : Closes rest)
    (hs : Spells (argWord style arg spaced) ts rest) :
    headIs .parenClose ts = false ∧ headIs .separator ts = false ∧
      Yields (parseArg ts) arg rest := by
  cases arg with
  | positional e =>
    have happart := (wordsBegin_words style e).apart hs
    exact ⟨happart.1 _ (by simp), happart.1 _ (by simp),
      parseArg_yields_positional happart.2 (happart.1 _ (by simp)) (h.closed hs hc)⟩
  | splat e =>
    obtain ⟨offset, tail, rfl, hs⟩ := hs
    exact ⟨rfl, rfl, parseArg_yields_splat (h.closed hs hc)⟩
  | keyword key e =>
    obtain ⟨offset, tail, rfl, hs⟩ := hs
    exact ⟨rfl, rfl, parseArg_yields_keyword (h.closed hs hc)⟩

theorem parseParenArgs_reads {style : Style} {args : List Arg}
    (h : ∀ arg ∈ args, ReadAt style 0 (argBody arg)) : ∀ {spaced : Bool} {ts rest : List Placed},
    Spells (commaWords (argWords style args) spaced ++ [(.mark .parenClose, false)]) ts rest →
    Yields (parseParenArgs (skipSeparators ts)) args rest := by
  rw [argWords_eq_map]
  induction args with
  | nil =>
    rintro spaced ts rest ⟨offset, tail, rfl, htail⟩
    obtain rfl : tail = rest := htail
    rw [skipSeparators_of_headIs rfl]
    exact ⟨by simp, by rw [parseParenArgs]⟩
  | cons arg args ih =>
    intro spaced ts rest hs
    have harg : ReadAt style 0 (argBody arg) := h arg List.mem_cons_self
    cases args with
    | nil =>
      obtain ⟨offset, hs⟩ := spells_snoc hs
      obtain ⟨hne, hsep, hread⟩ := parseArg_reads harg (Closes.mark _ _ _ (by simp)) hs
      rw [skipSeparators_of_headIs hsep]
      exact parseParenArgs_yields_last hne hread rfl
    | cons next args =>
      rw [List.map_cons, List.map_cons, commaWords, ← List.map_cons, List.append_assoc] at hs
      obtain ⟨mid, hs, offset, tail, rfl, htail⟩ := spells_append.mp hs
      obtain ⟨hne, hsep, hread⟩ := parseArg_reads harg (Closes.mark _ _ _ (by simp)) hs
      rw [skipSeparators_of_headIs hsep]
      exact parseParenArgs_yields_cons hne hread rfl
        (ih (fun arg' ha' => h arg' (List.mem_cons_of_mem _ ha')) htail)

theorem parseCallArgs_reads {style : Style} {args : List Arg}
    (h : ∀ arg ∈ args, ReadAt style 0 (argBody arg)) {ts rest : List Placed}
    (hs : Spells (callWords (argWords style args)) ts rest) :
    parenFollows ts = true ∧ Yields (parseCallArgs ts) args rest := by
  obtain ⟨offset, tail, rfl, hs⟩ := hs
  exact ⟨rfl, parseCallArgs_yields (parseParenArgs_reads h hs)⟩

theorem namesMethod_methodToken (name : String) : namesMethod name (methodToken name) := by
  unfold methodToken
  split <;> rfl

/-- A method and its arguments go on with what stands before the point. -/
theorem parsePostfix_reads {style : Style} {name : String} {args : List Arg}
    (h : ∀ arg ∈ args, ReadAt style 0 (argBody arg)) {ts rest : List Placed}
    (hs : Spells ((.mark .dot, false) :: (methodToken name, false) ::
      methodWords style (argWords style args)) ts rest) (hp : parenFollows rest = false)
    {e e' : Expr} {rest' : List Placed}
    (hcont : Yields (parsePostfix (methodOf e name args) rest) e' rest') :
    Yields (parsePostfix e ts) e' rest' := by
  obtain ⟨o₁, tail₁, rfl, o₂, tail₂, rfl, hs⟩ := hs
  refine parsePostfix_yields_method (namesMethod_methodToken name) ?_ hcont
  unfold methodWords at hs
  split at hs
  · next hempty =>
    obtain rfl : tail₂ = rest := hs
    rw [Bool.and_eq_true, argWords_eq_map, List.isEmpty_iff, List.map_eq_nil_iff] at hempty
    rw [hempty.1]
    exact parseCallArgs_yields_none hp
  · exact (parseCallArgs_reads h hs).2

/-! ## All expressions -/

mutual

/-- Every expression that can be written is read back at its own tightness. -/
theorem readAt_words (style : Style) : ∀ e : Expr, isPrintable e = true →
    ReadAt style e.tightness e
  | .lit v, h => readAt_literal style h
  | .array items, h => by
    refine readAt_of_primary rfl ?_
    rintro spaced ts rest ⟨offset, tail, rfl, hs⟩ -
    exact parsePrimary_yields_array (parseItems_reads (readAt_items style items h) hs)
  | .hash entries, h => by
    refine readAt_of_primary rfl ?_
    rintro spaced ts rest ⟨offset, tail, rfl, hs⟩ -
    exact parsePrimary_yields_hash (parseEntries_reads (readAt_entries style entries h) hs)
  | .var name, h => by
    refine readAt_of_primary rfl ?_
    rintro spaced ts rest ⟨offset, tail, rfl, htail⟩ hclear
    obtain rfl : tail = rest := htail
    exact parsePrimary_yields_var spaced offset (isReference_of_isPlainName h) hclear.paren
      hclear.argument
  | .call name args, h => by
    rw [isPrintable, Bool.and_eq_true] at h
    refine readAt_of_primary rfl ?_
    rintro spaced ts rest ⟨offset, tail, rfl, hs⟩ -
    obtain ⟨hparen, hargs⟩ := parseCallArgs_reads (readAt_args style args h.2) hs
    exact parsePrimary_yields_call (isReference_of_isPlainName h.1) hparen hargs
  | .const path, h => by
    refine readAt_of_primary rfl ?_
    intro spaced ts rest hs hclear
    exact parsePrimary_yields_path path hs hclear.scope
  | .constCall path method args, h => by
    simp only [isPrintable, Bool.and_eq_true] at h
    refine readAt_of_operand rfl ?_
    intro spaced ts rest hs hclear e' rest' hcont
    obtain ⟨mid, hpath, hmethod⟩ := spells_append.mp hs
    have hscope : headIs .scope mid = false := by
      obtain ⟨offset, tail, rfl, -⟩ := hmethod
      rfl
    have hconst := parsePrimary_yields_path path hpath hscope
    have hpost : Yields (parsePostfix (.const path) mid) e' rest' :=
      parsePostfix_reads (readAt_args style args h.2) hmethod hclear.paren hcont
    exact parseLevel_yields_signed (by omega) (parseSigned_yields hconst hpost)
  | .send receiver method args, h => by
    simp only [isPrintable, Bool.and_eq_true, Bool.not_eq_true'] at h
    refine readAt_of_operand rfl ?_
    intro spaced ts rest hs hclear e' rest' hcont
    obtain ⟨mid, hreceiver, hmethod⟩ := spells_append.mp hs
    have hmid : Clear mid := by
      obtain ⟨offset, tail, rfl, -⟩ := hmethod
      exact ⟨rfl, rfl, rfl⟩
    -- the receiver is no bare constant, so the method is one of a value
    have hsend : methodOf receiver method args = .send receiver method args := by
      unfold methodOf
      split
      · cases h.1.1.1
      · rfl
    have hpost : Yields (parsePostfix receiver mid) e' rest' :=
      parsePostfix_reads (readAt_args style args h.2) hmethod hclear.paren (hsend ▸ hcont)
    exact ((readAt_words style receiver h.1.1.2).anywhere _ (by omega)).receiver hreceiver hmid hpost
  | .index receiver place, h => by
    simp only [isPrintable, Bool.and_eq_true] at h
    refine readAt_of_operand rfl ?_
    intro spaced ts rest hs hclear e' rest' hcont
    obtain ⟨mid, hreceiver, o₁, tail, rfl, hs⟩ := spells_append.mp hs
    obtain ⟨o₂, hplace⟩ := spells_snoc hs
    -- the brackets close the place off, so it is read at the loosest level
    have hread := ((readAt_words style place h.2).anywhere 0 (by omega)).closed hplace
      (Closes.mark _ _ _ (by simp))
    exact ((readAt_words style receiver h.1).anywhere _ (by omega)).receiver hreceiver
      ⟨rfl, rfl, rfl⟩ (parsePostfix_yields_index hread hcont)
  | .neg operand, h => by
    intro spaced ts rest hs hclear hguards e' rest' hcont
    rw [tightness, encloseWords, if_neg (by rw [tightness]; omega)] at hs
    rw [tightness, Continues, if_neg (by omega), if_pos rfl] at hcont
    obtain ⟨rfl, rfl⟩ := hcont
    obtain ⟨offset, tail, rfl, hs⟩ := hs
    have hread := ((readAt_words style operand h).anywhere levels (by omega)).operand hs hclear
      hguards
    exact parseLevel_yields_signed (Nat.le_refl levels) (parseSigned_yields_neg hread)
  | .not operand, h => by
    intro spaced ts rest hs hclear hguards e' rest' hcont
    rw [tightness, encloseWords, if_neg (by rw [tightness]; omega)] at hs
    rw [tightness, Continues, if_neg (by omega), if_pos rfl] at hcont
    obtain ⟨rfl, rfl⟩ := hcont
    obtain ⟨offset, tail, rfl, hs⟩ := hs
    have hread := ((readAt_words style operand h).anywhere levels (by omega)).operand hs hclear
      hguards
    exact parseLevel_yields_signed (Nat.le_refl levels) (parseSigned_yields_not hread)
  | .binary op lhs rhs, h => by
    simp only [isPrintable, Bool.and_eq_true] at h
    have hop := op.level_lt
    intro spaced ts rest hs hclear hguards e' rest' hcont
    rw [tightness, encloseWords, if_neg (by rw [tightness]; omega)] at hs
    rw [tightness, Continues, if_pos hop] at hcont
    rw [tightness] at hguards ⊢
    obtain ⟨mid, hlhs, offset, tail, rfl, hrhs⟩ := spells_append.mp hs
    have hright : Yields (parseLevel (op.level + 1) tail) rhs rest :=
      ((readAt_words style rhs h.2).anywhere _ (by omega)).rhs (by omega) hrhs hclear hguards
    -- behind a blank the operator cannot be taken for the sign of an argument
    have hspaced : ∀ p ∈ tail.head?, p.spaced = true := by
      intro p hp
      obtain ⟨t, o, more, rfl, -⟩ := ((wordsBegin_words style rhs).enclose _ _).spells hrhs
      obtain rfl : ⟨t, true, o⟩ = p := by simpa using hp
      rfl
    -- the left operand is read first, and then the operator joins it with the right one
    refine (readAt_words style lhs h.1).anywhere op.level (by omega) spaced ts _ hlhs
      (clear_operator hspaced) guards_operator e' rest' ?_
    rw [Continues, if_pos hop]
    exact parseOperators_yields (by rw [operatorAt?_mark, if_pos rfl]) hright hcont

theorem readAt_items (style : Style) : ∀ items : List Expr, arePrintable items = true →
    List.Forall₂ Reads (itemWords style items) items
  | [], _ => List.Forall₂.nil
  | first :: rest, h => by
    rw [arePrintable, Bool.and_eq_true] at h
    have hfirst := (readAt_words style first h.1).anywhere 0 (by omega)
    exact List.Forall₂.cons hfirst.reads (readAt_items style rest h.2)

theorem readAt_entries (style : Style) : ∀ entries : List (Expr × Expr),
    areEntriesPrintable entries = true →
    List.Forall₂ ReadsEntry (entryWords style entries) entries
  | [], _ => List.Forall₂.nil
  | (key, value) :: rest, h => by
    simp only [areEntriesPrintable, Bool.and_eq_true] at h
    have hkey := (readAt_words style key h.1.1).anywhere 0 (by omega)
    have hvalue := (readAt_words style value h.1.2).anywhere 0 (by omega)
    exact List.Forall₂.cons (readsEntry_arrow hkey.reads hvalue.reads)
      (readAt_entries style rest h.2)

theorem readAt_args (style : Style) : ∀ args : List Arg, areArgsPrintable args = true →
    ∀ arg ∈ args, ReadAt style 0 (argBody arg)
  | [], _ => by simp
  | .positional e :: rest, h => by
    rw [areArgsPrintable, Bool.and_eq_true] at h
    have hfirst := (readAt_words style e h.1).anywhere 0 (by omega)
    exact List.forall_mem_cons.mpr ⟨hfirst, readAt_args style rest h.2⟩
  | .splat e :: rest, h => by
    rw [areArgsPrintable, Bool.and_eq_true] at h
    have hfirst := (readAt_words style e h.1).anywhere 0 (by omega)
    exact List.forall_mem_cons.mpr ⟨hfirst, readAt_args style rest h.2⟩
  | .keyword key e :: rest, h => by
    simp only [areArgsPrintable, Bool.and_eq_true] at h
    have hfirst := (readAt_words style e h.1.2).anywhere 0 (by omega)
    exact List.forall_mem_cons.mpr ⟨hfirst, readAt_args style rest h.2⟩

end

/-! ## The round trip -/

/-- An expression that stands alone is read whole. -/
theorem parseWhole_reads {ws : Bool → List Word} {e : Expr} (h : Reads ws e) {ts : List Placed}
    (hs : Spells (ws false) ts []) : parseWhole ts = .ok e := by
  have hskip : skipSeparators ts = ts :=
    skipSeparators_of_headIs ((h.begins.apart hs).1 _ (by simp))
  have hread : Yields (parseLevel 0 (skipSeparators ts)) e [] := by
    rw [hskip]
    exact h.closed hs Closes.nil
  obtain ⟨b, hread⟩ := hread
  rw [parseWhole, hread]
  rfl

theorem parseWhole_words {style : Style} {e : Expr} (h : isPrintable e = true) {ts : List Placed}
    (hs : Spells (words style e false) ts []) : parseWhole ts = .ok e :=
  parseWhole_reads ((readAt_words style e h).anywhere 0 (by omega)).reads hs

/-- The canonical text of an array is a program of one statement. -/
theorem parse_print_array (style : Style) {items : List Expr} (h : arePrintable items = true) :
    Program.parse (print style (.array items)) = .ok [.expr (.array items)] := by
  obtain ⟨ps, hlex, hwords⟩ := lex_print style (show isPrintable (.array items) = true from h)
  have hs := spells_of_map hwords
  have hread := ((readAt_words style (.array items) h).anywhere 0 (by omega)).closed hs Closes.nil
  obtain ⟨offset, tail, rfl, -⟩ := hs
  obtain ⟨b, hread⟩ := hread
  -- the first token is a bracket, so the statement is no assignment
  have hstmt : parseStmt (⟨.mark .bracketOpen, false, offset⟩ :: tail) =
      .ok ⟨.expr (.array items), [], b⟩ := by
    rw [parseStmt, hread]
    · rfl
    · exact nofun
  rw [Program.parse, hlex]
  show parseStmts _ = _
  rw [parseStmts]
  show (parseStmt (⟨.mark .bracketOpen, false, offset⟩ :: tail) >>= _) = _
  rw [hstmt]
  rfl

/-- Reading the canonical text of an expression gives the expression back, in every style. -/
theorem parse_print (style : Style) (e : Expr) (h : isPrintable e = true) :
    Expr.parse (print style e) = .ok e := by
  obtain ⟨ps, hlex, hwords⟩ := lex_print style h
  rw [Expr.parse, hlex]
  exact parseWhole_words h (spells_of_map hwords)

/-- Signs, stars, brackets and parentheses that stand where a name could take them for its arguments,
under operators that group to the right of their own level. -/
theorem parse_print_operators :
    let e : Expr :=
      .binary .sub (.var "a") (.binary .sub (.neg (.var "b"))
        (.index (.send (.binary .mul (.array [.lit (.str "it's \\")]) (.not (.var "ok?"))) "fetch"
          [.splat (.var "xs"), .keyword "by" (.hash [(.lit (.sym "k"), .constCall "A::B" "new" [])])])
          (.call "last" [.positional (.lit (.int 9223372036854775807))])))
    isPrintable e = true ∧ Expr.parse (print ⟨false, true⟩ e) = .ok e := by
  refine ⟨by decide +kernel, parse_print _ _ (by decide +kernel)⟩

end DocWeave.Expr
