import DocWeave.Proofs.Expr.Reading
import DocWeave.Proofs.Text.Splitting

/-!
# Reading at a place

The words of an expression are read at the place where the expression stands: as an operand of some
level, in parentheses, in front of a method. An operator that follows must not take a part of what was
read, and neither may a bracket, a point or an argument (`Clear`, `Guards`). Since all binary operators
group to the left, an expression is not read as a whole when more operators of its level follow it;
`ReadAt` therefore says how the reading goes on from there. What is read at its own tightness is read at
every place (`ReadAt.anywhere`).
-/

namespace DocWeave.Expr

/-! ## Tokens that spell words -/

/-- The tokens are the words, at some places, and then `rest`. -/
def Spells : List Word → List Placed → List Placed → Prop
  | [], ts, rest => ts = rest
  | w :: ws, ts, rest => ∃ offset tail, ts = ⟨w.1, w.2, offset⟩ :: tail ∧ Spells ws tail rest

theorem spells_append {ws ws' : List Word} {ts rest : List Placed} :
    Spells (ws ++ ws') ts rest ↔ ∃ mid, Spells ws ts mid ∧ Spells ws' mid rest := by
  induction ws generalizing ts with
  | nil => simp [Spells]
  | cons w ws ih =>
    simp only [List.cons_append, Spells, ih]
    constructor
    · rintro ⟨offset, tail, rfl, mid, h₁, h₂⟩
      exact ⟨mid, ⟨offset, tail, rfl, h₁⟩, h₂⟩
    · rintro ⟨mid, ⟨offset, tail, rfl, h₁⟩, h₂⟩
      exact ⟨offset, tail, rfl, mid, h₁, h₂⟩

theorem spells_snoc {ws : List Word} {t : Token} {spaced : Bool} {ts rest : List Placed}
    (h : Spells (ws ++ [(t, spaced)]) ts rest) :
    ∃ offset, Spells ws ts (⟨t, spaced, offset⟩ :: rest) := by
  obtain ⟨mid, hws, offset, tail, rfl, htail⟩ := spells_append.mp h
  obtain rfl : tail = rest := htail
  exact ⟨offset, hws⟩

theorem spells_of_map {ps : List Placed} {ws : List Word} (h : ps.map Placed.word = ws) :
    Spells ws ps [] := by
  induction ps generalizing ws with
  | nil => subst h; rfl
  | cons p ps ih =>
    subst h
    exact ⟨p.offset, ps, rfl, ih rfl⟩

/-- A token with which an expression begins. -/
def beginsExpr : Token → Bool
  | .label _ => false
  | .mark m => [Mark.parenOpen, .bracketOpen, .braceOpen, .minus, .bang].contains m
  | _ => true

/-- The words begin with a token that begins an expression. -/
def WordsBegin (ws : Bool → List Word) : Prop :=
  ∀ spaced, ∃ t tail, ws spaced = (t, spaced) :: tail ∧ beginsExpr t = true

theorem WordsBegin.enclose {ws : Bool → List Word} (h : WordsBegin ws) (place : Nat) (e : Expr) :
    WordsBegin (encloseWords place e ws) := by
  intro spaced
  unfold encloseWords
  split
  · exact ⟨_, _, rfl, rfl⟩
  · exact h spaced

theorem WordsBegin.append {ws : Bool → List Word} (h : WordsBegin ws) (more : List Word) :
    WordsBegin fun spaced => ws spaced ++ more := by
  intro spaced
  obtain ⟨t, tail, ht, hb⟩ := h spaced
  exact ⟨t, tail ++ more, by simp [ht], hb⟩

theorem wordsBegin_path (path : String) : WordsBegin (pathWords path) := by
  intro spaced
  unfold pathWords
  split
  · next h => exact absurd h (Text.splitOn_ne_nil _ _)
  · exact ⟨_, _, rfl, rfl⟩

theorem wordsBegin_words (style : Style) (e : Expr) : WordsBegin (words style e) := by
  cases e with
  | lit v =>
    intro spaced
    refine ⟨_, _, rfl, ?_⟩
    cases v with
    | bool b => cases b <;> rfl
    | _ => rfl
  | array items => exact fun _ => ⟨_, _, rfl, rfl⟩
  | hash entries => exact fun _ => ⟨_, _, rfl, rfl⟩
  | var name => exact fun _ => ⟨_, _, rfl, rfl⟩
  | call name args => exact fun _ => ⟨_, _, rfl, rfl⟩
  | const path => exact wordsBegin_path path
  | constCall path method args => exact (wordsBegin_path path).append _
  -- an expression with a receiver or a left side begins as that one does
  | send receiver method args => exact ((wordsBegin_words style receiver).enclose _ _).append _
  | index receiver key => exact ((wordsBegin_words style receiver).enclose _ _).append _
  | neg e => exact fun _ => ⟨_, _, rfl, rfl⟩
  | not e => exact fun _ => ⟨_, _, rfl, rfl⟩
  | binary op lhs rhs => exact ((wordsBegin_words style lhs).enclose _ _).append _

/-- The first token of an expression at its place. -/
theorem WordsBegin.spells {ws : Bool → List Word} (h : WordsBegin ws) {spaced : Bool}
    {ts rest : List Placed} (hs : Spells (ws spaced) ts rest) :
    ∃ t offset tail, ts = ⟨t, spaced, offset⟩ :: tail ∧ beginsExpr t = true := by
  obtain ⟨t, more, ht, hb⟩ := h spaced
  rw [ht] at hs
  obtain ⟨offset, tail, rfl, -⟩ := hs
  exact ⟨t, offset, tail, rfl, hb⟩

/-- What begins an expression is no closing mark, no separator, no star and no label. -/
theorem WordsBegin.apart {ws : Bool → List Word} (h : WordsBegin ws) {spaced : Bool}
    {ts rest : List Placed} (hs : Spells (ws spaced) ts rest) :
    (∀ m ∈ [Mark.parenClose, .bracketClose, .braceClose, .separator, .star],
      headIs m ts = false) ∧ (∀ name b o tail, ts ≠ ⟨.label name, b, o⟩ :: tail) := by
  obtain ⟨t, offset, tail, rfl, hb⟩ := h.spells hs
  constructor
  · intro m hm
    cases t with
    | mark m' =>
      have hdisjoint : ∀ m ∈ [Mark.parenClose, .bracketClose, .braceClose, .separator, .star],
          ∀ m' ∈ [Mark.parenOpen, .bracketOpen, .braceOpen, .minus, .bang], (m == m') = false := by
        decide
      exact hdisjoint m hm m' (by simpa [beginsExpr] using hb)
    | _ => rfl
  · rintro name b o tail' he
    cases he
    cases hb

/-! ## Reading at a place -/

/-- What follows is no argument of a name and goes on with no constant. -/
structure Clear (rest : List Placed) : Prop where
  paren : parenFollows rest = false
  argument : argumentFollows rest = false
  scope : headIs .scope rest = false

/-- Having read `e`, the grammar goes on at a level with `ts` and ends with `e'` and `rest`: with the
operators of the level, with nothing behind a sign's operand, or with methods and indices. -/
def Continues (level : Nat) (e : Expr) (ts : List Placed) (e' : Expr) (rest : List Placed) : Prop :=
  if level < levels then Yields (parseOperators level e ts) e' rest
  else if level = levels then e' = e ∧ rest = ts
  else Yields (parsePostfix e ts) e' rest

/-- At every tighter level nothing of what follows is taken. -/
def Guards (level : Nat) (rest : List Placed) : Prop :=
  ∀ tighter, level < tighter → tighter ≤ levels + 1 → ∀ e, Continues tighter e rest e rest

/-- The words of an expression at a place are read as this expression, and then the reading goes on as
the level of the place has it. -/
def ReadAt (style : Style) (level : Nat) (e : Expr) : Prop :=
  ∀ spaced ts rest, Spells (encloseWords level e (words style e) spaced) ts rest →
    Clear rest → Guards level rest →
    ∀ e' rest', Continues level e rest e' rest' → Yields (parseLevel level ts) e' rest'

theorem tightness_le (e : Expr) : e.tightness ≤ levels + 1 := by
  cases e with
  | binary op lhs rhs => exact Nat.le_succ_of_le (Nat.le_of_lt op.level_lt)
  | neg _ | not _ => exact Nat.le_succ levels
  | _ => exact Nat.le_refl _

/-- What can be read at a level can be read at the next looser one, unless its own operator has that
level. -/
theorem ReadAt.loosen {style : Style} {level : Nat} {e : Expr} (h : ReadAt style (level + 1) e)
    (hl : level ≤ levels) (ht : e.tightness ≠ level) : ReadAt style level e := by
  intro spaced ts rest hs hclear hguards e' rest' hcont
  have hwords : encloseWords level e (words style e) spaced =
      encloseWords (level + 1) e (words style e) spaced := by
    unfold encloseWords
    by_cases hlt : e.tightness < level
    · rw [if_pos hlt, if_pos (by omega)]
    · rw [if_neg hlt, if_neg (by omega)]
  -- the tighter level stops before `rest`
  have hinner : Yields (parseLevel (level + 1) ts) e rest :=
    h spaced ts rest (hwords ▸ hs) hclear (fun k hk => hguards k (by omega)) e rest
      (hguards (level + 1) (by omega) (by omega) e)
  unfold Continues at hcont
  by_cases hlt : level < levels
  · rw [if_pos hlt] at hcont
    exact parseLevel_yields hlt hinner hcont
  · have heq : level = levels := by omega
    rw [if_neg hlt, if_pos heq] at hcont
    obtain ⟨rfl, rfl⟩ := hcont
    obtain ⟨b, hinner⟩ := hinner
    rw [parseLevel, dif_neg (by omega)] at hinner
    exact parseLevel_yields_signed (by omega) ⟨b, hinner⟩

/-- From its own level down to the loosest an expression is read without parentheses. -/
theorem ReadAt.loosen_to {style : Style} {e : Expr} {high : Nat} (h : ReadAt style high e)
    (hh : high ≤ levels + 1) (low : Nat) (hl : low ≤ high)
    (ht : ∀ level, low ≤ level → level < high → e.tightness ≠ level) : ReadAt style low e := by
  obtain ⟨gap, rfl⟩ := Nat.exists_eq_add_of_le hl
  clear hl
  induction gap with
  | zero => exact h
  | succ gap ih =>
    have hnext : ReadAt style (low + gap) e :=
      ReadAt.loosen h (by omega) (ht (low + gap) (by omega) (by omega))
    exact ih hnext (by omega) fun level h₁ h₂ => ht level h₁ (by omega)

/-! ## What may follow an expression -/

/-- The text ends, or a mark follows that closes an expression. -/
def Closes (rest : List Placed) : Prop :=
  rest = [] ∨ ∃ m spaced offset tail, rest = ⟨.mark m, spaced, offset⟩ :: tail ∧
    m ∈ [Mark.parenClose, .bracketClose, .braceClose, .comma, .arrow]

theorem Closes.nil : Closes [] := Or.inl rfl

theorem Closes.mark {m : Mark} (spaced : Bool) (offset : Nat) (tail : List Placed)
    (h : m ∈ [Mark.parenClose, .bracketClose, .braceClose, .comma, .arrow]) :
    Closes (⟨.mark m, spaced, offset⟩ :: tail) :=
  Or.inr ⟨m, spaced, offset, tail, rfl, h⟩

theorem Closes.clear {rest : List Placed} (h : Closes rest) : Clear rest := by
  rcases h with rfl | ⟨m, spaced, offset, tail, rfl, hm⟩
  · exact ⟨rfl, rfl, rfl⟩
  · simp only [List.mem_cons, List.not_mem_nil, or_false] at hm
    rcases hm with rfl | rfl | rfl | rfl | rfl
    all_goals cases spaced <;> exact ⟨rfl, rfl, rfl⟩

/-- A mark that closes an expression is no operator. -/
theorem operatorAt?_closing {m : Mark} (level : Nat)
    (h : m ∈ [Mark.parenClose, .bracketClose, .braceClose, .comma, .arrow]) :
    operatorAt? level m = none := by
  simp only [List.mem_cons, List.not_mem_nil, or_false] at h
  rcases h with rfl | rfl | rfl | rfl | rfl
  all_goals rcases level with _ | _ | _ | _ | _ | _ | level <;> rfl

theorem Closes.continues {rest : List Placed} (h : Closes rest) (level : Nat) (e : Expr) :
    Continues level e rest e rest := by
  unfold Continues
  split
  · refine parseOperators_yields_stop e ?_
    rintro m spaced offset tail rfl
    rcases h with h | ⟨m', spaced', offset', tail', h, hm⟩
    · cases h
    · cases h
      exact operatorAt?_closing level hm
  · split
    · exact ⟨rfl, rfl⟩
    · refine parsePostfix_yields_stop e ?_
      rcases h with rfl | ⟨m, spaced, offset, tail, rfl, hm⟩
      · rfl
      · simp only [List.mem_cons, List.not_mem_nil, or_false] at hm
        rcases hm with rfl | rfl | rfl | rfl | rfl <;> rfl

theorem Closes.guards {rest : List Placed} (h : Closes rest) (level : Nat) : Guards level rest :=
  fun tighter _ _ e => h.continues tighter e

/-- An operator that follows at its own level takes nothing of a tighter level. What stands behind it
is behind a blank, so the operator is no sign of an argument. -/
theorem clear_operator {op : BinaryOp} {offset : Nat} {tail : List Placed}
    (h : ∀ p ∈ tail.head?, p.spaced = true) : Clear (⟨.mark op.mark, true, offset⟩ :: tail) := by
  have hhead : tail.head?.any (!·.spaced) = false := by
    cases tail with
    | nil => rfl
    | cons p tail =>
      have := h p rfl
      simp [this]
  refine ⟨by cases op <;> rfl, ?_, by cases op <;> rfl⟩
  cases op
  all_goals first | rfl | exact hhead

theorem guards_operator {op : BinaryOp} {offset : Nat} {tail : List Placed} :
    Guards op.level (⟨.mark op.mark, true, offset⟩ :: tail) := by
  intro tighter hlt hle e
  unfold Continues
  split
  · refine parseOperators_yields_stop e ?_
    rintro m spaced offset tail he
    cases he
    rw [operatorAt?_mark, if_neg (by omega)]
  · split
    · exact ⟨rfl, rfl⟩
    · exact parsePostfix_yields_stop e (by cases op <;> rfl)

/-! ## Parentheses -/

theorem encloseWords_zero (style : Style) (e : Expr) (spaced : Bool) :
    encloseWords 0 e (words style e) spaced = words style e spaced := by
  rw [encloseWords, if_neg (by omega)]

/-- Before a closing mark an expression is read as a whole. -/
theorem ReadAt.closed {style : Style} {e : Expr} (h : ReadAt style 0 e) {spaced : Bool}
    {ts rest : List Placed} (hs : Spells (words style e spaced) ts rest) (hc : Closes rest) :
    Yields (parseLevel 0 ts) e rest :=
  h spaced ts rest (by rw [encloseWords_zero]; exact hs) hc.clear (hc.guards 0) e rest
    (hc.continues 0 e)

/-- The words begin an expression, and before a closing mark they are read as the expression `e`. -/
structure Reads (ws : Bool → List Word) (e : Expr) : Prop where
  begins : WordsBegin ws
  closed : ∀ {spaced ts rest}, Spells (ws spaced) ts rest → Closes rest →
    Yields (parseLevel 0 ts) e rest

theorem ReadAt.reads {style : Style} {e : Expr} (h : ReadAt style 0 e) : Reads (words style e) e :=
  ⟨wordsBegin_words style e, h.closed⟩

/-- An operand that needs no operator is read as a whole before a closing mark. -/
theorem reads_of_primary {ws : Bool → List Word} {e : Expr} (hb : WordsBegin ws)
    (h : ∀ {spaced ts rest}, Spells (ws spaced) ts rest → Yields (parsePrimary ts) e rest) :
    Reads ws e := by
  refine ⟨hb, ?_⟩
  intro spaced ts rest hs hc
  have hpostfix : Yields (parsePostfix e rest) e rest := hc.continues (levels + 1) e
  -- from the signs down to the loosest level
  have hlevel : ∀ gap ≤ levels, Yields (parseLevel (levels - gap) ts) e rest := by
    intro gap hgap
    induction gap with
    | zero => exact parseLevel_yields_signed (Nat.le_refl levels) (parseSigned_yields (h hs) hpostfix)
    | succ gap ih =>
      have hlt : levels - (gap + 1) < levels := by omega
      have hnext : levels - (gap + 1) + 1 = levels - gap := by omega
      have hoperators := hc.continues (levels - (gap + 1)) e
      rw [Continues, if_pos hlt] at hoperators
      exact parseLevel_yields hlt (hnext ▸ ih (by omega)) hoperators
  exact hlevel levels (Nat.le_refl levels)

/-- The words are read as an entry of a hash before a closing mark, and none of them closes the hash. -/
def ReadsEntry (ws : Bool → List Word) (entry : Expr × Expr) : Prop :=
  ∀ {spaced ts rest}, Spells (ws spaced) ts rest → Closes rest →
    headIs .braceClose ts = false ∧ Yields (parseEntry ts) entry rest

/-- In parentheses every expression is an operand. -/
theorem ReadAt.paren {style : Style} {e : Expr} (h : ReadAt style 0 e)
    (ht : e.tightness < levels + 1) : ReadAt style (levels + 1) e := by
  intro spaced ts rest hs _ _ e' rest' hcont
  rw [encloseWords, if_pos ht] at hs
  obtain ⟨o₁, tail, rfl, hs⟩ := hs
  obtain ⟨o₂, hbody⟩ := spells_snoc hs
  have hinner : Yields (parseLevel 0 tail) e (⟨.mark .parenClose, false, o₂⟩ :: rest) :=
    h.closed hbody (Closes.mark _ _ _ (by simp))
  have hskip : skipSeparators tail = tail :=
    skipSeparators_of_headIs (((wordsBegin_words style e).apart hbody).1 _ (by simp))
  have hprimary : Yields (parsePrimary (⟨.mark .parenOpen, spaced, o₁⟩ :: tail)) e rest :=
    parsePrimary_yields_paren (by rw [hskip]; exact hinner) (skipSeparators_of_headIs rfl)
  rw [Continues, if_neg (by omega), if_neg (by omega)] at hcont
  exact parseLevel_yields_signed (by omega) (parseSigned_yields hprimary hcont)

/-- What is read at its own tightness is read at every place. -/
theorem ReadAt.anywhere {style : Style} {e : Expr} (h : ReadAt style e.tightness e) (level : Nat)
    (hl : level ≤ levels + 1) : ReadAt style level e := by
  have hle := tightness_le e
  have hloose : ∀ low, low ≤ e.tightness → ReadAt style low e := fun low hlow =>
    h.loosen_to hle low hlow fun _ _ hlt heq => absurd heq (by omega)
  by_cases hcase : level ≤ e.tightness
  · exact hloose level hcase
  · have hparen : ReadAt style (levels + 1) e :=
      (hloose 0 (Nat.zero_le _)).paren (by omega)
    exact hparen.loosen_to (Nat.le_refl _) level hl fun _ h₁ _ heq => absurd heq (by omega)

end DocWeave.Expr
