import DocWeave.Proofs.Expr.Grammar

/-!
# What all phrases have in common

Facts about the tokens of a phrase, each by induction over the rules of the grammar.

* A phrase closes the brackets that it opens (`Derives.depthThrough_eq`).
* It ends in a name, a literal or a closing bracket, and so never in a token behind which a line end
  would not count (`Derives.settled`).
* It is the same phrase at any other place of a text, and with a separator and anything else behind
  it (`Derives.moved`).
-/

namespace DocWeave.Expr

/-! ## Brackets -/

/-- The bracket depth behind the tokens. -/
def depthThrough (depth : Nat) (ts : List Placed) : Nat :=
  ts.foldl (fun d p => depthAfter d p.token) depth

theorem depthThrough_cons (depth : Nat) (p : Placed) (ts : List Placed) :
    depthThrough depth (p :: ts) = depthThrough (depthAfter depth p.token) ts := rfl

theorem depthAfter_separator {p : Placed} (h : p.isSeparator = true) (depth : Nat) :
    depthAfter depth p.token = depth := by
  rw [Placed.eq_of_isSeparator h]
  rfl

theorem depthThrough_skipSeparators (depth : Nat) (ts : List Placed) :
    depthThrough depth (skipSeparators ts) = depthThrough depth ts := by
  unfold skipSeparators
  induction ts with
  | nil => rfl
  | cons p ts ih =>
    rw [List.dropWhile_cons]
    split
    · next h => rw [ih, depthThrough_cons, depthAfter_separator h]
    · rfl

theorem depthThrough_of_skipSeparators {p : Placed} {ts rest : List Placed} (depth : Nat)
    (h : skipSeparators ts = p :: rest) :
    depthThrough depth ts = depthThrough (depthAfter depth p.token) rest := by
  rw [← depthThrough_skipSeparators, h, depthThrough_cons]

theorem depthAfter_operator {n : Nat} {m : Mark} {op : BinaryOp} (h : operatorAt? n m = some op)
    (depth : Nat) : depthAfter depth (.mark m) = depth := by
  unfold operatorAt? at h
  split at h <;> first | rfl | cases h

theorem depthAfter_literal {t : Token} {v : Value} (h : literal? t = some v) (depth : Nat) :
    depthAfter depth t = depth := by
  cases t with
  | mark m => cases h
  | _ => rfl

theorem depthAfter_method {name : String} {t : Token} (h : namesMethod name t) (depth : Nat) :
    depthAfter depth t = depth := by
  cases t with
  | mark m => cases h
  | _ => rfl

/-- The number of brackets that stand open where the phrase begins and that it closes. -/
def Phrase.opened : Phrase → Nat
  | .items _ | .entries _ | .parenArgs _ => 1
  | _ => 0

/-- A phrase closes all brackets that it opens. -/
theorem Derives.depthThrough_eq {p : Phrase} {ts rest : List Placed} (h : Derives p ts rest)
    (d : Nat) : depthThrough (d + p.opened) ts = depthThrough d rest := by
  induction h generalizing d with
  | level _ _ _ ih₁ ih₂ | operand _ _ ih₁ ih₂ | arrow _ _ _ ih₁ ih₂ | commandArg _ _ ih₁ ih₂ =>
    exact (ih₁ d).trans (ih₂ d)
  | operator hm _ _ ih₁ ih₂ =>
    rw [depthThrough_cons, depthAfter_operator hm]
    exact (ih₁ d).trans (ih₂ d)
  | method ht _ _ ih₁ ih₂ =>
    rw [depthThrough_cons, depthThrough_cons, depthAfter_method ht]
    exact (ih₁ d).trans (ih₂ d)
  | literal h =>
    rw [depthThrough_cons, depthAfter_literal h]
    rfl
  | index _ _ ih₁ ih₂ => exact (ih₁ (d + 1)).trans (ih₂ d)
  | item _ _ _ ih₁ ih₂ | entry _ _ _ ih₁ ih₂ => exact (ih₁ (d + 1)).trans (ih₂ d)
  | lastItem _ _ ih | lastEntry _ _ ih => exact ih (d + 1)
  | parens _ ih =>
    rw [← ih d, depthThrough_skipSeparators]
    rfl
  | group _ hm ih =>
    have h := (ih (d + 1)).trans (depthThrough_of_skipSeparators _ hm)
    rw [depthThrough_skipSeparators] at h
    exact h
  | lastParenArg _ _ hm ih => exact (ih (d + 1)).trans (depthThrough_of_skipSeparators _ hm)
  | parenArg _ _ hm _ ih₁ ih₂ =>
    have h := ih₂ d
    rw [depthThrough_skipSeparators] at h
    exact ((ih₁ (d + 1)).trans (depthThrough_of_skipSeparators _ hm)).trans h
  | operatorsEnd _ | suffixesEnd _ | noParens _ | pathEnd _ => rfl
  | itemsEnd | entriesEnd | parenArgsEnd => rfl
  | var _ _ _ => rfl
  | tightest _ _ ih | neg _ ih | not _ ih | array _ ih | hash _ ih | const _ ih | pathPart _ ih
  | labelled _ ih | lastCommandArg _ _ ih | keyword _ ih | splat _ ih | assign _ ih => exact ih d
  | call _ _ _ ih | command _ _ _ _ ih | positional _ _ _ ih | expr _ _ ih => exact ih d

/-! ## The last token -/

/-- A token that a phrase may end in, or a separator. -/
def endsPhrase : Token → Bool
  | .label _ => false
  | .mark m => [Mark.parenClose, .bracketClose, .braceClose, .separator].contains m
  | _ => true

/-- The tokens do not stop inside a phrase. -/
def Settled (ts : List Placed) : Prop := ∀ p ∈ ts.getLast?, endsPhrase p.token = true

theorem settled_nil : Settled [] := by simp [Settled]

theorem Settled.cons {ts : List Placed} (h : Settled ts) (p : Placed) (hne : ts ≠ []) :
    Settled (p :: ts) := by
  cases ts with
  | nil => exact absurd rfl hne
  | cons q ts => simpa [Settled] using h

theorem Settled.cons_end {p : Placed} {ts : List Placed} (h : Settled ts)
    (hp : endsPhrase p.token = true) : Settled (p :: ts) := by
  cases ts with
  | nil => simpa [Settled] using hp
  | cons q ts => exact h.cons p (by simp)

theorem Settled.of_skipSeparators {ts : List Placed} (h : Settled (skipSeparators ts)) :
    Settled ts := by
  unfold skipSeparators at h
  induction ts with
  | nil => exact h
  | cons p ts ih =>
    rw [List.dropWhile_cons] at h
    split at h
    · next hp =>
      refine (ih h).cons_end ?_
      rw [Placed.eq_of_isSeparator hp]
      rfl
    · exact h

theorem Settled.of_skip_eq {p : Placed} {ts rest : List Placed} (h : Settled rest)
    (hs : skipSeparators ts = p :: rest) (hp : endsPhrase p.token = true) : Settled ts :=
  .of_skipSeparators (hs ▸ h.cons_end hp)

theorem ne_nil_of_skipSeparators {ts : List Placed} (h : skipSeparators ts ≠ []) : ts ≠ [] := by
  rintro rfl
  exact h rfl

/-- A phrase that has at least one token. -/
def Phrase.consumes : Phrase → Bool
  | .operators _ _ _ | .suffixes _ _ | .callArgs _ | .path _ _ => false
  | _ => true

theorem Derives.ne_nil {p : Phrase} {ts rest : List Placed} (h : Derives p ts rest)
    (hp : p.consumes = true) : ts ≠ [] := by
  rintro rfl
  have h := h.reads
  cases p with
  | operators _ _ _ | suffixes _ _ | callArgs _ | path _ _ => cases hp
  | _ =>
    obtain ⟨b, _⟩ := h
    cases b

theorem endsPhrase_literal {t : Token} {v : Value} (h : literal? t = some v) :
    endsPhrase t = true := by
  cases t with
  | label name | mark m => cases h
  | _ => rfl

theorem endsPhrase_method {name : String} {t : Token} (h : namesMethod name t) :
    endsPhrase t = true := by
  cases t with
  | label name | mark m => cases h
  | _ => rfl

/-- A phrase does not leave off before its end. -/
theorem Derives.settled {p : Phrase} {ts rest : List Placed} (h : Derives p ts rest)
    (hs : Settled rest) : Settled ts := by
  induction h with
  | level _ _ _ ih₁ ih₂ | operand _ _ ih₁ ih₂ => exact ih₁ (ih₂ hs)
  | operator _ h₁ _ ih₁ ih₂ => exact (ih₁ (ih₂ hs)).cons _ (h₁.ne_nil rfl)
  | neg h ih | not h ih => exact (ih hs).cons _ (h.ne_nil rfl)
  | method ht _ _ ih₁ ih₂ =>
    exact ((ih₁ (ih₂ hs)).cons_end (endsPhrase_method ht)).cons _ (by simp)
  | index h₁ _ ih₁ ih₂ => exact (ih₁ ((ih₂ hs).cons_end rfl)).cons _ (h₁.ne_nil rfl)
  | parens h ih =>
    exact (ih hs).of_skipSeparators.cons _ (ne_nil_of_skipSeparators (h.ne_nil rfl))
  | literal h => exact hs.cons_end (endsPhrase_literal h)
  | group h hm ih =>
    exact (ih (hs.of_skip_eq hm rfl)).of_skipSeparators.cons _
      (ne_nil_of_skipSeparators (h.ne_nil rfl))
  | array h ih | hash h ih => exact (ih hs).cons _ (h.ne_nil rfl)
  | const _ ih | call _ _ _ ih | command _ _ _ _ ih => exact (ih hs).cons_end rfl
  | var _ _ _ => exact hs.cons_end rfl
  | pathPart _ ih => exact ((ih hs).cons_end rfl).cons _ (by simp)
  | itemsEnd | entriesEnd | parenArgsEnd => exact hs.cons_end rfl
  | lastItem _ _ ih | lastEntry _ _ ih => exact ih (hs.cons_end rfl)
  | item _ _ h₂ ih₁ ih₂ | entry _ _ h₂ ih₁ ih₂ | arrow _ _ h₂ ih₁ ih₂ | commandArg _ h₂ ih₁ ih₂ =>
    exact ih₁ ((ih₂ hs).cons _ (h₂.ne_nil rfl))
  | labelled h ih | keyword h ih | splat h ih => exact (ih hs).cons _ (h.ne_nil rfl)
  | lastParenArg _ _ hm ih => exact ih (hs.of_skip_eq hm rfl)
  | parenArg _ _ hm h₂ ih₁ ih₂ =>
    refine ih₁ (.of_skipSeparators (hm ▸ (ih₂ hs).of_skipSeparators.cons _ ?_))
    exact ne_nil_of_skipSeparators (h₂.ne_nil rfl)
  | assign h ih => exact ((ih hs).cons _ (h.ne_nil rfl)).cons _ (by simp)
  | operatorsEnd _ | suffixesEnd _ | noParens _ | pathEnd _ => exact hs
  | tightest _ _ ih | lastCommandArg _ _ ih | positional _ _ _ ih | expr _ _ ih => exact ih hs

/-! ## Other places -/

/-- The token at a place `k` bytes behind its own. -/
def Placed.shift (k : Nat) (p : Placed) : Placed := { p with offset := p.offset + k }

/-- The tokens `k` bytes behind their own places, with others behind them. -/
def moved (k : Nat) (behind ts : List Placed) : List Placed := ts.map (Placed.shift k) ++ behind

/-- What comes next is judged by the first token alone, and a separator counts as the end. -/
structure Lookahead {α : Type} (f : List Placed → α) : Prop where
  head : ∀ t b o o' ts us, f (⟨t, b, o⟩ :: ts) = f (⟨t, b, o'⟩ :: us)
  separator : ∀ b o ts, f (⟨.mark .separator, b, o⟩ :: ts) = f []

theorem Lookahead.moved {α : Type} {f : List Placed → α} (hf : Lookahead f)
    {behind ts : List Placed} (hb : endsStatement behind = true) (k : Nat) {a : α} (h : f ts = a) :
    f (moved k behind ts) = a := by
  rw [← h]
  cases ts with
  | nil =>
    cases behind with
    | nil => rfl
    | cons p us =>
      rw [Placed.eq_of_isSeparator hb]
      exact hf.separator _ _ _
  | cons p ts => exact hf.head _ _ _ _ _ _

theorem lookahead_headIs {m : Mark} (hm : m ≠ .separator) : Lookahead (headIs m) where
  head t b o o' ts us := by cases t <;> rfl
  separator b o ts := by simpa [headIs] using hm

theorem lookahead_endsOperators (n : Nat) : Lookahead (endsOperators n) where
  head t b o o' ts us := by cases t <;> rfl
  separator b o ts := by simp [endsOperators, operatorAt?]

theorem lookahead_endsPostfix : Lookahead endsPostfix where
  head t b o o' ts us := by
    cases t with
    | mark m => cases m <;> cases b <;> rfl
    | _ => rfl
  separator b o ts := rfl

theorem lookahead_parenFollows : Lookahead parenFollows where
  head t b o o' ts us := by
    cases t with
    | mark m => cases m <;> cases b <;> rfl
    | _ => rfl
  separator b o ts := rfl

theorem lookahead_labelFollows : Lookahead labelFollows where
  head t b o o' ts us := by cases t <;> rfl
  separator b o ts := rfl

theorem assignFollows_moved {behind ts : List Placed} (hb : endsStatement behind = true) (k : Nat)
    (h : assignFollows ts = false) : assignFollows (moved k behind ts) = false := by
  cases ts with
  | nil =>
    cases behind with
    | nil => rfl
    | cons p us => rw [Placed.eq_of_isSeparator hb]; rfl
  | cons p ts =>
    obtain ⟨t, b, o⟩ := p
    cases t with
    | ident name => exact (lookahead_headIs (by decide)).moved hb k h
    | _ => rfl

/-- A sign at the end of the tokens might touch what is put behind them, but no phrase ends in one. -/
theorem argumentFollows_moved {behind ts : List Placed} (hb : endsStatement behind = true) (k : Nat)
    (hs : Settled ts) {a : Bool} (h : argumentFollows ts = a) :
    argumentFollows (moved k behind ts) = a := by
  rw [← h]
  cases ts with
  | nil =>
    cases behind with
    | nil => rfl
    | cons p us =>
      rw [Placed.eq_of_isSeparator hb]
      cases p.spaced <;> rfl
  | cons p ts =>
    obtain ⟨t, b, o⟩ := p
    cases b with
    | false => rfl
    | true =>
      cases t with
      | mark m =>
        cases ts with
        | nil =>
          have hm : endsPhrase (.mark m) = true := hs _ rfl
          cases m <;> first | rfl | cases hm
        | cons q ts => cases m <;> rfl
      | _ => rfl

theorem skipSeparators_moved {behind ts : List Placed} (k : Nat) (h : skipSeparators ts ≠ []) :
    skipSeparators (moved k behind ts) = moved k behind (skipSeparators ts) := by
  unfold skipSeparators at h ⊢
  induction ts with
  | nil => exact absurd rfl h
  | cons p ts ih =>
    show List.dropWhile _ (p.shift k :: moved k behind ts) = _
    rw [List.dropWhile_cons] at h ⊢
    rw [List.dropWhile_cons]
    show (if p.isSeparator = true then _ else _) = _
    split
    · next hp => exact ih (by simpa [hp] using h)
    · rfl

theorem skipSeparators_moved_cons {p : Placed} {behind ts rest : List Placed} (k : Nat)
    (h : skipSeparators ts = p :: rest) :
    skipSeparators (moved k behind ts) = p.shift k :: moved k behind rest := by
  rw [skipSeparators_moved k (by simp [h]), h]
  rfl

/-- A phrase is the same at another place, and whatever stands behind a separator at its end. -/
theorem Derives.moved {p : Phrase} {ts rest behind : List Placed} (h : Derives p ts rest)
    (hs : Settled rest) (hb : endsStatement behind = true) (k : Nat) :
    Derives p (moved k behind ts) (moved k behind rest) := by
  induction h with
  | level hn _ h₂ ih₁ ih₂ => exact .level hn (ih₁ (h₂.settled hs)) (ih₂ hs)
  | tightest hn _ ih => exact .tightest hn (ih hs)
  | operator hm _ h₂ ih₁ ih₂ => exact .operator hm (ih₁ (h₂.settled hs)) (ih₂ hs)
  | operatorsEnd h => exact .operatorsEnd ((lookahead_endsOperators _).moved hb k h)
  | neg _ ih => exact .neg (ih hs)
  | not _ ih => exact .not (ih hs)
  | operand _ h₂ ih₁ ih₂ => exact .operand (ih₁ (h₂.settled hs)) (ih₂ hs)
  | method ht _ h₂ ih₁ ih₂ => exact .method ht (ih₁ (h₂.settled hs)) (ih₂ hs)
  | index _ h₂ ih₁ ih₂ => exact .index (ih₁ ((h₂.settled hs).cons_end rfl)) (ih₂ hs)
  | suffixesEnd h => exact .suffixesEnd (lookahead_endsPostfix.moved hb k h)
  | parens h ih =>
    have h' := ih hs
    rw [← skipSeparators_moved k (h.ne_nil rfl)] at h'
    exact .parens h'
  | noParens h => exact .noParens (lookahead_parenFollows.moved hb k h)
  | literal h => exact .literal h
  | group h hm ih =>
    have h' := ih (hs.of_skip_eq hm rfl)
    rw [← skipSeparators_moved k (h.ne_nil rfl)] at h'
    exact .group h' (skipSeparators_moved_cons k hm)
  | array _ ih => exact .array (ih hs)
  | hash _ ih => exact .hash (ih hs)
  | const _ ih => exact .const (ih hs)
  | call hn hp _ ih => exact .call hn (lookahead_parenFollows.moved hb k hp) (ih hs)
  | command hn hp ha h ih =>
    exact .command hn (lookahead_parenFollows.moved hb k hp)
      (argumentFollows_moved hb k (h.settled hs) ha) (ih hs)
  | var hn hp ha =>
    exact .var hn (lookahead_parenFollows.moved hb k hp)
      (argumentFollows_moved hb k hs ha)
  | pathPart _ ih => exact .pathPart (ih hs)
  | pathEnd h => exact .pathEnd ((lookahead_headIs (by decide)).moved hb k h)
  | itemsEnd => exact .itemsEnd
  | lastItem hne _ ih =>
    exact .lastItem ((lookahead_headIs (by decide)).moved hb k hne) (ih (hs.cons_end rfl))
  | item hne _ h₂ ih₁ ih₂ =>
    exact .item ((lookahead_headIs (by decide)).moved hb k hne)
      (ih₁ ((h₂.settled hs).cons _ (h₂.ne_nil rfl))) (ih₂ hs)
  | entriesEnd => exact .entriesEnd
  | lastEntry hne _ ih =>
    exact .lastEntry ((lookahead_headIs (by decide)).moved hb k hne) (ih (hs.cons_end rfl))
  | entry hne _ h₂ ih₁ ih₂ =>
    exact .entry ((lookahead_headIs (by decide)).moved hb k hne)
      (ih₁ ((h₂.settled hs).cons _ (h₂.ne_nil rfl))) (ih₂ hs)
  | labelled _ ih => exact .labelled (ih hs)
  | arrow hl _ h₂ ih₁ ih₂ =>
    exact .arrow (lookahead_labelFollows.moved hb k hl)
      (ih₁ ((h₂.settled hs).cons _ (h₂.ne_nil rfl))) (ih₂ hs)
  | parenArgsEnd => exact .parenArgsEnd
  | lastParenArg hne _ hm ih =>
    exact .lastParenArg ((lookahead_headIs (by decide)).moved hb k hne)
      (ih (hs.of_skip_eq hm rfl)) (skipSeparators_moved_cons k hm)
  | parenArg hne h₁ hm h₂ ih₁ ih₂ =>
    have hnext := ne_nil_of_skipSeparators (h₂.ne_nil rfl)
    have h₂' := ih₂ hs
    rw [← skipSeparators_moved k (h₂.ne_nil rfl)] at h₂'
    exact .parenArg ((lookahead_headIs (by decide)).moved hb k hne)
      (ih₁ (.of_skipSeparators (hm ▸ (h₂.settled hs).of_skipSeparators.cons _ hnext)))
      (skipSeparators_moved_cons k hm) h₂'
  | lastCommandArg _ hr ih =>
    exact .lastCommandArg (ih hs) ((lookahead_headIs (by decide)).moved hb k hr)
  | commandArg _ h₂ ih₁ ih₂ =>
    exact .commandArg (ih₁ ((h₂.settled hs).cons _ (h₂.ne_nil rfl))) (ih₂ hs)
  | keyword _ ih => exact .keyword (ih hs)
  | splat _ ih => exact .splat (ih hs)
  | positional hl hstar _ ih =>
    exact .positional (lookahead_labelFollows.moved hb k hl)
      ((lookahead_headIs (by decide)).moved hb k hstar) (ih hs)
  | assign _ ih => exact .assign (ih hs)
  | expr ha _ ih => exact .expr (assignFollows_moved hb k ha) (ih hs)

/-! ## The first token

Whether a blank stands before an expression or a statement makes no difference to it, and a name that
is assigned to is an expression of its own.
-/

section

variable {name : String} {t : Token} {b b' : Bool} {o o' : Nat} {tail : List Placed}

theorem Derives.spaced_primary {e : Expr} {rest : List Placed}
    (h : Derives (.primary e) (⟨t, b, o⟩ :: tail) rest) :
    Derives (.primary e) (⟨t, b', o⟩ :: tail) rest := by
  cases h with
  | literal h => exact .literal h
  | group h hm => exact .group h hm
  | array h => exact .array h
  | hash h => exact .hash h
  | const h => exact .const h
  | call hn hp h => exact .call hn hp h
  | command hn hp ha h => exact .command hn hp ha h
  | var hn hp ha => exact .var hn hp ha

theorem Derives.spaced_level {n : Nat} {e : Expr} {rest : List Placed}
    (h : Derives (.level n e) (⟨t, b, o⟩ :: tail) rest) :
    Derives (.level n e) (⟨t, b', o⟩ :: tail) rest := by
  cases h with
  | level hn h₁ h₂ => exact .level hn h₁.spaced_level h₂
  | tightest hn h =>
    refine .tightest hn ?_
    cases h with
    | neg h => exact .neg h
    | not h => exact .not h
    | operand h₁ h₂ => exact .operand h₁.spaced_primary h₂
termination_by levels - n

theorem Derives.spaced_stmt {s : Stmt} {rest : List Placed}
    (h : Derives (.stmt s) (⟨t, b, o⟩ :: tail) rest) :
    Derives (.stmt s) (⟨t, b', o⟩ :: tail) rest := by
  cases h with
  | assign h => exact .assign h
  | expr ha h =>
    refine .expr ?_ h.spaced_level
    cases t with
    | ident name => exact ha
    | _ => rfl

theorem operatorAt?_assign (n : Nat) : operatorAt? n .assign = none := by
  rcases n with _ | _ | _ | _ | _ | _ | n <;> rfl

theorem Derives.rest_of_assign {n : Nat} {e : Expr} {rest : List Placed}
    (h : Derives (.level n e) (⟨.ident name, b, o⟩ :: ⟨.mark .assign, b', o'⟩ :: tail) rest) :
    rest = ⟨.mark .assign, b', o'⟩ :: tail := by
  cases h with
  | level hn h₁ h₂ =>
    obtain rfl := h₁.rest_of_assign
    cases h₂ with
    | operator hm _ _ => rw [operatorAt?_assign] at hm; cases hm
    | operatorsEnd _ => rfl
  | tightest hn h =>
    cases h with
    | operand h₁ h₂ =>
      cases h₁ with
      | literal _ | var _ _ _ => cases h₂; rfl
      | call _ hp _ => cases hp
      | command _ _ ha _ => cases b' <;> cases ha
termination_by levels - n

end

end DocWeave.Expr
