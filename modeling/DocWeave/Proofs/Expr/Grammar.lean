import DocWeave.Proofs.Expr.Reading
import DocWeave.Proofs.Stateful

/-!
# The grammar of expressions

`Derives p ts rest` says that the tokens `ts` begin with the phrase `p` and go on with `rest`. It has
one rule for every way in which a routine of the descent succeeds, with what the routine looks at
before it decides, so a phrase is derived exactly when its routine reads it
(`derives_iff_reads`). `DerivesProgram` does the same for lists of statements
(`parseStmts_eq_ok_iff`). What holds of all readings is proved over the rules, without a look at the
descent.
-/

namespace DocWeave.Expr

/-- A kind of phrase with the tree that stands for it. The phrases that go on behind an operand have
the tree so far as well. -/
inductive Phrase where
  | level (n : Nat) (e : Expr)
  | operators (n : Nat) (lhs e : Expr)
  | signed (e : Expr)
  | suffixes (e e' : Expr)
  | callArgs (args : List Arg)
  | primary (e : Expr)
  | path (start path : String)
  | items (es : List Expr)
  | entries (es : List (Expr × Expr))
  | entry (key e : Expr)
  | parenArgs (args : List Arg)
  | commandArgs (args : List Arg)
  | arg (a : Arg)
  | stmt (s : Stmt)

/-- The routine of a phrase reads it and leaves `rest`. -/
def Phrase.Reads (p : Phrase) (ts rest : List Placed) : Prop :=
  match p with
  | .level n e => Yields (parseLevel n ts) e rest
  | .operators n lhs e => Yields (parseOperators n lhs ts) e rest
  | .signed e => Yields (parseSigned ts) e rest
  | .suffixes e e' => Yields (parsePostfix e ts) e' rest
  | .callArgs args => Yields (parseCallArgs ts) args rest
  | .primary e => Yields (parsePrimary ts) e rest
  | .path s s' => Yields (parsePath s ts) s' rest
  | .items es => Yields (parseItems ts) es rest
  | .entries es => Yields (parseEntries ts) es rest
  | .entry key e => Yields (parseEntry ts) (key, e) rest
  | .parenArgs args => Yields (parseParenArgs ts) args rest
  | .commandArgs args => Yields (parseCommandArgs ts) args rest
  | .arg a => Yields (parseArg ts) a rest
  | .stmt s => Yields (parseStmt ts) s rest

/-! ## The rules -/

/-- No operator of the level comes next. -/
def endsOperators (n : Nat) : List Placed → Bool
  | ⟨.mark m, _, _⟩ :: _ => (operatorAt? n m).isNone
  | _ => true

/-- A label comes next. -/
def labelFollows : List Placed → Bool
  | ⟨.label _, _, _⟩ :: _ => true
  | _ => false

/-- An assignment comes next. -/
def assignFollows : List Placed → Bool
  | ⟨.ident _, _, _⟩ :: ts => headIs .assign ts
  | _ => false

/-- The tokens begin with the phrase and go on with the second list. -/
inductive Derives : Phrase → List Placed → List Placed → Prop where
  | level {n lhs ts mid e rest} (hn : n < levels) (h₁ : Derives (.level (n + 1) lhs) ts mid)
      (h₂ : Derives (.operators n lhs e) mid rest) : Derives (.level n e) ts rest
  | tightest {n e ts rest} (hn : levels ≤ n) (h : Derives (.signed e) ts rest) :
      Derives (.level n e) ts rest
  | operator {n m op rhs tail mid lhs e rest b o} (hm : operatorAt? n m = some op)
      (h₁ : Derives (.level (n + 1) rhs) tail mid)
      (h₂ : Derives (.operators n (.binary op lhs rhs) e) mid rest) :
      Derives (.operators n lhs e) (⟨.mark m, b, o⟩ :: tail) rest
  | operatorsEnd {n rest e} (h : endsOperators n rest = true) : Derives (.operators n e e) rest rest
  | neg {e tail rest b o} (h : Derives (.signed e) tail rest) :
      Derives (.signed (.neg e)) (⟨.mark .minus, b, o⟩ :: tail) rest
  | not {e tail rest b o} (h : Derives (.signed e) tail rest) :
      Derives (.signed (.not e)) (⟨.mark .bang, b, o⟩ :: tail) rest
  | operand {e ts mid e' rest} (h₁ : Derives (.primary e) ts mid)
      (h₂ : Derives (.suffixes e e') mid rest) : Derives (.signed e') ts rest
  | method {name t args tail mid e e' rest b₁ o₁ b₂ o₂} (ht : namesMethod name t)
      (h₁ : Derives (.callArgs args) tail mid)
      (h₂ : Derives (.suffixes (methodOf e name args) e') mid rest) :
      Derives (.suffixes e e') (⟨.mark .dot, b₁, o₁⟩ :: ⟨t, b₂, o₂⟩ :: tail) rest
  | index {place tail b o₂ mid e e' rest o₁}
      (h₁ : Derives (.level 0 place) tail (⟨.mark .bracketClose, b, o₂⟩ :: mid))
      (h₂ : Derives (.suffixes (.index e place) e') mid rest) :
      Derives (.suffixes e e') (⟨.mark .bracketOpen, false, o₁⟩ :: tail) rest
  | suffixesEnd {rest e} (h : endsPostfix rest = true) : Derives (.suffixes e e) rest rest
  | parens {args tail rest o} (h : Derives (.parenArgs args) (skipSeparators tail) rest) :
      Derives (.callArgs args) (⟨.mark .parenOpen, false, o⟩ :: tail) rest
  | noParens {rest} (h : parenFollows rest = false) : Derives (.callArgs []) rest rest
  | literal {t v b o rest} (h : literal? t = some v) :
      Derives (.primary (.lit v)) (⟨t, b, o⟩ :: rest) rest
  | group {e tail mid b₂ o₂ rest b₁ o₁} (h : Derives (.level 0 e) (skipSeparators tail) mid)
      (hm : skipSeparators mid = ⟨.mark .parenClose, b₂, o₂⟩ :: rest) :
      Derives (.primary e) (⟨.mark .parenOpen, b₁, o₁⟩ :: tail) rest
  | array {es tail rest b o} (h : Derives (.items es) tail rest) :
      Derives (.primary (.array es)) (⟨.mark .bracketOpen, b, o⟩ :: tail) rest
  | hash {entries tail rest b o} (h : Derives (.entries entries) tail rest) :
      Derives (.primary (.hash entries)) (⟨.mark .braceOpen, b, o⟩ :: tail) rest
  | const {name path tail rest b o} (h : Derives (.path name path) tail rest) :
      Derives (.primary (.const path)) (⟨.const name, b, o⟩ :: tail) rest
  | call {name tail args rest b o} (hn : isReference name = true) (hp : parenFollows tail = true)
      (h : Derives (.callArgs args) tail rest) :
      Derives (.primary (.call name args)) (⟨.ident name, b, o⟩ :: tail) rest
  | command {name tail args rest b o} (hn : isReference name = true)
      (hp : parenFollows tail = false) (ha : argumentFollows tail = true)
      (h : Derives (.commandArgs args) tail rest) :
      Derives (.primary (.call name args)) (⟨.ident name, b, o⟩ :: tail) rest
  | var {name rest b o} (hn : isReference name = true) (hp : parenFollows rest = false)
      (ha : argumentFollows rest = false) :
      Derives (.primary (.var name)) (⟨.ident name, b, o⟩ :: rest) rest
  | pathPart {start name path tail rest b₁ o₁ b₂ o₂}
      (h : Derives (.path (start ++ "::" ++ name) path) tail rest) :
      Derives (.path start path) (⟨.mark .scope, b₁, o₁⟩ :: ⟨.const name, b₂, o₂⟩ :: tail) rest
  | pathEnd {rest path} (h : headIs .scope rest = false) : Derives (.path path path) rest rest
  | itemsEnd {b o rest} : Derives (.items []) (⟨.mark .bracketClose, b, o⟩ :: rest) rest
  | lastItem {ts e b o rest} (hne : headIs .bracketClose ts = false)
      (h : Derives (.level 0 e) ts (⟨.mark .bracketClose, b, o⟩ :: rest)) :
      Derives (.items [e]) ts rest
  | item {ts e b o mid es rest} (hne : headIs .bracketClose ts = false)
      (h₁ : Derives (.level 0 e) ts (⟨.mark .comma, b, o⟩ :: mid))
      (h₂ : Derives (.items es) mid rest) : Derives (.items (e :: es)) ts rest
  | entriesEnd {b o rest} : Derives (.entries []) (⟨.mark .braceClose, b, o⟩ :: rest) rest
  | lastEntry {ts key e b o rest} (hne : headIs .braceClose ts = false)
      (h : Derives (.entry key e) ts (⟨.mark .braceClose, b, o⟩ :: rest)) :
      Derives (.entries [(key, e)]) ts rest
  | entry {ts key e b o mid entries rest} (hne : headIs .braceClose ts = false)
      (h₁ : Derives (.entry key e) ts (⟨.mark .comma, b, o⟩ :: mid))
      (h₂ : Derives (.entries entries) mid rest) : Derives (.entries ((key, e) :: entries)) ts rest
  | labelled {e tail rest name b o} (h : Derives (.level 0 e) tail rest) :
      Derives (.entry (.lit (.str name)) e) (⟨.label name, b, o⟩ :: tail) rest
  | arrow {ts key b o mid e rest} (hl : labelFollows ts = false)
      (h₁ : Derives (.level 0 key) ts (⟨.mark .arrow, b, o⟩ :: mid))
      (h₂ : Derives (.level 0 e) mid rest) : Derives (.entry key e) ts rest
  | parenArgsEnd {b o rest} : Derives (.parenArgs []) (⟨.mark .parenClose, b, o⟩ :: rest) rest
  | lastParenArg {ts a mid b o rest} (hne : headIs .parenClose ts = false)
      (h : Derives (.arg a) ts mid) (hm : skipSeparators mid = ⟨.mark .parenClose, b, o⟩ :: rest) :
      Derives (.parenArgs [a]) ts rest
  | parenArg {ts a mid b o next args rest} (hne : headIs .parenClose ts = false)
      (h₁ : Derives (.arg a) ts mid) (hm : skipSeparators mid = ⟨.mark .comma, b, o⟩ :: next)
      (h₂ : Derives (.parenArgs args) (skipSeparators next) rest) :
      Derives (.parenArgs (a :: args)) ts rest
  | lastCommandArg {a ts rest} (h : Derives (.arg a) ts rest) (hr : headIs .comma rest = false) :
      Derives (.commandArgs [a]) ts rest
  | commandArg {a ts b o mid args rest} (h₁ : Derives (.arg a) ts (⟨.mark .comma, b, o⟩ :: mid))
      (h₂ : Derives (.commandArgs args) mid rest) : Derives (.commandArgs (a :: args)) ts rest
  | keyword {e tail rest name b o} (h : Derives (.level 0 e) tail rest) :
      Derives (.arg (.keyword name e)) (⟨.label name, b, o⟩ :: tail) rest
  | splat {e tail rest b o} (h : Derives (.level 0 e) tail rest) :
      Derives (.arg (.splat e)) (⟨.mark .star, b, o⟩ :: tail) rest
  | positional {ts e rest} (hl : labelFollows ts = false) (hs : headIs .star ts = false)
      (h : Derives (.level 0 e) ts rest) : Derives (.arg (.positional e)) ts rest
  | assign {e tail rest name b₁ o₁ b₂ o₂} (h : Derives (.level 0 e) tail rest) :
      Derives (.stmt (.assign name e)) (⟨.ident name, b₁, o₁⟩ :: ⟨.mark .assign, b₂, o₂⟩ :: tail) rest
  | expr {ts e rest} (ha : assignFollows ts = false) (h : Derives (.level 0 e) ts rest) :
      Derives (.stmt (.expr e)) ts rest

/-! ## Every derived phrase is read -/

theorem parseStmt_yields_assign {name : String} {b₁ b₂ : Bool} {o₁ o₂ : Nat}
    {tail rest : List Placed} {e : Expr} (h : Yields (parseLevel 0 tail) e rest) :
    Yields (parseStmt (⟨.ident name, b₁, o₁⟩ :: ⟨.mark .assign, b₂, o₂⟩ :: tail))
      (.assign name e) rest := by
  obtain ⟨c, h⟩ := h
  refine ⟨by simp only [List.length_cons]; omega, ?_⟩
  rw [parseStmt, h]
  rfl

theorem parseStmt_yields_expr {ts rest : List Placed} {e : Expr} (ha : assignFollows ts = false)
    (h : Yields (parseLevel 0 ts) e rest) : Yields (parseStmt ts) (.expr e) rest := by
  obtain ⟨c, h⟩ := h
  refine ⟨c, ?_⟩
  rw [parseStmt.eq_def]
  split
  · cases ha
  · rw [h]
    rfl

theorem ne_label_of_labelFollows {ts : List Placed} (h : labelFollows ts = false) (name : String)
    (b : Bool) (o : Nat) (tail : List Placed) : ts ≠ ⟨.label name, b, o⟩ :: tail := by
  rintro rfl
  cases h

theorem Derives.reads {p : Phrase} {ts rest : List Placed} (h : Derives p ts rest) :
    p.Reads ts rest := by
  induction h with
  | level hn _ _ ih₁ ih₂ => exact parseLevel_yields hn ih₁ ih₂
  | tightest hn _ ih => exact parseLevel_yields_signed hn ih
  | operator hm _ _ ih₁ ih₂ => exact parseOperators_yields hm ih₁ ih₂
  | operatorsEnd h =>
    refine parseOperators_yields_stop _ ?_
    rintro m b o tail rfl
    exact Option.isNone_iff_eq_none.mp h
  | neg _ ih => exact parseSigned_yields_neg ih
  | not _ ih => exact parseSigned_yields_not ih
  | operand _ _ ih₁ ih₂ => exact parseSigned_yields ih₁ ih₂
  | method ht _ _ ih₁ ih₂ => exact parsePostfix_yields_method ht ih₁ ih₂
  | index _ _ ih₁ ih₂ => exact parsePostfix_yields_index ih₁ ih₂
  | suffixesEnd h => exact parsePostfix_yields_stop _ h
  | parens _ ih => exact parseCallArgs_yields ih
  | noParens h => exact parseCallArgs_yields_none h
  | literal h => exact parsePrimary_yields_literal _ _ _ h
  | group _ hm ih => exact parsePrimary_yields_paren ih hm
  | array _ ih => exact parsePrimary_yields_array ih
  | hash _ ih => exact parsePrimary_yields_hash ih
  | const _ ih => exact parsePrimary_yields_const ih
  | call hn hp _ ih => exact parsePrimary_yields_call hn hp ih
  | command hn hp ha _ ih => exact parsePrimary_yields_command hn hp ha ih
  | var hn hp ha => exact parsePrimary_yields_var _ _ hn hp ha
  | pathPart _ ih => exact parsePath_yields_part ih
  | pathEnd h => exact parsePath_yields_stop _ h
  | itemsEnd => exact ⟨by simp, by rw [parseItems]⟩
  | lastItem hne _ ih => exact parseItems_yields_last hne ih
  | item hne _ _ ih₁ ih₂ => exact parseItems_yields_cons hne ih₁ ih₂
  | entriesEnd => exact ⟨by simp, by rw [parseEntries]⟩
  | lastEntry hne _ ih => exact parseEntries_yields_last hne ih
  | entry hne _ _ ih₁ ih₂ => exact parseEntries_yields_cons hne ih₁ ih₂
  | labelled _ ih => exact parseEntry_yields_label ih
  | arrow hl _ _ ih₁ ih₂ => exact parseEntry_yields (ne_label_of_labelFollows hl) ih₁ ih₂
  | parenArgsEnd => exact ⟨by simp, by rw [parseParenArgs]⟩
  | lastParenArg hne _ hm ih => exact parseParenArgs_yields_last hne ih hm
  | parenArg hne _ hm _ ih₁ ih₂ => exact parseParenArgs_yields_cons hne ih₁ hm ih₂
  | lastCommandArg _ hr ih => exact parseCommandArgs_yields_last ih hr
  | commandArg _ _ ih₁ ih₂ => exact parseCommandArgs_yields_cons ih₁ ih₂
  | keyword _ ih => exact parseArg_yields_keyword ih
  | splat _ ih => exact parseArg_yields_splat ih
  | positional hl hs _ ih => exact parseArg_yields_positional (ne_label_of_labelFollows hl) hs ih
  | assign _ ih => exact parseStmt_yields_assign ih
  | expr ha _ ih => exact parseStmt_yields_expr ha ih

/-! ## Every phrase that is read is derived -/

/-- A routine that is followed by something that succeeds has succeeded itself. -/
theorem yields_of_bind {α β : Type} {k : Nat} {o : Outcome α k}
    {f : Parsed α k → Except SyntaxError β} {r : β} (h : o >>= f = .ok r) :
    ∃ a rest hk, Yields o a rest ∧ f ⟨a, rest, hk⟩ = .ok r := by
  obtain ⟨⟨a, rest, hk⟩, ho, hf⟩ := Stateful.bind_eq_ok h
  exact ⟨a, rest, hk, ⟨hk, ho⟩, hf⟩

theorem eq_cons_of_expect {m : Mark} {fault : GrammarFault} {ts rest : List Placed}
    (h : Yields (expect m fault ts) () rest) : ∃ b o, ts = ⟨.mark m, b, o⟩ :: rest := by
  obtain ⟨_, h⟩ := h
  unfold expect at h
  split at h
  · split at h
    · next hm => cases h; exact ⟨_, _, by rw [hm]⟩
    · cases h
  · cases h

theorem headIs_eq_false {m : Mark} {ts : List Placed}
    (h : ∀ b o tail, ts = ⟨.mark m, b, o⟩ :: tail → False) : headIs m ts = false := by
  unfold headIs
  split
  · next m' b o tail =>
    rw [beq_eq_false_iff_ne]
    rintro rfl
    exact h b o tail rfl
  · rfl

theorem labelFollows_eq_false {ts : List Placed}
    (h : ∀ name b o tail, ts = ⟨.label name, b, o⟩ :: tail → False) : labelFollows ts = false := by
  unfold labelFollows
  split
  · exact (h _ _ _ _ rfl).elim
  · rfl

/-- Every phrase that is read off fewer than `k` tokens is derived. -/
def DerivedBelow (k : Nat) : Prop :=
  ∀ {p us rest}, us.length < k → Phrase.Reads p us rest → Derives p us rest

section

variable {ts rest : List Placed} (ih : DerivedBelow ts.length)
include ih

theorem derives_of_parsePath {s s' : String} (h : Yields (parsePath s ts) s' rest) :
    Derives (.path s s') ts rest := by
  obtain ⟨b, h⟩ := h
  by_cases hscope : ∃ b o tail, ts = ⟨.mark .scope, b, o⟩ :: tail
  · obtain ⟨b₁, o₁, tail, rfl⟩ := hscope
    cases tail with
    | nil => cases h
    | cons p tail =>
      obtain ⟨t, b₂, o₂⟩ := p
      cases t with
      | const name =>
        change (parsePath (s ++ "::" ++ name) tail >>= _) = _ at h
        obtain ⟨s₁, r₁, b₁, h₁, h⟩ := yields_of_bind h
        cases h
        exact .pathPart (ih (Nat.lt_succ_of_lt (Nat.lt_succ_self _)) h₁)
      | _ => cases h
  · have hend : headIs .scope ts = false :=
      headIs_eq_false fun b o tail hts => hscope ⟨b, o, tail, hts⟩
    obtain ⟨_, hstop⟩ := parsePath_yields_stop s hend
    rw [hstop] at h
    cases h
    exact .pathEnd hend

theorem derives_of_parseOperators {n : Nat} {lhs e : Expr}
    (h : Yields (parseOperators n lhs ts) e rest) : Derives (.operators n lhs e) ts rest := by
  obtain ⟨b, h⟩ := h
  rw [parseOperators.eq_def] at h
  split at h
  · split at h
    · next hm =>
      obtain ⟨rhs, mid, b₁, h₁, h⟩ := yields_of_bind h
      obtain ⟨e', rest', b₂, h₂, h⟩ := yields_of_bind h
      cases h
      exact .operator hm (ih (Nat.lt_succ_self _) h₁) (ih (Nat.lt_succ_of_lt b₁) h₂)
    · next hm =>
      cases h
      exact .operatorsEnd (by simp [endsOperators, hm])
  · next hmark =>
    cases h
    refine .operatorsEnd ?_
    unfold endsOperators
    split
    · exact (hmark _ _ _ _ rfl).elim
    · rfl

theorem derives_of_parseCallArgs {args : List Arg} (h : Yields (parseCallArgs ts) args rest) :
    Derives (.callArgs args) ts rest := by
  obtain ⟨b, h⟩ := h
  rw [parseCallArgs.eq_def] at h
  split at h
  · next tail =>
    obtain ⟨args', rest', b₁, h₁, h⟩ := yields_of_bind h
    cases h
    exact .parens (ih (Nat.lt_succ_of_le (skipSeparators_length tail)) h₁)
  · next hparen =>
    cases h
    refine .noParens ?_
    unfold parenFollows
    split
    · exact (hparen _ _ rfl).elim
    · rfl

theorem derives_of_parsePostfix {e e' : Expr} (h : Yields (parsePostfix e ts) e' rest) :
    Derives (.suffixes e e') ts rest := by
  obtain ⟨b, h⟩ := h
  rw [parsePostfix.eq_def] at h
  split at h
  · obtain ⟨args, mid, b₁, h₁, h⟩ := yields_of_bind h
    obtain ⟨e₂, rest', b₂, h₂, h⟩ := yields_of_bind h
    cases h
    exact .method rfl (ih (Nat.lt_succ_of_lt (Nat.lt_succ_self _)) h₁) (ih (Nat.lt_succ_of_lt b₁) h₂)
  · obtain ⟨args, mid, b₁, h₁, h⟩ := yields_of_bind h
    obtain ⟨e₂, rest', b₂, h₂, h⟩ := yields_of_bind h
    cases h
    exact .method rfl (ih (Nat.lt_succ_of_lt (Nat.lt_succ_self _)) h₁) (ih (Nat.lt_succ_of_lt b₁) h₂)
  · cases h
  · obtain ⟨place, mid, b₁, h₁, h⟩ := yields_of_bind h
    obtain ⟨_, mid', b₂, h₂, h⟩ := yields_of_bind h
    obtain ⟨e₂, rest', b₃, h₃, h⟩ := yields_of_bind h
    obtain ⟨_, _, rfl⟩ := eq_cons_of_expect h₂
    cases h
    exact .index (ih (Nat.lt_succ_self _) h₁) (ih (Nat.lt_succ_of_lt (Nat.lt_trans b₂ b₁)) h₃)
  · next hident hconst hdot hbracket =>
    cases h
    refine .suffixesEnd ?_
    unfold endsPostfix
    split
    · exact (hdot _ _ _ rfl).elim
    · exact (hbracket _ _ rfl).elim
    · rfl

theorem derives_of_parsePrimary {e : Expr} (h : Yields (parsePrimary ts) e rest) :
    Derives (.primary e) ts rest := by
  obtain ⟨b, h⟩ := h
  rw [parsePrimary.eq_def] at h
  split at h
  · cases h
  · next t spaced offset tail =>
    split at h
    · cases h; exact .literal rfl
    · cases h; exact .literal rfl
    · cases h; exact .literal rfl
    · cases h; exact .literal rfl
    · obtain ⟨e', mid, b₁, h₁, h⟩ := yields_of_bind h
      obtain ⟨_, rest', b₂, h₂, h⟩ := yields_of_bind h
      obtain ⟨_, _, hm⟩ := eq_cons_of_expect h₂
      cases h
      exact .group (ih (Nat.lt_succ_of_le (skipSeparators_length tail)) h₁) hm
    · obtain ⟨es, rest', b₁, h₁, h⟩ := yields_of_bind h
      cases h
      exact .array (ih (Nat.lt_succ_self _) h₁)
    · obtain ⟨entries, rest', b₁, h₁, h⟩ := yields_of_bind h
      cases h
      exact .hash (ih (Nat.lt_succ_self _) h₁)
    · obtain ⟨path, rest', b₁, h₁, h⟩ := yields_of_bind h
      cases h
      exact .const (ih (Nat.lt_succ_self _) h₁)
    · next name =>
      split at h
      · next hn => cases h; exact .literal (by simp [literal?, hn])
      · next hnil =>
        split at h
        · next hn => cases h; exact .literal (by simp [literal?, hn])
        · next htrue =>
          split at h
          · next hn => cases h; exact .literal (by simp [literal?, hn])
          · next hfalse =>
            split at h
            · cases h
            · next hword =>
              have hn : isReference name = true :=
                isReference_iff.mpr ⟨hnil, htrue, hfalse, Bool.eq_false_iff.mpr hword⟩
              split at h
              · next hp =>
                obtain ⟨args, rest', b₁, h₁, h⟩ := yields_of_bind h
                cases h
                exact .call hn hp (ih (Nat.lt_succ_self _) h₁)
              · next hp =>
                have hp := Bool.eq_false_iff.mpr hp
                split at h
                · next ha =>
                  obtain ⟨args, rest', b₁, h₁, h⟩ := yields_of_bind h
                  cases h
                  exact .command hn hp ha (ih (Nat.lt_succ_self _) h₁)
                · next ha =>
                  cases h
                  exact .var hn hp (Bool.eq_false_iff.mpr ha)
    · cases h

theorem derives_of_parseSigned {e : Expr} (h : Yields (parseSigned ts) e rest) :
    Derives (.signed e) ts rest := by
  obtain ⟨b, h⟩ := h
  rw [parseSigned.eq_def] at h
  split at h
  · obtain ⟨e', rest', b₁, h₁, h⟩ := yields_of_bind h
    cases h
    exact .neg (ih (Nat.lt_succ_self _) h₁)
  · obtain ⟨e', rest', b₁, h₁, h⟩ := yields_of_bind h
    cases h
    exact .not (ih (Nat.lt_succ_self _) h₁)
  · obtain ⟨e₁, mid, b₁, h₁, h⟩ := yields_of_bind h
    obtain ⟨e₂, rest', b₂, h₂, h⟩ := yields_of_bind h
    cases h
    exact .operand (derives_of_parsePrimary ih h₁) (ih b₁ h₂)

theorem derives_of_parseLevel {n : Nat} {e : Expr} {left : List Placed}
    (h : Yields (parseLevel n ts) e left) : Derives (.level n e) ts left := by
  obtain ⟨b, h⟩ := h
  rw [parseLevel] at h
  split at h
  · next hn =>
    obtain ⟨lhs, mid, b₁, h₁, h⟩ := yields_of_bind h
    obtain ⟨e', rest', b₂, h₂, h⟩ := yields_of_bind h
    cases h
    exact .level hn (derives_of_parseLevel h₁) (ih b₁ h₂)
  · next hn => exact .tightest (Nat.not_lt.mp hn) (derives_of_parseSigned ih ⟨b, h⟩)
termination_by levels - n

theorem derives_of_parseItems {es : List Expr} (h : Yields (parseItems ts) es rest) :
    Derives (.items es) ts rest := by
  obtain ⟨b, h⟩ := h
  rw [parseItems.eq_def] at h
  split at h
  · cases h
    exact .itemsEnd
  · next hclose =>
    obtain ⟨e, mid, b₁, h₁, h⟩ := yields_of_bind h
    have he := derives_of_parseLevel ih h₁
    dsimp only at h
    split at h
    · next b₁ =>
      obtain ⟨es', rest', b₂, h₂, h⟩ := yields_of_bind h
      cases h
      exact .item (headIs_eq_false hclose) he (ih (Nat.lt_of_succ_lt b₁) h₂)
    · obtain ⟨_, rest', b₂, h₂, h⟩ := yields_of_bind h
      obtain ⟨_, _, rfl⟩ := eq_cons_of_expect h₂
      cases h
      exact .lastItem (headIs_eq_false hclose) he

theorem derives_of_parseEntry {key e : Expr} (h : Yields (parseEntry ts) (key, e) rest) :
    Derives (.entry key e) ts rest := by
  obtain ⟨b, h⟩ := h
  rw [parseEntry.eq_def] at h
  split at h
  · obtain ⟨e', rest', b₁, h₁, h⟩ := yields_of_bind h
    cases h
    exact .labelled (ih (Nat.lt_succ_self _) h₁)
  · next hlabel =>
    obtain ⟨key', mid, b₁, h₁, h⟩ := yields_of_bind h
    obtain ⟨_, mid', b₂, h₂, h⟩ := yields_of_bind h
    obtain ⟨e', rest', b₃, h₃, h⟩ := yields_of_bind h
    obtain ⟨_, _, rfl⟩ := eq_cons_of_expect h₂
    cases h
    exact .arrow (labelFollows_eq_false hlabel) (derives_of_parseLevel ih h₁)
      (ih (Nat.lt_trans b₂ b₁) h₃)

theorem derives_of_parseEntries {entries : List (Expr × Expr)}
    (h : Yields (parseEntries ts) entries rest) : Derives (.entries entries) ts rest := by
  obtain ⟨b, h⟩ := h
  rw [parseEntries.eq_def] at h
  split at h
  · cases h
    exact .entriesEnd
  · next hclose =>
    obtain ⟨⟨key, e⟩, mid, b₁, h₁, h⟩ := yields_of_bind h
    have he := derives_of_parseEntry ih h₁
    dsimp only at h
    split at h
    · next b₁ =>
      obtain ⟨es', rest', b₂, h₂, h⟩ := yields_of_bind h
      cases h
      exact .entry (headIs_eq_false hclose) he (ih (Nat.lt_of_succ_lt b₁) h₂)
    · obtain ⟨_, rest', b₂, h₂, h⟩ := yields_of_bind h
      obtain ⟨_, _, rfl⟩ := eq_cons_of_expect h₂
      cases h
      exact .lastEntry (headIs_eq_false hclose) he

theorem derives_of_parseArg {a : Arg} (h : Yields (parseArg ts) a rest) :
    Derives (.arg a) ts rest := by
  obtain ⟨b, h⟩ := h
  rw [parseArg.eq_def] at h
  split at h
  · obtain ⟨e, rest', b₁, h₁, h⟩ := yields_of_bind h
    cases h
    exact .keyword (ih (Nat.lt_succ_self _) h₁)
  · obtain ⟨e, rest', b₁, h₁, h⟩ := yields_of_bind h
    cases h
    exact .splat (ih (Nat.lt_succ_self _) h₁)
  · next hlabel hstar =>
    obtain ⟨e, rest', b₁, h₁, h⟩ := yields_of_bind h
    cases h
    exact .positional (labelFollows_eq_false hlabel) (headIs_eq_false hstar)
      (derives_of_parseLevel ih h₁)

theorem derives_of_parseParenArgs {args : List Arg} (h : Yields (parseParenArgs ts) args rest) :
    Derives (.parenArgs args) ts rest := by
  obtain ⟨b, h⟩ := h
  rw [parseParenArgs.eq_def] at h
  split at h
  · cases h
    exact .parenArgsEnd
  · next hclose =>
    obtain ⟨a, mid, b₁, h₁, h⟩ := yields_of_bind h
    have ha := derives_of_parseArg ih h₁
    dsimp only at h
    split at h
    · next next' hm =>
      obtain ⟨args', rest', b₂, h₂, h⟩ := yields_of_bind h
      cases h
      have hnext : (skipSeparators next').length < ts.length := by
        have hs := skipSeparators_length mid
        have hs' := skipSeparators_length next'
        rw [hm, List.length_cons] at hs
        omega
      exact .parenArg (headIs_eq_false hclose) ha hm (ih hnext h₂)
    · obtain ⟨_, rest', b₂, h₂, h⟩ := yields_of_bind h
      obtain ⟨_, _, hm⟩ := eq_cons_of_expect h₂
      cases h
      exact .lastParenArg (headIs_eq_false hclose) ha hm

theorem derives_of_parseCommandArgs {args : List Arg}
    (h : Yields (parseCommandArgs ts) args rest) : Derives (.commandArgs args) ts rest := by
  obtain ⟨b, h⟩ := h
  rw [parseCommandArgs] at h
  obtain ⟨a, mid, b₁, h₁, h⟩ := yields_of_bind h
  have ha := derives_of_parseArg ih h₁
  dsimp only at h
  split at h
  · next b₁ =>
    obtain ⟨args', rest', b₂, h₂, h⟩ := yields_of_bind h
    cases h
    exact .commandArg ha (ih (Nat.lt_of_succ_lt b₁) h₂)
  · next hcomma =>
    cases h
    refine .lastCommandArg ha (headIs_eq_false ?_)
    rintro spaced offset tail rfl
    exact hcomma spaced offset tail b₁ rfl HEq.rfl

theorem derives_of_parseStmt {s : Stmt} (h : Yields (parseStmt ts) s rest) :
    Derives (.stmt s) ts rest := by
  obtain ⟨b, h⟩ := h
  rw [parseStmt.eq_def] at h
  split at h
  · obtain ⟨e, rest', b₁, h₁, h⟩ := yields_of_bind h
    cases h
    exact .assign (ih (Nat.lt_succ_of_lt (Nat.lt_succ_self _)) h₁)
  · next hassign =>
    obtain ⟨e, rest', b₁, h₁, h⟩ := yields_of_bind h
    cases h
    refine .expr ?_ (derives_of_parseLevel ih h₁)
    unfold assignFollows
    split
    · refine headIs_eq_false ?_
      rintro _ _ _ rfl
      exact hassign _ _ _ _ _ _ rfl
    · rfl

end

theorem derivedBelow (k : Nat) : DerivedBelow k := by
  induction k with
  | zero => intro p us rest hk; omega
  | succ k ih =>
    intro p us rest hk h
    have ih : DerivedBelow us.length := fun hv => ih (by omega)
    cases p with
    | level n e => exact derives_of_parseLevel ih h
    | operators n lhs e => exact derives_of_parseOperators ih h
    | signed e => exact derives_of_parseSigned ih h
    | suffixes e e' => exact derives_of_parsePostfix ih h
    | callArgs args => exact derives_of_parseCallArgs ih h
    | primary e => exact derives_of_parsePrimary ih h
    | path s s' => exact derives_of_parsePath ih h
    | items es => exact derives_of_parseItems ih h
    | entries es => exact derives_of_parseEntries ih h
    | entry key e => exact derives_of_parseEntry ih h
    | parenArgs args => exact derives_of_parseParenArgs ih h
    | commandArgs args => exact derives_of_parseCommandArgs ih h
    | arg a => exact derives_of_parseArg ih h
    | stmt s => exact derives_of_parseStmt ih h

/-- A phrase is derived exactly when its routine reads it. -/
theorem derives_iff_reads {p : Phrase} {ts rest : List Placed} :
    Derives p ts rest ↔ p.Reads ts rest :=
  ⟨Derives.reads, derivedBelow (ts.length + 1) (Nat.lt_succ_self _)⟩

/-! ## Programs -/

/-- A statement may end here. -/
def endsStatement : List Placed → Bool
  | [] => true
  | p :: _ => p.isSeparator

/-- The tokens are those of the statements, with separators between them. -/
inductive DerivesProgram : List Placed → Program → Prop where
  | nil {ts} (h : skipSeparators ts = []) : DerivesProgram ts []
  | cons {s ts rest program} (h₁ : Derives (.stmt s) (skipSeparators ts) rest)
      (he : endsStatement rest = true) (h₂ : DerivesProgram rest program) :
      DerivesProgram ts (s :: program)

theorem DerivesProgram.congr {ts us : List Placed} {program : Program}
    (h : DerivesProgram ts program) (hs : skipSeparators us = skipSeparators ts) :
    DerivesProgram us program := by
  cases h with
  | nil h => exact .nil (hs.trans h)
  | cons h₁ he h₂ => exact .cons (hs ▸ h₁) he h₂

theorem Placed.eq_of_isSeparator {p : Placed} (h : p.isSeparator = true) :
    p = ⟨.mark .separator, p.spaced, p.offset⟩ := by
  obtain ⟨t, spaced, offset⟩ := p
  unfold Placed.isSeparator at h
  split at h
  · next ht => cases ht; rfl
  · cases h

theorem parseStmts_congr {ts us : List Placed} (h : skipSeparators ts = skipSeparators us) :
    parseStmts ts = parseStmts us := by
  rw [parseStmts.eq_def ts, parseStmts.eq_def us]
  dsimp only
  split
  · next hts _ =>
    split
    · rfl
    · next hus _ => rw [← h, hts] at hus; cases hus
  · next hts _ =>
    split
    · next hus _ => rw [← h, hts] at hus; cases hus
    · next hus _ =>
      rw [← h, hts] at hus
      cases hus
      rfl

theorem DerivesProgram.parse {ts : List Placed} {program : Program}
    (h : DerivesProgram ts program) : parseStmts ts = .ok program := by
  induction h with
  | nil h => rw [@parseStmts_congr _ [] h, parseStmts]; rfl
  | @cons s ts rest program h₁ he h₂ ih =>
    have hread : Yields (parseStmt (skipSeparators ts)) s rest := h₁.reads
    rw [parseStmts]
    split
    · next hs _ =>
      rw [hs] at hread
      obtain ⟨b, _⟩ := hread
      cases b
    · next hs _ =>
      rw [hs] at hread
      obtain ⟨b, hread⟩ := hread
      rw [hread]
      cases rest with
      | nil =>
        rw [parseStmts] at ih
        cases ih
        rfl
      | cons p rest =>
        have hrest : parseStmts rest = .ok program := by
          rw [Placed.eq_of_isSeparator he] at ih
          rw [← ih]
          exact parseStmts_congr rfl
        rw [Placed.eq_of_isSeparator he]
        show (parseStmts rest >>= _) = _
        rw [hrest]
        rfl

theorem derivesProgram_of_parseStmts {ts : List Placed} {program : Program}
    (h : parseStmts ts = .ok program) : DerivesProgram ts program := by
  induction hk : ts.length using Nat.strongRecOn generalizing ts program with
  | _ k ih =>
  rw [parseStmts] at h
  split at h
  · next hs _ => cases h; exact .nil hs
  · next t tail hb hs _ =>
    obtain ⟨s, rest, b₁, h₁, h⟩ := yields_of_bind h
    have hstmt : Derives (.stmt s) (skipSeparators ts) rest := by
      rw [hs]
      exact derives_iff_reads.mpr h₁
    dsimp only at h
    split at h
    · cases h
      exact .cons hstmt rfl (.nil rfl)
    · next rest' b₂ =>
      obtain ⟨program', hrest, h⟩ := Stateful.bind_eq_ok h
      cases h
      have hk' : rest'.length < k := by
        simp only [List.length_cons] at b₂ hb
        omega
      exact .cons hstmt rfl ((ih _ hk' hrest rfl).congr rfl)
    · cases h

theorem parseStmts_eq_ok_iff {ts : List Placed} {program : Program} :
    parseStmts ts = .ok program ↔ DerivesProgram ts program :=
  ⟨derivesProgram_of_parseStmts, DerivesProgram.parse⟩

end DocWeave.Expr
