import DocWeave.Proofs.Expr.Pieces
import Mathlib.Data.List.Forall2

/-!
# Canonical text is cut into its words

The text of an expression is put together from pieces, and the lexer cuts it into the words of these
pieces, by induction over the expression (`cutsAs_printed`). What has to be known of an operand's text
besides is how it begins (`beginsApart_printed`). The whole text is read as the words of the whole
expression (`lex_print`).
-/

namespace DocWeave.Expr

open DocWeave.Text

/-! ## Expressions -/

/-- The text begins with a character other than `=`. -/
def BeginsApart (text : List Char) : Prop := ∃ c s, text = c :: s ∧ c ≠ '='

theorem BeginsApart.append {text : List Char} (h : BeginsApart text) (more : List Char) :
    BeginsApart (text ++ more) := by
  obtain ⟨c, s, rfl, hc⟩ := h
  exact ⟨c, s ++ more, rfl, hc⟩

theorem BeginsApart.enclose {text : List Char} (h : BeginsApart text) (place : Nat) (e : Expr) :
    BeginsApart (enclose place e text) := by
  unfold Expr.enclose
  split
  · exact ⟨'(', text ++ [')'], rfl, by decide⟩
  · exact h

theorem beginsApart_identifier {name : String} (h : isIdentifier name = true) :
    BeginsApart name.toList := by
  obtain ⟨c, s, hn, hc, -⟩ := isIdentifier_cons h
  refine ⟨c, s, hn, ?_⟩
  rintro rfl
  exact absurd hc (by decide)

theorem beginsApart_path {path : String} (h : isConstantPath path = true) :
    BeginsApart path.toList := by
  obtain ⟨first, parts, hp, hpath⟩ := exists_pathParts path
  rw [isConstantPath, hp, List.all_cons, Bool.and_eq_true] at h
  rw [hpath]
  refine BeginsApart.append ?_ _
  cases first with
  | nil => cases h.1
  | cons c s =>
    refine ⟨c, s, rfl, ?_⟩
    rintro rfl
    exact absurd h.1 (by simp [isConstantName])

/-- No expression begins with `=`, so a `!` before it is never a part of `!=`. -/
theorem beginsApart_printed (style : Style) : ∀ e : Expr, isPrintable e = true →
    BeginsApart (printed style e)
  | .lit v, h => by
    cases v with
    | nil => exact ⟨'n', _, rfl, by decide⟩
    | bool b => cases b <;> exact ⟨_, _, rfl, by decide⟩
    | int i =>
      obtain ⟨c, s, hs⟩ :=
        List.exists_cons_of_ne_nil (Nat.toDigits_ne_nil (b := 10) (n := i.toInt.toNat))
      refine ⟨c, s, by simpa [printed, literalText] using hs, ?_⟩
      rintro rfl
      have hdigit : ('=' : Char).isDigit = true :=
        Nat.isDigit_of_mem_toDigits (by decide) (by decide) (hs ▸ List.mem_cons_self)
      exact absurd hdigit (by decide)
    | str s => exact ⟨'\'', _, rfl, by decide⟩
    | sym s => exact ⟨':', _, rfl, by decide⟩
    | float x => cases h
    | code s => cases h
    | array items => cases h
    | hash entries => cases h
  | .array _, _ => ⟨'[', _, rfl, by decide⟩
  | .hash _, _ => ⟨'\x7b', _, rfl, by decide⟩
  | .var name, h => by
    simp only [isPrintable, isPlainName, Bool.and_eq_true] at h
    exact beginsApart_identifier h.1.1
  | .call name args, h => by
    simp only [isPrintable, isPlainName, Bool.and_eq_true] at h
    exact (beginsApart_identifier h.1.1.1).append _
  | .const path, h => beginsApart_path h
  | .constCall path method args, h => by
    simp only [isPrintable, Bool.and_eq_true] at h
    exact (beginsApart_path h.1.1).append _
  | .send receiver method args, h => by
    simp only [isPrintable, Bool.and_eq_true] at h
    exact ((beginsApart_printed style receiver h.1.1.2).enclose _ _).append _
  | .index receiver place, h => by
    simp only [isPrintable, Bool.and_eq_true] at h
    exact ((beginsApart_printed style receiver h.1).enclose _ _).append _
  | .neg _, _ => ⟨'-', _, rfl, by decide⟩
  | .not _, _ => ⟨'!', _, rfl, by decide⟩
  | .binary op lhs rhs, h => by
    simp only [isPrintable, Bool.and_eq_true] at h
    exact ((beginsApart_printed style lhs h.1).enclose _ _).append _

/-- The text is cut into the words, wherever it stands and whatever may follow it. -/
def CutsAs (text : List Char) (ws : Bool → List Word) : Prop :=
  ∀ spaced rest, Stops rest → Cuts spaced (text ++ rest) (ws spaced) rest

theorem CutsAs.enclose {text : List Char} {ws : Bool → List Word} (h : CutsAs text ws)
    (place : Nat) (e : Expr) : CutsAs (enclose place e text) (encloseWords place e ws) := by
  intro spaced rest hr
  unfold Expr.enclose encloseWords
  split
  · rw [List.cons_append, List.append_assoc]
    have hopen := Cuts.bracket (c := '(') spaced rfl rfl (text ++ ([')'] ++ rest))
    have hclose := Cuts.bracket (c := ')') false rfl rfl rest
    exact hopen.trans ((h false _ (Stops.cons (by decide) (by decide))).trans hclose)
  · exact h spaced rest hr

/-- Listed pieces are cut one after the other. An empty list has no word that a blank could precede. -/
theorem cuts_comma {texts : List (List Char)} {wss : List (Bool → List Word)}
    (h : List.Forall₂ CutsAs texts wss) {rest : List Char} (hr : Stops rest) :
    ∀ spaced, (texts = [] → spaced = false) →
      Cuts spaced (commaText texts ++ rest) (commaWords wss spaced) rest := by
  induction h with
  | nil =>
    intro spaced hs
    rw [hs rfl]
    exact Cuts.refl rest
  | cons hhead htail ih =>
    intro spaced _
    cases htail with
    | nil => exact hhead spaced rest hr
    | @cons next ws texts wss hnext htail =>
      rw [commaText, commaWords, List.append_assoc]
      refine (hhead spaced _ (Stops.cons (by decide) (by decide))).trans ?_
      have hcomma := Cuts.bracket (c := ',') false rfl rfl
        (' ' :: commaText (next :: texts) ++ rest)
      exact hcomma.trans (Cuts.blank false (ih true (by simp)))

/-- Listed pieces between an opening and a closing mark. -/
theorem cuts_listed {a z : Char} {m m' : Mark} (ha : mark1? a = some m) (hz : mark1? z = some m')
    (hopen : ['(', '[', '\x7b'].contains a = true) (hclose : [')', ']', '\x7d'].contains z = true)
    {texts : List (List Char)} {wss : List (Bool → List Word)} (h : List.Forall₂ CutsAs texts wss)
    (spaced : Bool) (rest : List Char) :
    Cuts spaced (a :: (commaText texts ++ [z]) ++ rest)
      ((.mark m, spaced) :: (commaWords wss false ++ [(.mark m', false)])) rest := by
  simp only [List.contains_eq_mem, List.mem_cons, List.not_mem_nil, or_false,
    decide_eq_true_eq] at hopen hclose
  rw [List.cons_append, List.append_assoc]
  have hbegin := Cuts.bracket (c := a) spaced ha (by rcases hopen with rfl | rfl | rfl <;> rfl)
    (commaText texts ++ ([z] ++ rest))
  have hend := Cuts.bracket (c := z) false hz (by rcases hclose with rfl | rfl | rfl <;> rfl) rest
  have hstops : Stops (z :: rest) := by
    rcases hclose with rfl | rfl | rfl <;> exact Stops.cons (by decide) (by decide)
  exact hbegin.trans ((cuts_comma h hstops false fun _ => rfl).trans hend)

theorem cuts_call {texts : List (List Char)} {wss : List (Bool → List Word)}
    (h : List.Forall₂ CutsAs texts wss) (rest : List Char) :
    Cuts false (callText texts ++ rest) (callWords wss) rest :=
  cuts_listed rfl rfl rfl rfl h false rest

/-- A method's name begins with no digit, so the point before it is no decimal point. -/
theorem stops_method {name : String} (h : isMethodName name = true) (rest : List Char) :
    Stops ('.' :: (name.toList ++ rest)) := by
  obtain ⟨c, s, hs, hc⟩ : ∃ c s, name.toList = c :: s ∧ c.isDigit = false := by
    rw [isMethodName, Bool.or_eq_true] at h
    rcases h with h | h
    · obtain ⟨c, s, hs, hc, -⟩ := isIdentifier_cons h
      exact ⟨c, s, hs, isDigit_of_isNameStart hc⟩
    · cases hs : name.toList with
      | nil => rw [hs] at h; cases h
      | cons c s =>
        rw [hs, isConstantName, Bool.and_eq_true] at h
        exact ⟨c, s, rfl, isDigit_of_isUpper h.1⟩
  refine ⟨by simp [isStop], ?_⟩
  intro d t ht
  rw [hs] at ht
  obtain ⟨-, ht⟩ := List.cons.inj ht
  exact (List.cons.inj ht).1 ▸ hc

theorem cuts_method (style : Style) {name : String} {texts : List (List Char)}
    {wss : List (Bool → List Word)} (hname : isMethodName name = true)
    (h : List.Forall₂ CutsAs texts wss) {rest : List Char} (hr : Stops rest) :
    Cuts false ('.' :: (name.toList ++ (methodText style texts ++ rest)))
      ((.mark .dot, false) :: (methodToken name, false) :: methodWords style wss) rest := by
  have hdot := Cuts.bracket (c := '.') false rfl rfl
    (name.toList ++ (methodText style texts ++ rest))
  -- what follows the name ends it: the parenthesis, or what follows the whole
  have hargs : Stops (methodText style texts ++ rest) ∧
      Cuts false (methodText style texts ++ rest) (methodWords style wss) rest := by
    have hempty : texts.isEmpty = wss.isEmpty := by cases h <;> rfl
    unfold methodText methodWords
    rw [hempty]
    split
    · exact ⟨hr, Cuts.refl rest⟩
    · exact ⟨Stops.cons (by decide) (by decide), cuts_call h rest⟩
  have hmethod : Cuts false (name.toList ++ (methodText style texts ++ rest))
      [(methodToken name, false)] (methodText style texts ++ rest) := by
    unfold methodToken
    split
    · next hconst =>
      have hcut := cuts_constant hconst false fun d hd => (isStop_spec (hargs.1.head d hd)).1
      rwa [String.ofList_toList] at hcut
    · next hconst =>
      have hident : isIdentifier name = true := by
        simpa [isMethodName, hconst] using hname
      exact cuts_name hident false hargs.1
  exact hdot.trans (hmethod.trans hargs.2)

theorem cutsAs_literal {style : Style} {v : Value} (h : isPrintableLiteral v = true) :
    CutsAs (literalText style v) fun spaced => [(literalToken v, spaced)] := by
  intro spaced rest hr
  have hwords : isIdentifier "nil" = true ∧ isIdentifier "true" = true ∧
      isIdentifier "false" = true := by decide
  cases v with
  | nil => exact cuts_name hwords.1 spaced hr
  | bool b =>
    cases b with
    | true => exact cuts_name hwords.2.1 spaced hr
    | false => exact cuts_name hwords.2.2 spaced hr
  | int i => exact cuts_number (by simpa [isPrintableLiteral] using h) spaced hr
  | str s => exact cuts_quoted s spaced rest
  | sym s =>
    simp only [literalText, literalToken, List.cons_append]
    split
    · next hbare =>
      rw [Bool.and_eq_true] at hbare
      exact cuts_bareSymbol hbare.2 spaced hr
    · exact cuts_quotedSymbol s spaced rest
  | float x => cases h
  | code s => cases h
  | array items => cases h
  | hash entries => cases h

mutual

/-- The canonical text of an expression is cut into the words of the expression. -/
theorem cutsAs_printed (style : Style) : ∀ e : Expr, isPrintable e = true →
    CutsAs (printed style e) (words style e)
  | .lit v, h => cutsAs_literal h
  | .array items, h => fun spaced rest _ =>
    cuts_listed rfl rfl rfl rfl (cutsAs_items style items h) spaced rest
  | .hash entries, h => fun spaced rest _ =>
    cuts_listed rfl rfl rfl rfl (cutsAs_entries style entries h) spaced rest
  | .var name, h => by
    intro spaced rest hr
    simp only [isPrintable, isPlainName, Bool.and_eq_true] at h
    exact cuts_name h.1.1 spaced hr
  | .call name args, h => by
    intro spaced rest hr
    simp only [isPrintable, isPlainName, Bool.and_eq_true] at h
    rw [printed, words, List.append_assoc]
    have hname := cuts_name h.1.1.1 spaced
      (Stops.cons (c := '(') (s := commaText (printedArgs style args) ++ [')'] ++ rest)
        (by decide) (by decide))
    exact hname.trans (cuts_call (cutsAs_args style args h.2) rest)
  | .const path, h => by
    intro spaced rest hr
    exact cuts_path h spaced hr
  | .constCall path method args, h => by
    intro spaced rest hr
    simp only [isPrintable, Bool.and_eq_true] at h
    rw [printed, words, List.append_assoc, List.cons_append, List.append_assoc]
    have hpath := cuts_path h.1.1 spaced
      (stops_method h.1.2 (methodText style (printedArgs style args) ++ rest))
    exact hpath.trans (cuts_method style h.1.2 (cutsAs_args style args h.2) hr)
  | .send receiver method args, h => by
    intro spaced rest hr
    simp only [isPrintable, Bool.and_eq_true] at h
    rw [printed, words, List.append_assoc, List.cons_append, List.append_assoc]
    have hreceiver := (cutsAs_printed style receiver h.1.1.2).enclose (levels + 1) receiver spaced _
      (stops_method h.1.2 (methodText style (printedArgs style args) ++ rest))
    exact hreceiver.trans (cuts_method style h.1.2 (cutsAs_args style args h.2) hr)
  | .index receiver place, h => by
    intro spaced rest hr
    simp only [isPrintable, Bool.and_eq_true] at h
    rw [printed, words, List.append_assoc, List.cons_append, List.append_assoc]
    have hreceiver := (cutsAs_printed style receiver h.1).enclose (levels + 1) receiver spaced
      ('[' :: (printed style place ++ ([']'] ++ rest))) (Stops.cons (by decide) (by decide))
    have hopen := Cuts.bracket (c := '[') false rfl rfl (printed style place ++ ([']'] ++ rest))
    have hplace := cutsAs_printed style place h.2 false (']' :: rest)
      (Stops.cons (by decide) (by decide))
    have hclose := Cuts.bracket (c := ']') false rfl rfl rest
    exact hreceiver.trans (hopen.trans (hplace.trans hclose))
  | .neg operand, h => by
    intro spaced rest hr
    rw [printed, words, List.cons_append]
    have hminus := Cuts.bracket (c := '-') spaced rfl rfl
      (enclose levels operand (printed style operand) ++ rest)
    exact hminus.trans ((cutsAs_printed style operand h).enclose levels operand false rest hr)
  | .not operand, h => by
    intro spaced rest hr
    rw [printed, words, List.cons_append]
    -- no operand begins with `=`, so the sign is not half of another mark
    have hbang : Cuts spaced ('!' :: (enclose levels operand (printed style operand) ++ rest))
        [(.mark .bang, spaced)] (enclose levels operand (printed style operand) ++ rest) := by
      obtain ⟨c, s, hs, hc⟩ :=
        ((beginsApart_printed style operand h).enclose levels operand).append rest
      rw [hs]
      refine Cuts.mark spaced rfl ?_
      intro d hd
      obtain rfl : c = d := by simpa using hd
      simp [mark2?, hc]
    exact hbang.trans ((cutsAs_printed style operand h).enclose levels operand false rest hr)
  | .binary op lhs rhs, h => by
    intro spaced rest hr
    simp only [isPrintable, Bool.and_eq_true] at h
    rw [printed, words, List.append_assoc, List.cons_append, List.append_assoc, List.cons_append]
    have hlhs := (cutsAs_printed style lhs h.1).enclose op.level lhs spaced
      (' ' :: (op.symbol ++ ' ' :: (enclose (op.level + 1) rhs (printed style rhs) ++ rest)))
      (Stops.cons (by decide) (by decide))
    have hop := cuts_operator op (enclose (op.level + 1) rhs (printed style rhs) ++ rest)
    have hrhs := (cutsAs_printed style rhs h.2).enclose (op.level + 1) rhs true rest hr
    exact hlhs.trans (hop.trans (Cuts.blank false hrhs))

theorem cutsAs_items (style : Style) : ∀ items : List Expr, arePrintable items = true →
    List.Forall₂ CutsAs (printedItems style items) (itemWords style items)
  | [], _ => List.Forall₂.nil
  | e :: es, h => by
    simp only [arePrintable, Bool.and_eq_true] at h
    exact List.Forall₂.cons (cutsAs_printed style e h.1) (cutsAs_items style es h.2)

theorem cutsAs_entries (style : Style) : ∀ entries : List (Expr × Expr),
    areEntriesPrintable entries = true →
    List.Forall₂ CutsAs (printedEntries style entries) (entryWords style entries)
  | [], _ => List.Forall₂.nil
  | (key, e) :: rest, h => by
    simp only [areEntriesPrintable, Bool.and_eq_true] at h
    refine List.Forall₂.cons ?_ (cutsAs_entries style rest h.2)
    intro spaced behind hr
    rw [List.append_assoc]
    have hkey := cutsAs_printed style key h.1.1 spaced
      (' ' :: '=' :: '>' :: ' ' :: (printed style e ++ behind)) (Stops.cons (by decide) (by decide))
    have harrow := cuts_arrow (' ' :: (printed style e ++ behind))
    have he := cutsAs_printed style e h.1.2 true behind hr
    exact hkey.trans (harrow.trans (Cuts.blank false he))

theorem cutsAs_args (style : Style) : ∀ args : List Arg, areArgsPrintable args = true →
    List.Forall₂ CutsAs (printedArgs style args) (argWords style args)
  | [], _ => List.Forall₂.nil
  | .positional e :: rest, h => by
    simp only [areArgsPrintable, Bool.and_eq_true] at h
    exact List.Forall₂.cons (cutsAs_printed style e h.1) (cutsAs_args style rest h.2)
  | .splat e :: rest, h => by
    simp only [areArgsPrintable, Bool.and_eq_true] at h
    refine List.Forall₂.cons ?_ (cutsAs_args style rest h.2)
    intro spaced behind hr
    have hstar := Cuts.bracket (c := '*') spaced rfl rfl (printed style e ++ behind)
    exact hstar.trans (cutsAs_printed style e h.1 false behind hr)
  | .keyword key e :: rest, h => by
    simp only [areArgsPrintable, Bool.and_eq_true] at h
    refine List.Forall₂.cons ?_ (cutsAs_args style rest h.2)
    intro spaced behind hr
    rw [List.append_assoc]
    have hkey := cuts_label h.1.1 spaced (printed style e ++ behind)
    exact hkey.trans (Cuts.blank false (cutsAs_printed style e h.1.2 true behind hr))

end

/-- The tokens of a text that is cut into words are these words, each at its place. -/
theorem lex_of_cutsAs {text : List Char} {ws : Bool → List Word} (h : CutsAs text ws) :
    ∃ ps, lex (String.ofList text) = .ok ps ∧ ps.map Placed.word = ws false := by
  obtain ⟨offset, depth, last, ps, hw, hs, he⟩ := h false [] Stops.nil 0 0 none
  have hlex : lexFrom 0 0 false none text = .ok ps := by
    rw [List.append_nil] at he
    rw [he, lexFrom]
    show Except.ok (ps ++ []) = Except.ok ps
    rw [List.append_nil]
  -- no word is a separator, so none is dropped at the end
  have hkeep : (ps.reverse.dropWhile Placed.isSeparator).reverse = ps := by
    have hrev : ps.reverse.dropWhile Placed.isSeparator = ps.reverse := by
      cases hp : ps.reverse with
      | nil => rfl
      | cons p rest =>
        have hmem : p ∈ ps := List.mem_reverse.mp (hp ▸ List.mem_cons_self)
        rw [List.dropWhile_cons, hs p hmem]
        rfl
    rw [hrev, List.reverse_reverse]
  refine ⟨ps, ?_, hw⟩
  rw [lex, String.toList_ofList, hlex]
  show Except.ok (ps.reverse.dropWhile Placed.isSeparator).reverse = Except.ok ps
  rw [hkeep]

/-- The tokens of canonical text are the words of the expression. -/
theorem lex_print (style : Style) {e : Expr} (h : isPrintable e = true) :
    ∃ ps, lex (print style e) = .ok ps ∧ ps.map Placed.word = words style e false :=
  lex_of_cutsAs (cutsAs_printed style e h)

end DocWeave.Expr
