import DocWeave.Proofs.Outline.Names
import DocWeave.Proofs.Outline.Reached
import DocWeave.Proofs.Outline.WellIndented

/-!
# The bodies of methods

A method whose head is not a definition in itself closes at its `end`, and the scan passes over what is
inside: no outline depends on it. But whether a head is a definition in itself is told by the first `=`
behind a run of word characters and marks, and the name of a method may end before that run, or with the
`=` itself. `Misread` lists the heads that are taken for equations in this way; theirs are exactly the
bodies that an outline may depend on (`ofSource_body_iff`).
-/

namespace DocWeave.Outline

open DocWeave.Text

/-! ## Heads and equations -/

/-- The head of a method, and the text behind its name. -/
def cutHead? (line : List Char) : Option (MethodHead × List Char) := do
  let s ← afterWord? "def" line
  let marks := ['?', '!', '=']
  match (after? "self.".toList s).bind (takeMemberName? marks) with
  | some (name, behind) => some (⟨String.ofList name, true⟩, behind)
  | none => (takeMemberName? marks s).map fun (name, behind) => (⟨String.ofList name, false⟩, behind)

theorem methodHead?_eq_map (line : List Char) : methodHead? line = (cutHead? line).map Prod.fst := by
  rw [methodHead?, cutHead?, Option.bind_eq_bind, Option.bind_eq_bind, Option.map_bind]
  refine congrArg _ (funext fun s => ?_)
  dsimp only [Function.comp_apply]
  cases (after? "self.".toList s).bind (takeMemberName? ['?', '!', '=']) with
  | some cut => rfl
  | none =>
    dsimp only
    rw [Option.map_map]
    rfl

/-- A character of the run in front of an equation. -/
def isMarkedChar (c : Char) : Bool := isWordChar c || c == '?' || c == '!'

/-- The text behind an `=` that may follow parameters in parentheses. -/
def textBehindEquals? (s : List Char) : Option (List Char) :=
  match (skipParameters s).dropWhile isBlank with
  | '=' :: t => some t
  | _ => none

/-- The text does not turn the `=` before it into a comparison or an arrow. -/
def opensEquation : List Char → Bool
  | c :: _ => !(c == '=' || c == '~' || c == '>')
  | [] => false

theorem isEquation_eq_any (line : List Char) :
    isEquation line = (equationText? line).any opensEquation := by
  rw [isEquation]
  cases equationText? line with
  | none => rfl
  | some t => cases t <;> rfl

section

variable {s name : List Char}

theorem afterEquals?_append (hne : name ≠ []) (hname : ∀ c ∈ name, isMarkedChar c = true)
    (behind : List Char) :
    afterEquals? (name ++ behind) = textBehindEquals? (behind.dropWhile isMarkedChar) := by
  show (if ((name ++ behind).takeWhile isMarkedChar).isEmpty then none
    else textBehindEquals? ((name ++ behind).dropWhile isMarkedChar)) = _
  rw [List.takeWhile_append_of_pos hname, List.dropWhile_append_of_pos hname, if_neg]
  simpa using fun h => absurd h hne

/-- A text that does not begin with a character of the run has no run. -/
theorem afterEquals?_eq_none (h : ∀ c ∈ s.head?, isMarkedChar c = false) : afterEquals? s = none := by
  cases s with
  | nil => rfl
  | cons c s =>
    have hc : ¬isMarkedChar c = true := by simp [h c rfl]
    show (if ((c :: s).takeWhile isMarkedChar).isEmpty then none
      else textBehindEquals? ((c :: s).dropWhile isMarkedChar)) = _
    rw [List.takeWhile_cons_of_neg hc]
    rfl

/-- A run that goes on behind a name. -/
theorem afterEquals?_run (hne : name ≠ []) (hname : ∀ c ∈ name, isMarkedChar c = true)
    (behind : List Char) :
    afterEquals? (name ++ behind) = afterEquals? behind ∨
      afterEquals? behind = none ∧ afterEquals? (name ++ behind) = textBehindEquals? behind := by
  rw [afterEquals?_append hne hname]
  cases behind with
  | nil => exact .inr ⟨rfl, rfl⟩
  | cons c behind =>
    by_cases hc : isMarkedChar c = true
    · left
      rw [← List.singleton_append, afterEquals?_append (List.cons_ne_nil c []) (by simpa using hc),
        List.singleton_append, List.dropWhile_cons_of_pos hc]
    · right
      rw [List.dropWhile_cons_of_neg hc]
      exact ⟨afterEquals?_eq_none (by simpa using hc), rfl⟩

/-- Behind a run there is no comparison and no arrow. -/
theorem opensEquation_of_afterEquals? {t : List Char} (h : afterEquals? s = some t) :
    opensEquation s = true := by
  by_contra hopens
  have hnone : afterEquals? s = none := by
    refine afterEquals?_eq_none fun c hc => ?_
    obtain ⟨rest, rfl⟩ : ∃ rest, s = c :: rest := List.head?_eq_some_iff.mp hc
    have hmark : c = '=' ∨ c = '~' ∨ c = '>' := by
      simpa [opensEquation, or_assoc, imp_iff_not_or] using hopens
    rcases hmark with rfl | rfl | rfl <;> decide
  rw [hnone] at h
  cases h

end

/-- The text behind the name of a method does not go on as a definition by an equation. -/
def NoEquation (behind : List Char) : Prop := (textBehindEquals? behind).any opensEquation = false

/-- Heads that are taken for equations although nothing behind the name is one: the name itself ends in
the `=`, the run of word characters and marks goes on behind the name, or the name is that of a receiver
before a name that no method has. -/
inductive Misread : MethodHead → List Char → Prop
  | assigns {m : MethodHead} {behind : List Char} : m.name.toList.getLast? = some '=' →
      opensEquation behind = true → Misread m behind
  | runsOn {m : MethodHead} {behind : List Char} : (afterEquals? behind).any opensEquation = true →
      Misread m behind
  | receiver {behind : List Char} : (afterEquals? behind).any opensEquation = true →
      Misread ⟨"self", false⟩ ('.' :: behind)

/-- An equation that begins with the name of a method. -/
theorem any_afterEquals?_iff {s name behind : List Char}
    (h : takeMemberName? ['?', '!', '='] s = some (name, behind)) (hno : NoEquation behind) :
    (afterEquals? s).any opensEquation = true ↔
      (name.getLast? = some '=' ∧ opensEquation behind = true) ∨
        (afterEquals? behind).any opensEquation = true := by
  obtain ⟨rfl, c, more, mark, rfl, hc, hmore, hmark, -⟩ := takeMemberName?_parts h
  have hinner : ∀ d ∈ c :: more, isMarkedChar d = true := by
    have hword : ∀ d, isWordChar d = true → isMarkedChar d = true := fun d hd => by
      rw [isMarkedChar, hd, Bool.true_or, Bool.true_or]
    refine List.forall_mem_cons.mpr ⟨hword c (isWordChar_of_isMemberStart hc), fun d hd => ?_⟩
    exact hword d (hmore d hd)
  by_cases hassigns : mark = some '='
  · -- the run ends before the `=` of the name
    subst hassigns
    have hequals : afterEquals? (c :: (more ++ ['=']) ++ behind) = some behind := by
      rw [← List.cons_append, List.append_assoc, afterEquals?_append (List.cons_ne_nil c more) hinner]
      rfl
    have hlast : (c :: (more ++ ['='])).getLast? = some '=' := by
      rw [← List.cons_append, List.getLast?_concat]
    rw [Option.toList_some, hequals, Option.any_some, hlast]
    constructor
    · exact fun hopens => .inl ⟨rfl, hopens⟩
    · rintro (⟨-, hopens⟩ | hruns)
      · exact hopens
      · obtain ⟨t, ht, -⟩ := (Option.any_eq_true _ _).mp hruns
        exact opensEquation_of_afterEquals? ht
  · have hname : ∀ d ∈ c :: (more ++ mark.toList), isMarkedChar d = true := by
      rw [← List.cons_append]
      refine List.forall_mem_append.mpr ⟨hinner, fun d hd => ?_⟩
      have hd := Option.mem_toList.mp hd
      have hmarks := hmark d hd
      simp only [List.mem_cons, List.not_mem_nil, or_false] at hmarks
      rcases hmarks with rfl | rfl | rfl
      · rfl
      · rfl
      · exact absurd hd hassigns
    have hlast : (c :: (more ++ mark.toList)).getLast? ≠ some '=' := fun hlast =>
      absurd (hname '=' (List.mem_of_getLast? hlast)) (by decide)
    rw [or_iff_right fun h => hlast h.1]
    rcases afterEquals?_run (List.cons_ne_nil c _) hname behind with hrun | ⟨hnone, hequals⟩
    · rw [hrun]
    · rw [hnone, hequals, hno]
      exact Iff.rfl

theorem misread_iff {m : MethodHead} {behind : List Char}
    (h : m = ⟨"self", false⟩ → behind.head? ≠ some '.') :
    Misread m behind ↔ (m.name.toList.getLast? = some '=' ∧ opensEquation behind = true) ∨
      (afterEquals? behind).any opensEquation = true := by
  constructor
  · intro hmisread
    cases hmisread with
    | assigns hassigns hopens => exact .inl ⟨hassigns, hopens⟩
    | runsOn hruns => exact .inr hruns
    | receiver _ => exact absurd rfl (h rfl)
  · rintro (⟨hassigns, hopens⟩ | hruns)
    · exact .assigns hassigns hopens
    · exact .runsOn hruns

theorem afterEquals?_receiver (s : List Char) : afterEquals? ("self.".toList ++ s) = none := by
  show afterEquals? (['s', 'e', 'l', 'f'] ++ '.' :: s) = none
  rw [afterEquals?_append (List.cons_ne_nil _ _) (List.all_eq_true.mp rfl)]
  rfl

/-- A head that does not go on as an equation is taken for one exactly if it is misread. -/
theorem isEquation_iff {line behind : List Char} {m : MethodHead} (h : cutHead? line = some (m, behind))
    (hno : NoEquation behind) : isEquation line = true ↔ Misread m behind := by
  obtain ⟨s, hs, hcut⟩ := Option.bind_eq_some_iff.mp h
  have htext : equationText? line =
      ((after? "self.".toList s).bind afterEquals?).or (afterEquals? s) := by
    rw [equationText?, hs]
    exact Option.orElse_eq_or
  rw [isEquation_eq_any, htext]
  dsimp only at hcut
  cases hself : after? "self.".toList s with
  | none =>
    rw [hself] at hcut
    obtain ⟨⟨name, _⟩, hname, hcut⟩ := Option.map_eq_some_iff.mp hcut
    cases hcut
    rw [Option.bind_none, Option.none_or, any_afterEquals?_iff hname hno, misread_iff,
      String.toList_ofList]
    -- a receiver with a dot behind it would have been found
    intro hreceiver hdot
    obtain ⟨rest, rfl⟩ := List.head?_eq_some_iff.mp hdot
    have hsplit := (takeMemberName?_parts hname).1
    have hself' : name = "self".toList := by
      rw [← (MethodHead.mk.inj hreceiver).1, String.toList_ofList]
    rw [hself'] at hsplit
    cases hself.symm.trans (after?_eq_some_iff.mpr hsplit)
  | some u =>
    obtain rfl := after?_eq_some_iff.mp hself
    rw [Option.bind_some, afterEquals?_receiver, Option.or_none]
    rw [hself, Option.bind_some] at hcut
    cases hname : takeMemberName? ['?', '!', '='] u with
    | some cut =>
      obtain ⟨name, _⟩ := cut
      rw [hname] at hcut
      cases hcut
      rw [any_afterEquals?_iff hname hno, misread_iff, String.toList_ofList]
      intro hreceiver
      cases (MethodHead.mk.inj hreceiver).2
    | none =>
      rw [hname] at hcut
      have hreceiver : takeMemberName? ['?', '!', '='] ("self.".toList ++ u) =
          some ("self".toList, '.' :: u) := rfl
      rw [hreceiver] at hcut
      cases hcut
      refine ⟨.receiver, fun hmisread => ?_⟩
      cases hmisread with
      | assigns hassigns _ =>
        have hname : "self".toList.getLast? = some '=' := by rwa [String.toList_ofList] at hassigns
        cases hname
      | runsOn hruns => cases hruns
      | receiver hreceiver => exact hreceiver

/-! ## Lines of declarations -/

/-- What is declared behind a step was declared before it, or on its line. -/
theorem Step.line_of_mem {s s' : Scan} {n skipped : Nat} {raw : List Char} {rest : List (List Char)}
    (h : Step s n raw rest s' skipped) {d' : Declaration} (hd : d' ∈ s'.found) :
    (∃ d ∈ s.found, d.line = d'.line) ∨ d'.line = n := by
  have hfinds := h.finds
  generalize s'.found = found at hfinds hd
  cases hfinds with
  | same => exact .inl ⟨d', hd, rfl⟩
  | opened head e _ _ hline _ =>
    refine (List.mem_append.mp hd).imp (fun hd => ⟨d', hd, rfl⟩) fun hd => ?_
    rw [List.mem_singleton.mp hd, hline]
  | changed i f g hf _ =>
    obtain ⟨j, hj⟩ := List.getElem?_of_mem hd
    obtain ⟨d, hfound, rfl⟩ := Scan.getElem?_update (s := s) hj
    refine .inl ⟨d, List.mem_of_getElem? hfound, ?_⟩
    split
    · exact (hf d).2.1.symm
    · rfl

section

variable {all : List (List Char)} {s : Scan} {n : Nat} {raw : List Char} {rest : List (List Char)}

/-- A blank line that the scan comes to declares nothing. -/
theorem Reaches.line_ne_of_blank (h : Reaches all s n) (hline : all.drop n = raw :: rest)
    (hblank : trim raw = []) {d : Declaration} (hd : d ∈ ofLines all) : d.line ≠ n + 1 := by
  have hnext : s.next (n + 1) raw rest = (s, 0) := by
    rw [Scan.next, hblank]
    rfl
  have hreach := h.next hline
  rw [hnext] at hreach
  obtain ⟨t, last, -, ⟨-, hlines⟩, hfound⟩ := hreach.induction
    (P := fun t m => n + 1 ≤ m ∧ ∀ d ∈ t.found, d.line ≠ n + 1)
    ⟨Nat.le_refl _, fun d hd => by
      obtain ⟨i, hi⟩ := List.getElem?_of_mem hd
      have := h.framed.heads i d hi
      omega⟩
    fun t m raw rest _ _ hpassed => by
      obtain ⟨hle, hlines⟩ := hpassed
      refine ⟨by omega, fun d' hd' => ?_⟩
      rcases (step_next t (m + 1) raw rest).line_of_mem hd' with ⟨d, hd, hsame⟩ | hnew
      · exact hsame ▸ hlines d hd
      · omega
  exact hlines d (hfound ▸ hd)

/-- The head of a class or module that the scan comes to is that of a declaration. -/
theorem Reaches.exists_declared (h : Reaches all s n) (hline : all.drop n = raw :: rest)
    (head : SubjectHead)
    (hnext : s.next (n + 1) raw rest = (s.declare head (trim raw) (indentation raw) (n + 1), 0)) :
    ∃ d ∈ ofLines all, d.line = n + 1 := by
  have hreach := h.next hline
  rw [hnext] at hreach
  obtain ⟨e, hdeclared, he, -⟩ := s.found_declare head (trim raw) (indentation raw) (n + 1)
  have hlast : (s.declare head (trim raw) (indentation raw) (n + 1)).found[s.found.length]? = some e := by
    rw [hdeclared, List.getElem?_concat_length]
  obtain ⟨d, hd, hkeeps⟩ := hreach.keeps hlast
  exact ⟨d, List.mem_of_getElem? hd, hkeeps.line.trans he⟩

end

/-! ## Blocks -/

/-- A method in a file: the lines before its head, the head with its name and the text behind the name,
the line of its `end`, and the lines behind that. The head neither ends with an `end` of its own nor goes
on as an equation. -/
structure MethodBlock where
  before : List (List Char)
  head : List Char
  method : MethodHead
  behind : List Char
  last : List Char
  after : List (List Char)
  cut : cutHead? (trim head) = some (method, behind)
  unclosed : closesItself (trim head) = false
  noEquation : NoEquation behind
  closed : isEnd (trim last) = true
  level : indentation last = indentation head

/-- A source with these lines. -/
theorem exists_source {all : List (List Char)} (h : ∀ line ∈ all, '\n' ∉ line) :
    ∃ source : String, lines source.toList = all := by
  -- every line gets a carriage return of its own, so that it keeps the one it may end in
  refine ⟨String.ofList ((all.map (· ++ ['\r'])).flatMap (· ++ ['\n'])), ?_⟩
  rw [String.toList_ofList, lines_flatMap, List.map_map]
  · refine (List.map_congr_left fun line _ => ?_).trans (List.map_id all)
    simp [dropReturn]
  · intro line hline
    obtain ⟨front, hfront, rfl⟩ := List.mem_map.mp hline
    simpa using h front hfront

namespace MethodBlock

variable (b : MethodBlock)

/-- The file with these lines inside the method. -/
def lines (body : List (List Char)) : List (List Char) :=
  b.before ++ b.head :: (body ++ b.last :: b.after)

/-- A line inside the method: blank, or deeper than its head. -/
def Inner (line : List Char) : Prop := isBlankText line = true ∨ indentation b.head < indentation line

/-- A source of the file with these lines inside the method. -/
structure Written (body : List (List Char)) (source : String) : Prop where
  lines : Text.lines source.toList = b.lines body
  inner : ∀ line ∈ body, b.Inner line

/-- The scan comes to the head inside a declaration. -/
def Scanned (body : List (List Char)) : Prop :=
  ∃ s owner, Reaches (b.lines body) s b.before.length ∧ s.current? = some owner

theorem inner_nil : b.Inner [] := .inl rfl

variable {b} {body : List (List Char)} {source : String} {s : Scan} {owner : Nat}

theorem drop_lines (body : List (List Char)) :
    (b.lines body).drop b.before.length = b.head :: (body ++ b.last :: b.after) :=
  List.drop_left

theorem reaches_congr (h : Reaches (b.lines body) s b.before.length) (body' : List (List Char)) :
    Reaches (b.lines body') s b.before.length := by
  refine h.congr ?_ ?_
  · simp [lines]
  · rw [lines, lines, List.take_left, List.take_left]

/-- What becomes of the scan on the head. -/
theorem next_head (howner : s.current? = some owner) (rest : List (List Char)) (lineNo : Nat) :
    s.next lineNo b.head rest = (s.define owner b.method lineNo, blockExtent b.head rest) := by
  refine Scan.next_define howner ?_ rest
  rw [methodHead?_eq_map, b.cut]
  rfl

/-- A head that is not misread: the scan goes on behind the `end`. -/
theorem ofLines_of_not_misread (h : Reaches (b.lines body) s b.before.length)
    (howner : s.current? = some owner) (hinner : ∀ line ∈ body, b.Inner line)
    (hnot : ¬Misread b.method b.behind) :
    ofLines (b.lines body) = (scanLines (s.define owner b.method (b.before.length + 1))
      (b.before.length + 1 + (body.length + 1)) b.after).found := by
  have hextent : blockExtent b.head (body ++ b.last :: b.after) = body.length + 1 := by
    have honeLiner : ¬isOneLiner (trim b.head) = true := by
      rw [isOneLiner, b.unclosed, Bool.false_or, isEquation_iff b.cut b.noEquation]
      exact hnot
    rw [blockExtent, if_neg honeLiner]
    exact Layout.blockLength_append hinner b.level b.closed b.after
  have hbehind : (body ++ b.last :: b.after).drop (body.length + 1) = b.after := by
    rw [← List.drop_drop, List.drop_left, List.drop_one, List.tail_cons]
  rw [ofLines, h.scanLines_eq, drop_lines, scanLines_next, next_head howner, hextent, hbehind]

/-- A head that is misread: the scan goes on with the first line inside. -/
theorem reaches_of_misread (h : Reaches (b.lines body) s b.before.length)
    (howner : s.current? = some owner) (hmisread : Misread b.method b.behind) (first : List Char)
    (more : List (List Char)) :
    Reaches (b.lines (first :: more)) (s.define owner b.method (b.before.length + 1))
        (b.before.length + 1) ∧
      (b.lines (first :: more)).drop (b.before.length + 1) = first :: (more ++ b.last :: b.after) := by
  have hextent : blockExtent b.head (first :: more ++ b.last :: b.after) = 0 := by
    rw [blockExtent, if_pos]
    rw [isOneLiner, (isEquation_iff b.cut b.noEquation).mpr hmisread, Bool.or_true]
  have hnext := (reaches_congr h (first :: more)).next (drop_lines _)
  rw [next_head howner, hextent] at hnext
  refine ⟨hnext, ?_⟩
  rw [← List.drop_drop, drop_lines]
  rfl

/-- A line may stand inside the method with as many blank ones below it. -/
theorem Written.exists_written (h : b.Written body source) {first : List Char} (hinner : b.Inner first)
    (hsingle : '\n' ∉ first) (count : Nat) :
    ∃ source', b.Written (first :: List.replicate count []) source' := by
  have hblank : ∀ line ∈ List.replicate count [], line = ([] : List Char) := fun line hline =>
    (List.mem_replicate.mp hline).2
  have hkept : ∀ line ∈ b.lines body, '\n' ∉ line := fun line hline =>
    newline_not_mem_lines (h.lines ▸ hline)
  have hwritten : ∀ line ∈ b.lines (first :: List.replicate count []), '\n' ∉ line := by
    simp only [MethodBlock.lines, List.forall_mem_append, List.forall_mem_cons] at hkept ⊢
    obtain ⟨hbefore, hhead, -, hlast, hafter⟩ := hkept
    exact ⟨hbefore, hhead, ⟨hsingle, fun line hline => by simp [hblank line hline]⟩, hlast, hafter⟩
  obtain ⟨source', hlines⟩ := exists_source hwritten
  refine ⟨source', hlines, List.forall_mem_cons.mpr ⟨hinner, fun line hline => ?_⟩⟩
  rw [hblank line hline]
  exact .inl rfl

end MethodBlock

/-- A class on one line, deeper than a method of this indentation. -/
def classLine (indent : Nat) : List Char := List.replicate (indent + 1) ' ' ++ "class B; end".toList

theorem solid_class : Layout.Solid "class B; end".toList :=
  ⟨by rintro c ⟨⟩; decide, by rintro c ⟨⟩; decide⟩

theorem isBlank_of_mem_replicate {n : Nat} {c : Char} (h : c ∈ List.replicate n ' ') : isBlank c = true := by
  rw [(List.mem_replicate.mp h).2]
  decide

theorem trim_classLine (indent : Nat) : trim (classLine indent) = "class B; end".toList :=
  trim_blanks_append (fun _ => isBlank_of_mem_replicate) solid_class.first solid_class.last

theorem indentation_classLine (indent : Nat) : indentation (classLine indent) = indent + 1 := by
  rw [classLine, indentation_blanks_append (fun _ => isBlank_of_mem_replicate) solid_class.first,
    List.length_replicate]

theorem newline_not_mem_classLine (indent : Nat) : '\n' ∉ classLine indent := by
  intro h
  rcases List.mem_append.mp h with h | h
  · exact absurd (List.mem_replicate.mp h).2 (by decide)
  · exact absurd h (by decide)

theorem MethodBlock.inner_classLine (b : MethodBlock) : b.Inner (classLine (indentation b.head)) := by
  right
  rw [indentation_classLine]
  exact Nat.lt_succ_self _

/-- **Bodies of methods.** In a file that the scan reads up to the head of a method inside a declaration,
the lines inside the method may be replaced by any others that are blank or deeper, as many of them,
without a change to the outline, if and only if there are none or the head is not misread. -/
theorem ofSource_body_iff (b : MethodBlock) {body : List (List Char)} {source : String}
    (hwritten : b.Written body source) (hscanned : b.Scanned body) :
    (∀ body' source', body'.length = body.length → b.Written body' source' →
      ofSource source' = ofSource source) ↔ body = [] ∨ ¬Misread b.method b.behind := by
  obtain ⟨s, owner, hreach, howner⟩ := hscanned
  constructor
  · intro hignored
    refine or_iff_not_imp_left.mpr fun hne hmisread => ?_
    obtain ⟨line, more, rfl⟩ := List.exists_cons_of_ne_nil hne
    -- the first line inside is blank in one source and a class of its own in another
    obtain ⟨blank, hblank⟩ := hwritten.exists_written b.inner_nil List.not_mem_nil more.length
    obtain ⟨classy, hclassy⟩ := hwritten.exists_written b.inner_classLine (newline_not_mem_classLine _)
      more.length
    obtain ⟨hreachBlank, hlineBlank⟩ := MethodBlock.reaches_of_misread hreach howner hmisread []
      (List.replicate more.length [])
    obtain ⟨hreachClass, hlineClass⟩ := MethodBlock.reaches_of_misread hreach howner hmisread
      (classLine (indentation b.head)) (List.replicate more.length [])
    obtain ⟨d, hd, hline⟩ := hreachClass.exists_declared hlineClass ⟨.classDecl, "B", none⟩ (by
      rw [Scan.next, trim_classLine]
      rfl)
    refine hreachBlank.line_ne_of_blank hlineBlank rfl ?_ hline
    have hsame : ofSource blank = ofSource classy :=
      (hignored _ _ (by simp) hblank).trans (hignored _ _ (by simp) hclassy).symm
    rw [ofSource, ofSource, hblank.lines, hclassy.lines] at hsame
    rw [hsame]
    exact hd
  · rintro hopen body' source' hlength hwritten'
    rw [ofSource, ofSource, hwritten.lines, hwritten'.lines]
    rcases hopen with rfl | hnot
    · rw [List.length_eq_zero_iff.mp hlength]
    · have hreach' := MethodBlock.reaches_congr hreach body'
      rw [MethodBlock.ofLines_of_not_misread hreach' howner hwritten'.inner hnot,
        MethodBlock.ofLines_of_not_misread hreach howner hwritten.inner hnot, hlength]

/-- A method of a class, whose name ends in a mark. -/
def markedBlock (mark : Char) (hmark : mark = '?' ∨ mark = '=') : MethodBlock where
  before := ["class A".toList]
  head := "  def x".toList ++ mark :: "(v)".toList
  method := ⟨String.ofList ['x', mark], false⟩
  behind := "(v)".toList
  last := "  end".toList
  after := ["end".toList]
  cut := by rcases hmark with rfl | rfl <;> decide +kernel
  unclosed := by rcases hmark with rfl | rfl <;> decide +kernel
  noEquation := rfl
  closed := by decide +kernel
  level := by rcases hmark with rfl | rfl <;> decide +kernel

/-- What looks like a constant inside a method is none. -/
theorem ofSource_body_query :
    (markedBlock '?' (.inl rfl)).Written ["    K = 1".toList]
        "class A\n  def x?(v)\n    K = 1\n  end\nend\n" ∧
      (markedBlock '?' (.inl rfl)).Scanned ["    K = 1".toList] ∧
      ∀ body source, body.length = 1 → (markedBlock '?' (.inl rfl)).Written body source →
        ofSource source = ofSource "class A\n  def x?(v)\n    K = 1\n  end\nend\n" := by
  have hwritten : (markedBlock '?' (.inl rfl)).Written ["    K = 1".toList]
      "class A\n  def x?(v)\n    K = 1\n  end\nend\n" :=
    ⟨by decide +kernel, List.forall_mem_singleton.mpr (.inr (by decide +kernel))⟩
  have hscanned : (markedBlock '?' (.inl rfl)).Scanned ["    K = 1".toList] :=
    ⟨_, 0, Reaches.start.next rfl, rfl⟩
  refine ⟨hwritten, hscanned, (ofSource_body_iff _ hwritten hscanned).mpr (.inr ?_)⟩
  rw [misread_iff (by decide +kernel)]
  decide +kernel

/-- What looks like a constant inside a method that assigns is one of the class. -/
theorem not_ofSource_body :
    (markedBlock '=' (.inr rfl)).Written ["    K = 1".toList]
        "class A\n  def x=(v)\n    K = 1\n  end\nend\n" ∧
      (markedBlock '=' (.inr rfl)).Scanned ["    K = 1".toList] ∧
      (markedBlock '=' (.inr rfl)).Written [[]] "class A\n  def x=(v)\n\n  end\nend\n" ∧
      ofSource "class A\n  def x=(v)\n\n  end\nend\n" ≠
        ofSource "class A\n  def x=(v)\n    K = 1\n  end\nend\n" := by
  refine ⟨⟨by decide +kernel, List.forall_mem_singleton.mpr (.inr (by decide +kernel))⟩,
    ⟨_, 0, Reaches.start.next rfl, rfl⟩,
    ⟨by decide +kernel, List.forall_mem_singleton.mpr (.inl rfl)⟩, fun hsame => ?_⟩
  have hconstants := congrArg (List.map fun d => d.constants.length) hsame
  revert hconstants
  decide +kernel

end DocWeave.Outline
