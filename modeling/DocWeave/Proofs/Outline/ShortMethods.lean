import DocWeave.Expr.Parser
import DocWeave.Proofs.Outline.DeclaredMembers
import DocWeave.Proofs.Outline.OpaqueBodies

/-!
# Methods of one expression

A method whose body is one expression on one line can be written in three layouts: as a block, closed on
its own line, or as an equation. Three recognisers must take them for the same method: the one for the
heads of methods (`methodHead?_text`), the one for definitions that close on their own line, and the
search for the `end` of a block (`Form.blockExtent_eq`). A scan that comes to such a method goes on right
behind it, whatever its body says (`Form.reaches_behind`).
-/

namespace DocWeave.Outline

open DocWeave.Text

/-! ## Blanks around a text -/

theorem length_trim_le (s : List Char) : (trim s).length ≤ s.length := by
  have hend : (trim s).length ≤ (trimStart s).length := by
    rw [trim, trimEnd, List.length_reverse]
    exact (List.dropWhile_sublist _).length_le.trans_eq List.length_reverse
  exact hend.trans (List.dropWhile_sublist _).length_le

/-- A text without blanks around it. -/
theorem Layout.Solid.of_trim {s : List Char} (h : trim s = s) : Layout.Solid s where
  first c hc := by
    obtain ⟨rest, rfl⟩ := List.head?_eq_some_iff.mp hc
    by_contra hblank
    have hdrop : trim (c :: rest) = trim rest := by
      rw [trim, trim, trimStart, trimStart, List.dropWhile_cons_of_pos (by simpa using hblank)]
    have hshort := length_trim_le rest
    rw [← hdrop, h, List.length_cons] at hshort
    omega
  last c hc := by
    obtain ⟨front, rfl⟩ := List.getLast?_eq_some_iff.mp hc
    by_contra hblank
    have hshort := length_trim_le front
    rw [← trim_append_blank front (by simpa using hblank), h, List.length_append,
      List.length_singleton] at hshort
    omega

theorem Layout.Solid.of_ends {c : Char} (front : List Char) {back : List Char}
    (hc : isBlank c = false) (hne : back ≠ []) (hback : ∀ d ∈ back.getLast?, isBlank d = false) :
    Layout.Solid (c :: (front ++ back)) where
  first d hd := by
    obtain rfl : c = d := by simpa using hd
    exact hc
  last d hd := by
    rw [← List.cons_append, List.getLast?_append_of_ne_nil _ hne] at hd
    exact hback d hd

theorem before?_append (front tail : List Char) : before? tail (front ++ tail) = some front := by
  rw [before?, List.reverse_append, after?_append, Option.map_some, List.reverse_reverse]

theorem trimEnd_append_blank (s : List Char) {c : Char} (hc : isBlank c = true) :
    trimEnd (s ++ [c]) = trimEnd s := by
  simp [trimEnd, hc]

theorem trimEnd_concat (s : List Char) {c : Char} (hc : isBlank c = false) :
    trimEnd (s ++ [c]) = s ++ [c] := by
  simp [trimEnd, hc]

/-- The semicolon before an `end` behind it. -/
theorem trimEnd_semicolon (s : List Char) : trimEnd (s ++ "; ".toList) = s ++ [';'] := by
  have hsplit : s ++ "; ".toList = s ++ [';'] ++ [' '] := by simp
  rw [hsplit, trimEnd_append_blank _ (by decide), trimEnd_concat _ (by decide)]

theorem closesItself_append (s : List Char) : closesItself (s ++ "; end".toList) = true := by
  have hsolid : trimEnd (s ++ "; end".toList) = (s ++ "; ".toList) ++ "end".toList := by
    have hsplit : s ++ "; end".toList = (s ++ "; en".toList) ++ ['d'] := by simp
    rw [hsplit, trimEnd_concat _ (by decide)]
    simp
  rw [closesItself, hsolid, before?_append]
  dsimp only
  rw [trimEnd_semicolon, List.getLast?_concat]
  rfl

theorem Layout.MethodName.isMarkedChar_of_mem (n : Layout.MethodName) :
    ∀ c ∈ n.text, isMarkedChar c = true := by
  intro c hc
  rcases n.of_mem hc with h | rfl | rfl
  · rw [isMarkedChar, h, Bool.true_or, Bool.true_or]
  · decide
  · decide

theorem Layout.MethodName.marked_none : ∀ c ∈ (none : Option Char), c = '?' ∨ c = '!' := by simp

/-- Blanks in front of a line, which do not end it. -/
def IsIndent (s : List Char) : Prop := ∀ c ∈ s, isBlank c = true ∧ c ≠ '\n'

instance (s : List Char) : Decidable (IsIndent s) :=
  decidable_of_iff ((s.all fun c => isBlank c && c != '\n') = true) (by simp [IsIndent])

theorem IsIndent.blanks {s : List Char} (h : IsIndent s) : ∀ c ∈ s, isBlank c = true :=
  fun c hc => (h c hc).1

theorem IsIndent.newline_not_mem {s : List Char} (h : IsIndent s) : '\n' ∉ s :=
  fun hc => (h _ hc).2 rfl

/-! ## The method and its layouts -/

/-- A method whose body is one expression on one line without a semicolon. -/
structure ShortMethod where
  indent : List Char
  onSelf : Bool
  name : Layout.MethodName
  body : List Char
  indented : IsIndent indent
  trimmed : trim body = body
  nonempty : body ≠ []
  single : '\n' ∉ body
  unparted : ';' ∉ body
  accepted : (Expr.parse (String.ofList body)).isOk = true

namespace ShortMethod

/-- The layouts of a method: the body deeper than the head and above an `end` of its own, or on the line
of the head before an `end`, or behind an `=`. -/
inductive Form (m : ShortMethod) where
  | block (inner : List Char) (blanks : IsIndent inner) (deeper : m.indent.length < inner.length)
  | closed
  | equation

/-- The head of the method. -/
def head (m : ShortMethod) : MethodHead := ⟨String.ofList m.name.text, m.onSelf⟩

/-- Under which name and kind a scan takes the method in. -/
def key (m : ShortMethod) (s : Scan) : String × MemberKind :=
  (m.head.name, if m.head.onSelf || s.inSingleton then .onClass else .onInstance)

/-- The first line without its indentation, with a text behind the name. -/
def text (m : ShortMethod) (behind : List Char) : List Char :=
  "def".toList ++ ' ' :: ((if m.onSelf then "self.".toList else []) ++ (m.name.text ++ behind))

namespace Form

variable {m : ShortMethod}

/-- What stands behind the name on the first line. -/
def behind : m.Form → List Char
  | .block _ _ _ => []
  | .closed => "; ".toList ++ (m.body ++ "; end".toList)
  | .equation => " = ".toList ++ m.body

/-- The lines behind the first. -/
def more : m.Form → List (List Char)
  | .block inner _ _ => [inner ++ m.body, m.indent ++ "end".toList]
  | .closed => []
  | .equation => []

/-- The lines of the method. -/
def lines (form : m.Form) : List (List Char) := (m.indent ++ m.text form.behind) :: form.more

end Form

variable (m : ShortMethod)

theorem solid_body : Layout.Solid m.body := .of_trim m.trimmed

/-! ## The head -/

/-- No name goes on with what stands behind it. -/
theorem Form.head?_behind {m : ShortMethod} (form : m.Form) :
    ∀ c ∈ form.behind.head?, c = ';' ∨ c = ' ' := by
  cases form with
  | block _ _ _ => rintro c ⟨⟩
  | closed =>
    rintro c ⟨⟩
    exact .inl rfl
  | equation =>
    rintro c ⟨⟩
    exact .inr rfl

section

variable {m} {behind : List Char} (hbehind : ∀ c ∈ behind.head?, c = ';' ∨ c = ' ')
include hbehind

theorem takeMemberName?_append (n : Layout.MethodName) :
    takeMemberName? ['?', '!', '='] (n.text ++ behind) = some (n.text, behind) := by
  have hfirst : isMemberStart n.first = true := by
    rcases n.lower with h | h
    · simp [isMemberStart, isAlpha_of_isLower h]
    · simp [isMemberStart, h]
  rw [Layout.MethodName.text, List.cons_append, takeMemberName?, if_pos hfirst, List.append_assoc,
    List.takeWhile_append_of_pos n.word, List.dropWhile_append_of_pos n.word]
  cases hmark : n.mark with
  | none =>
    cases behind with
    | nil => simp
    | cons d rest =>
      have hword : ¬ isWordChar d = true ∧ d ∉ ['?', '!', '='] := by
        rcases hbehind d rfl with rfl | rfl <;> decide
      have hmarks : (['?', '!', '='].contains d) = false := by simpa using hword.2
      simp only [Option.toList_none, List.nil_append, List.takeWhile_cons_of_neg hword.1,
        List.dropWhile_cons_of_neg hword.1, List.append_nil, hmarks, Bool.false_eq_true, if_false]
  | some c =>
    have hword : ¬ isWordChar c = true ∧ (['?', '!', '='].contains c) = true := by
      rcases n.marked c hmark with rfl | rfl <;> decide
    simp only [Option.toList_some, List.nil_append, List.takeWhile_cons_of_neg hword.1,
      List.dropWhile_cons_of_neg hword.1, List.append_nil, hword.2, if_true, List.cons_append]

/-- The name is not that of a receiver with a dot behind it. -/
theorem after?_self_eq_none (n : Layout.MethodName) : after? "self.".toList (n.text ++ behind) = none := by
  rw [after?_eq_none_iff]
  rintro ⟨rest, hrest⟩
  have hname := n.isMarkedChar_of_mem
  have hstop : behind.takeWhile isMarkedChar = [] := by
    cases behind with
    | nil => rfl
    | cons d rest => rcases hbehind d rfl with rfl | rfl <;> rfl
  -- the run of word characters and marks ends before the dot, and with the name
  have hself : ("self.".toList ++ rest).takeWhile isMarkedChar = "self".toList := by
    show (['s', 'e', 'l', 'f'] ++ '.' :: rest).takeWhile isMarkedChar = _
    rw [List.takeWhile_append_of_pos (List.all_eq_true.mp rfl)]
    rfl
  rw [hrest, List.takeWhile_append_of_pos hname, hstop, List.append_nil] at hself
  rw [hself] at hrest
  have hdot : "self".toList ++ '.' :: rest = "self".toList ++ behind := hrest
  have hfirst : '.' ∈ behind.head? := by rw [← List.append_cancel_left hdot]; rfl
  rcases hbehind '.' hfirst with h | h <;> cases h

omit hbehind in
theorem afterWord?_text (m : ShortMethod) (behind : List Char) :
    afterWord? "def" (m.text behind) =
      some ((if m.onSelf then "self.".toList else []) ++ (m.name.text ++ behind)) := by
  refine Layout.afterWord?_append "def" fun c hc => ?_
  cases hself : m.onSelf with
  | true =>
    obtain rfl : 's' = c := by simpa [hself] using hc
    decide
  | false =>
    obtain rfl : m.name.first = c := by simpa [hself, Layout.MethodName.text] using hc
    exact m.name.isBlank_of_mem List.mem_cons_self

theorem methodHead?_text : methodHead? (m.text behind) = some m.head := by
  have hdef := m.afterWord?_text behind
  have hname := takeMemberName?_append hbehind m.name
  have hdot := after?_self_eq_none hbehind m.name
  cases hself : m.onSelf with
  | true =>
    rw [hself, if_pos rfl] at hdef
    simp only [methodHead?, hdef, Option.bind_eq_bind, Option.bind_some, after?_append, hname, head, hself]
  | false =>
    rw [hself, if_neg (by decide), List.nil_append] at hdef
    simp only [methodHead?, hdef, Option.bind_eq_bind, Option.bind_some, hdot, Option.bind_none, hname,
      Option.map_some, head, hself]

end

/-! ## Definitions on one line -/

theorem equationText?_text (body : List Char) :
    equationText? (m.text (" = ".toList ++ body)) = some (' ' :: body) := by
  have hbehind : ∀ c ∈ (" = ".toList ++ body).head?, c = ';' ∨ c = ' ' := by
    rintro c ⟨⟩
    exact .inr rfl
  have hne : m.name.text ≠ [] := List.cons_ne_nil _ _
  have hname : afterEquals? (m.name.text ++ (" = ".toList ++ body)) = some (' ' :: body) := by
    rw [afterEquals?_append hne m.name.isMarkedChar_of_mem]
    rfl
  have hdot := after?_self_eq_none hbehind m.name
  have hdef := m.afterWord?_text (" = ".toList ++ body)
  cases hself : m.onSelf with
  | true =>
    rw [hself, if_pos rfl] at hdef
    simp only [equationText?, hdef, Option.bind_eq_bind, Option.bind_some, after?_append, hname,
      Option.orElse_eq_orElse, Option.orElse_eq_or, Option.some_or]
  | false =>
    rw [hself, if_neg (by decide), List.nil_append] at hdef
    simp only [equationText?, hdef, Option.bind_eq_bind, Option.bind_some, hdot, Option.bind_none, hname,
      Option.orElse_eq_orElse, Option.orElse_eq_or, Option.none_or]

theorem text_eq_cons (behind : List Char) : m.text behind =
    'd' :: (('e' :: 'f' :: ' ' :: (if m.onSelf then "self.".toList else [])) ++
      (m.name.text ++ behind)) := by
  rw [text]
  rfl

theorem solid_text {behind : List Char} (h : ∀ c ∈ behind.getLast?, isBlank c = false) :
    Layout.Solid (m.text behind) := by
  rw [text_eq_cons]
  refine .of_ends _ (by decide) (List.cons_ne_nil _ _) fun c hc => ?_
  rw [List.getLast?_append] at hc
  cases hlast : behind.getLast? with
  | none =>
    rw [hlast, Option.none_or] at hc
    exact m.name.isBlank_of_mem (List.mem_of_getLast? hc)
  | some d =>
    rw [hlast, Option.some_or] at hc
    cases hc
    exact h c hlast

/-- The head of a block is a method without a body, as an outline of well-indented lines has it. -/
theorem exists_method_text : ∃ bare : Layout.Method 0, bare.text = m.text [] := by
  refine ⟨⟨m.name, m.onSelf, [], List.forall_mem_nil _, List.forall_mem_nil _⟩, ?_⟩
  rw [text, List.append_nil]
  rfl

theorem text_append (front behind : List Char) : m.text (front ++ behind) = m.text front ++ behind := by
  simp only [text, List.append_assoc, List.cons_append]

theorem text_ne_nil (behind : List Char) : m.text behind ≠ [] := by
  rw [text]
  exact List.append_ne_nil_of_right_ne_nil _ (List.cons_ne_nil _ _)

/-- Line ends and semicolons come into a first line only with what stands behind the name. -/
theorem not_mem_text {c : Char} (hc : c = '\n' ∨ c = ';') {behind : List Char} (h : c ∉ behind) :
    c ∉ m.text behind := by
  obtain ⟨bare, hbare⟩ := m.exists_method_text
  have hhead : c ∉ bare.text := by
    intro hmem
    rcases hc with rfl | rfl <;> exact absurd (bare.of_mem hmem) (by decide)
  rw [← List.nil_append behind, text_append, ← hbare, List.mem_append, not_or]
  exact ⟨hhead, h⟩

namespace Form

variable {m} (form : m.Form)

theorem solid_first : Layout.Solid (m.text form.behind) := by
  refine m.solid_text ?_
  cases form with
  | block _ _ _ => rintro c ⟨⟩
  | closed =>
    intro c hc
    have hlast : behind (.closed : m.Form) = ("; ".toList ++ (m.body ++ "; en".toList)) ++ ['d'] := by
      simp [behind]
    rw [hlast, List.getLast?_concat] at hc
    cases hc
    decide
  | equation =>
    intro c hc
    rw [behind, List.getLast?_append_of_ne_nil _ m.nonempty] at hc
    exact m.solid_body.last c hc

theorem trim_first : trim (m.indent ++ m.text form.behind) = m.text form.behind :=
  trim_blanks_append m.indented.blanks form.solid_first.first form.solid_first.last

theorem text_closed : m.text (behind (.closed : m.Form)) =
    m.text ("; ".toList ++ m.body) ++ "; end".toList := by
  rw [behind, ← List.append_assoc, text_append]

/-- A method is a definition in itself where it has only one line. -/
theorem isOneLiner_first : isOneLiner (m.text form.behind) = form.more.isEmpty := by
  cases form with
  | block inner blanks deeper =>
    obtain ⟨bare, hbare⟩ := m.exists_method_text
    rw [behind, ← hbare, bare.isOneLiner_text]
    rfl
  | closed =>
    have hcloses : closesItself (m.text (behind (.closed : m.Form))) = true := by
      rw [text_closed, closesItself_append]
    rw [isOneLiner, hcloses]
    rfl
  | equation =>
    rw [isOneLiner, isEquation_eq_any, behind, equationText?_text, Option.any_some, opensEquation]
    exact Bool.or_true _

/-- The `end` of a block closes it, and nothing before it does, whatever the lines behind the method. -/
theorem blockExtent_eq (back : List (List Char)) :
    blockExtent (m.indent ++ m.text form.behind) (form.more ++ back) = form.more.length := by
  rw [blockExtent, form.trim_first, form.isOneLiner_first,
    indentation_blanks_append m.indented.blanks form.solid_first.first]
  cases form with
  | block inner blanks deeper =>
    have hinner : ∀ line ∈ [inner ++ m.body], isBlankText line = true ∨
        m.indent.length < indentation line := by
      refine List.forall_mem_singleton.mpr (.inr ?_)
      rw [indentation_blanks_append blanks.blanks m.solid_body.first]
      exact deeper
    have hlevel : indentation (m.indent ++ "end".toList) = m.indent.length :=
      indentation_blanks_append m.indented.blanks Layout.solid_end.first
    have hcloses : isEnd (trim (m.indent ++ "end".toList)) = true := by
      rw [trim_blanks_append m.indented.blanks Layout.solid_end.first Layout.solid_end.last]
      rfl
    exact Layout.blockLength_append hinner hlevel hcloses back
  | closed => rfl
  | equation => rfl

theorem newline_not_mem_lines : ∀ line ∈ form.lines, '\n' ∉ line := by
  have hindent := m.indented.newline_not_mem
  cases form with
  | block inner blanks deeper =>
    have hhead : '\n' ∉ m.text [] := m.not_mem_text (.inl rfl) List.not_mem_nil
    simp [lines, more, behind, hindent, hhead, blanks.newline_not_mem, m.single]
  | closed =>
    have hhead : '\n' ∉ m.text (behind (.closed : m.Form)) :=
      m.not_mem_text (.inl rfl) (by simp [behind, m.single])
    simp [lines, more, hindent, hhead]
  | equation =>
    have hhead : '\n' ∉ m.text (behind (.equation : m.Form)) :=
      m.not_mem_text (.inl rfl) (by simp [behind, m.single])
    simp [lines, more, hindent, hhead]

/-! ## Under the scan -/

section

variable {front back : List (List Char)} {s : Scan} {owner : Nat}

theorem drop_front : (front ++ (form.lines ++ back)).drop front.length =
    (m.indent ++ m.text form.behind) :: (form.more ++ back) :=
  List.drop_left

theorem methodHead?_first : methodHead? (trim (m.indent ++ m.text form.behind)) = some m.head := by
  rw [form.trim_first]
  exact methodHead?_text form.head?_behind

/-- A scan that comes to the method inside a declaration takes in its head, and goes on with the line
behind the method. -/
theorem reaches_behind (h : Reaches (front ++ (form.lines ++ back)) s front.length)
    (howner : s.current? = some owner) :
    Reaches (front ++ (form.lines ++ back)) (s.define owner m.head (front.length + 1))
      (front.length + form.lines.length) := by
  have hnext := h.next form.drop_front
  rw [Scan.next_define howner form.methodHead?_first, form.blockExtent_eq] at hnext
  have hlength : front.length + form.lines.length = front.length + 1 + form.more.length := by
    rw [lines, List.length_cons]
    omega
  rwa [hlength]

/-- In the end the declaration has the method as a member. -/
theorem declares (h : Reaches (front ++ (form.lines ++ back)) s front.length)
    (howner : s.current? = some owner) {d : Declaration} (hd : s.found[owner]? = some d) :
    ∃ d' ∈ ofLines (front ++ (form.lines ++ back)), d'.name = d.name ∧ m.key s ∈ d'.keys := by
  have hbehind := form.reaches_behind h howner
  have hassigns : ¬ m.head.name.toList.getLast? = some '=' := by
    intro hlast
    rw [head, String.toList_ofList] at hlast
    exact absurd (m.name.of_mem (List.mem_of_getLast? hlast)) (by decide)
  rw [Scan.define, if_neg hassigns] at hbehind
  obtain ⟨d', hd', hkeeps⟩ := hbehind.keeps (Scan.getElem?_update_self hd)
  exact ⟨d', List.mem_of_getElem? hd', hkeeps.name,
    hkeeps.keys (mem_keys_upsertMember.mpr (.inr rfl))⟩

end

end Form

end ShortMethod

end DocWeave.Outline
