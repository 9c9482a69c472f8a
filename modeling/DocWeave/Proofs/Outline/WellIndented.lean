import DocWeave.Proofs.Manifest.Keyed
import DocWeave.Proofs.Outline.Rejoined
import DocWeave.Proofs.Text.Ascii

/-!
# Well-indented sources

A well-indented source is a forest of classes and modules with methods in them. Every level is two
blanks deeper than the one around it, and every block is closed by an `end` below its opener. The lines
of a method's body may say anything as long as they are blank or deeper than the `def`. The outline of
such a source lists the forest: its classes and modules in preorder, each between the lines of its head
and its `end`, with the methods in their order (`ofSource_source`).
-/

namespace DocWeave.Outline

open DocWeave.Text

/-! ## Lines that do not close -/

theorem mem_of_mem_trimEnd {c : Char} {s : List Char} (h : c ∈ trimEnd s) : c ∈ s :=
  List.mem_reverse.mp ((List.dropWhile_sublist isBlank).mem (List.mem_reverse.mp h))

theorem closesItself_of_not_mem {line : List Char} (h : ';' ∉ line) : closesItself line = false := by
  unfold closesItself
  split
  · next s hs =>
    obtain ⟨t, ht, rfl⟩ := Option.map_eq_some_iff.mp hs
    have hsplit := after?_eq_some_iff.mp ht
    rw [beq_eq_false_iff_ne]
    intro hlast
    refine h (mem_of_mem_trimEnd (List.mem_reverse.mp ?_))
    rw [hsplit]
    exact List.mem_append_right _ (List.mem_reverse.mp (mem_of_mem_trimEnd (List.mem_of_getLast? hlast)))
  · rfl

theorem mem_of_mem_afterWord? {word : String} {line s : List Char} (h : afterWord? word line = some s)
    {c : Char} (hc : c ∈ s) : c ∈ line := by
  obtain ⟨t, ht, hs⟩ := Option.bind_eq_some_iff.mp h
  rw [after?_eq_some_iff.mp ht]
  refine List.mem_append_right _ ?_
  cases t with
  | nil => cases hs
  | cons d t =>
    rw [afterBlanks?] at hs
    split at hs
    · cases hs
      exact List.mem_cons_of_mem _ ((List.dropWhile_sublist isBlank).mem hc)
    · cases hs

theorem skipParameters_sublist (s : List Char) : (skipParameters s).Sublist s := by
  unfold skipParameters
  split
  · next t =>
    split
    · next d rest hrest =>
      have hdrop : (d :: rest).Sublist t := hrest ▸ List.dropWhile_sublist _
      exact ((List.sublist_cons_self d rest).trans hdrop).trans (List.sublist_cons_self _ t)
    · exact List.Sublist.refl _
  · exact List.Sublist.refl _

theorem mem_of_afterEquals? {s t : List Char} (h : afterEquals? s = some t) : '=' ∈ s := by
  unfold afterEquals? at h
  dsimp only at h
  split at h
  · cases h
  · split at h
    · next rest hrest =>
      have hsub : ('=' :: rest).Sublist s :=
        hrest ▸ ((List.dropWhile_sublist _).trans (skipParameters_sublist _)).trans
          (List.dropWhile_sublist _)
      exact hsub.mem List.mem_cons_self
    · cases h

theorem isEquation_of_not_mem {line : List Char} (h : '=' ∉ line) : isEquation line = false := by
  have hnone : equationText? line = none := by
    by_contra hsome
    obtain ⟨t, ht⟩ := Option.ne_none_iff_exists'.mp hsome
    obtain ⟨s, hs, ht⟩ := Option.bind_eq_some_iff.mp ht
    refine h (mem_of_mem_afterWord? hs ?_)
    rw [Option.orElse_eq_orElse, Option.orElse_eq_or, Option.or_eq_some_iff] at ht
    rcases ht with ht | ⟨-, ht⟩
    · obtain ⟨u, hu, ht⟩ := Option.bind_eq_some_iff.mp ht
      rw [after?_eq_some_iff.mp hu]
      exact List.mem_append_right _ (mem_of_afterEquals? ht)
    · exact mem_of_afterEquals? ht
  rw [isEquation, hnone]

namespace Layout

/-! ## What is written -/

/-- A name without scopes: a capital letter and ASCII word characters. -/
structure SubjectName where
  first : Char
  more : List Char
  upper : first.isUpper = true
  word : ∀ c ∈ more, c.isAlphanum = true ∨ c = '_'

/-- A name with the scopes before it. -/
structure ScopedName where
  first : SubjectName
  more : List SubjectName := []

/-- The head of a class or module. -/
structure Head where
  kind : SubjectKind
  name : SubjectName
  parent : Option ScopedName := none

/-- The name of a method: a small letter or `_`, word characters, and perhaps a mark. -/
structure MethodName where
  first : Char
  more : List Char
  mark : Option Char := none
  lower : first.isLower = true ∨ first = '_'
  word : ∀ c ∈ more, isWordChar c = true
  marked : ∀ c ∈ mark, c = '?' ∨ c = '!'

/-- A method that is written `depth` levels deep. -/
structure Method (depth : Nat) where
  name : MethodName
  onSelf : Bool := false
  body : List (List Char) := []
  single : ∀ line ∈ body, '\n' ∉ line
  deeper : ∀ line ∈ body, isBlankText line = true ∨ 2 * depth < indentation line

/-- What stands one below the other on a level: methods, and subjects with contents of their own. -/
inductive Content : Nat → Type where
  | done {depth : Nat} : Content depth
  | method {depth : Nat} (m : Method depth) (rest : Content depth) : Content depth
  | subject {depth : Nat} (head : Head) (inner : Content (depth + 1)) (rest : Content depth) :
      Content depth

/-- The subjects of a file, with what is inside. -/
abbrev Forest := List (Head × Content 1)

/-! ## How it is written -/

def SubjectName.text (n : SubjectName) : List Char := n.first :: n.more

def ScopedName.text (n : ScopedName) : List Char :=
  "::".toList.intercalate (n.first.text :: n.more.map SubjectName.text)

def Head.parentText (h : Head) : List Char :=
  match h.parent with
  | none => []
  | some p => ' ' :: '<' :: ' ' :: p.text

def Head.text (h : Head) : List Char :=
  h.kind.keyword.toList ++ ' ' :: (h.name.text ++ h.parentText)

def MethodName.text (n : MethodName) : List Char := n.first :: (n.more ++ n.mark.toList)

def Method.text {depth : Nat} (m : Method depth) : List Char :=
  "def".toList ++ ' ' :: ((if m.onSelf then "self.".toList else []) ++ m.name.text)

/-- A text on a line of its own, `depth` levels deep. -/
def indented (depth : Nat) (text : List Char) : List Char := List.replicate (2 * depth) ' ' ++ text

def Method.lines {depth : Nat} (m : Method depth) : List (List Char) :=
  indented depth m.text :: (m.body ++ [indented depth "end".toList])

/-- The lines inside a subject between its head and its `end`. -/
def Head.enclose (depth : Nat) (h : Head) (inner : List (List Char)) : List (List Char) :=
  indented depth h.text :: (inner ++ [indented depth "end".toList])

def Content.lines : {depth : Nat} → Content depth → List (List Char)
  | _, .done => []
  | _, .method m rest => m.lines ++ rest.lines
  | depth, .subject head inner rest => head.enclose depth inner.lines ++ rest.lines

def Forest.lines : Forest → List (List Char)
  | [] => []
  | (head, inner) :: rest => head.enclose 0 inner.lines ++ Forest.lines rest

/-- The text of a file. -/
def Forest.source (f : Forest) : String := String.ofList ((Forest.lines f).flatMap (· ++ ['\n']))

/-! ## What it declares -/

def Method.kind {depth : Nat} (m : Method depth) : MemberKind :=
  if m.onSelf then .onClass else .onInstance

/-- The methods of a level whose first line has the number `line`. -/
def Content.members (line : Nat) : {depth : Nat} → Content depth → List Member
  | _, .done => []
  | _, .method m rest =>
    { name := String.ofList m.name.text, kind := m.kind, line := some line } ::
      rest.members (line + m.lines.length)
  | _, .subject _ inner rest => rest.members (line + inner.lines.length + 2)

/-- The declaration whose head stands on a line. -/
def Head.declaration {depth : Nat} (h : Head) (name : String) (line : Nat) (inner : Content depth) :
    Declaration where
  name
  kind := h.kind
  parent := h.parent.map fun p => String.ofList p.text
  line
  endLine := line + inner.lines.length + 1
  members := inner.members (line + 1)

/-- The declarations on a level inside `outer`, in preorder. -/
def Content.declarations (outer : String) (line : Nat) :
    {depth : Nat} → Content depth → List Declaration
  | _, .done => []
  | _, .method m rest => rest.declarations outer (line + m.lines.length)
  | _, .subject head inner rest =>
    let name := outer ++ "::" ++ String.ofList head.name.text
    head.declaration name line inner :: (inner.declarations name (line + 1) ++
      rest.declarations outer (line + inner.lines.length + 2))

/-- The declarations of a file from a line on, in preorder. -/
def Forest.declarations (line : Nat) : Forest → List Declaration
  | [] => []
  | (head, inner) :: rest =>
    let name := String.ofList head.name.text
    head.declaration name line inner :: (inner.declarations name (line + 1) ++
      Forest.declarations (line + inner.lines.length + 2) rest)

/-- The names and kinds of the methods of a level. -/
def Content.keys : {depth : Nat} → Content depth → List (String × MemberKind)
  | _, .done => []
  | _, .method m rest => (String.ofList m.name.text, m.kind) :: rest.keys
  | _, .subject _ _ rest => rest.keys

/-- No subject inside has two methods of the same name and kind. -/
def Content.distinct : {depth : Nat} → Content depth → Bool
  | _, .done => true
  | _, .method _ rest => rest.distinct
  | _, .subject _ inner rest => decide inner.keys.Nodup && inner.distinct && rest.distinct

/-- No subject has two methods of the same name and kind. -/
def Forest.distinct (f : Forest) : Bool :=
  f.all fun (_, inner) => decide inner.keys.Nodup && inner.distinct

/-! ## Characters of what is written -/

theorem isWordChar_of_isAlphanum {c : Char} (h : c.isAlphanum = true ∨ c = '_') :
    isWordChar c = true := by
  have hascii : c.toNat < 128 := by
    rcases h with h | rfl
    · exact ascii_of_isAlphanum h
    · decide
  rw [isWordChar_of_ascii hascii]
  simpa using h

theorem SubjectName.isWordChar_of_mem (n : SubjectName) {c : Char} (h : c ∈ n.text) :
    isWordChar c = true := by
  refine isWordChar_of_isAlphanum ?_
  rcases List.mem_cons.mp h with rfl | h
  · exact .inl (isAlphanum_of_isAlpha (isAlpha_of_isUpper n.upper))
  · exact n.word c h

theorem MethodName.of_mem (n : MethodName) {c : Char} (h : c ∈ n.text) :
    isWordChar c = true ∨ c = '?' ∨ c = '!' := by
  simp only [MethodName.text, List.mem_cons, List.mem_append, Option.mem_toList] at h
  rcases h with rfl | h | h
  · refine .inl (isWordChar_of_isAlphanum (n.lower.imp_left fun hlower => ?_))
    exact isAlphanum_of_isAlpha (isAlpha_of_isLower hlower)
  · exact .inl (n.word c h)
  · exact .inr (n.marked c h)

theorem MethodName.isBlank_of_mem (n : MethodName) {c : Char} (h : c ∈ n.text) :
    isBlank c = false := by
  rcases n.of_mem h with h | rfl | rfl
  · exact isBlank_of_isWordChar h
  · decide
  · decide

theorem ScopedName.isScopedChar_of_mem (n : ScopedName) {c : Char} (h : c ∈ n.text) :
    isScopedChar c = true := by
  have hname : ∀ m : SubjectName, c ∈ m.text → isScopedChar c = true := fun m hm => by
    simp [isScopedChar, m.isWordChar_of_mem hm]
  rw [ScopedName.text, intercalate_cons, List.mem_append, List.mem_flatMap] at h
  rcases h with h | ⟨_, hmore, h⟩
  · exact hname _ h
  · obtain ⟨m, -, rfl⟩ := List.mem_map.mp hmore
    rcases List.mem_append.mp h with h | h
    · have hcolon : c = ':' := by simpa using h
      rw [hcolon]
      decide
    · exact hname m h

theorem isBlank_of_isScopedChar {c : Char} (h : isScopedChar c = true) : isBlank c = false := by
  rcases Bool.or_eq_true_iff.mp h with h | h
  · exact isBlank_of_isWordChar h
  · rw [beq_iff_eq.mp h]
    decide

/-- A text that begins and ends with what is not blank. -/
structure Solid (text : List Char) : Prop where
  first : ∀ c ∈ text.head?, isBlank c = false
  last : ∀ c ∈ text.getLast?, isBlank c = false

theorem Solid.of_append {c : Char} (front : List Char) {back : List Char} (hc : isBlank c = false)
    (hne : back ≠ []) (hback : ∀ d ∈ back, isBlank d = false) : Solid (c :: (front ++ back)) where
  first d hd := by
    obtain rfl : c = d := by simpa using hd
    exact hc
  last d hd := by
    have hlast : (c :: (front ++ back)).getLast? = back.getLast? := by
      rw [← List.cons_append, List.getLast?_append, List.getLast?_eq_some_getLast hne, Option.some_or]
    rw [hlast] at hd
    exact hback d (List.mem_of_getLast? hd)

theorem Solid.trim_indented {text : List Char} (h : Solid text) (depth : Nat) :
    trim (indented depth text) = text :=
  trim_blanks_append (fun c hc => by rw [(List.mem_replicate.mp hc).2]; decide) h.first h.last

theorem Solid.indentation_indented {text : List Char} (h : Solid text) (depth : Nat) :
    indentation (indented depth text) = 2 * depth := by
  rw [indented, indentation_blanks_append
    (fun c hc => by rw [(List.mem_replicate.mp hc).2]; decide) h.first, List.length_replicate]

/-! ## Heads are recognised -/

theorem afterWord?_append (word : String) {s : List Char} (hs : ∀ c ∈ s.head?, isBlank c = false) :
    afterWord? word (word.toList ++ ' ' :: s) = some s := by
  rw [afterWord?, after?_append, Option.bind_some, afterBlanks?, if_pos (by decide)]
  cases s with
  | nil => rfl
  | cons c s => rw [List.dropWhile_cons_of_neg (by simp [hs c rfl])]

theorem takeScopedName?_append {c : Char} {s rest : List Char} (hc : c.isUpper = true)
    (hs : ∀ d ∈ s, isScopedChar d = true) (hrest : ∀ d ∈ rest.head?, isScopedChar d = false) :
    takeScopedName? (c :: s ++ rest) = some (c :: s, rest) := by
  have hcolon : c ≠ ':' := by
    rintro rfl
    exact absurd hc (by decide)
  have hcolons : takeColons (c :: (s ++ rest)) = ([], c :: (s ++ rest)) := by
    simp [takeColons, hcolon]
  have hbehind : rest.takeWhile isScopedChar = [] ∧ rest.dropWhile isScopedChar = rest := by
    cases rest with
    | nil => exact ⟨rfl, rfl⟩
    | cons d rest =>
      have hd : ¬ isScopedChar d = true := by simp [hrest d rfl]
      exact ⟨List.takeWhile_cons_of_neg hd, List.dropWhile_cons_of_neg hd⟩
  rw [List.cons_append, takeScopedName?, hcolons]
  dsimp only
  rw [if_pos hc, List.takeWhile_append_of_pos hs, List.dropWhile_append_of_pos hs, hbehind.1,
    hbehind.2, List.append_nil, List.nil_append]

theorem takeMemberName?_text (n : MethodName) {marks : List Char}
    (hmarks : ∀ c ∈ n.mark, c ∈ marks) : takeMemberName? marks n.text = some (n.text, []) := by
  have hfirst : isMemberStart n.first = true := by
    rcases n.lower with h | h
    · simp [isMemberStart, isAlpha_of_isLower h]
    · simp [isMemberStart, h]
  rw [MethodName.text, takeMemberName?, if_pos hfirst, List.takeWhile_append_of_pos n.word,
    List.dropWhile_append_of_pos n.word]
  cases hmark : n.mark with
  | none => simp
  | some c =>
    have hword : ¬ isWordChar c = true := by
      rcases n.marked c hmark with rfl | rfl <;> decide
    simp [hword, hmarks c hmark]

theorem Head.parentOf?_parentText (h : Head) :
    parentOf? h.parentText = h.parent.map fun p => String.ofList p.text := by
  unfold Head.parentText
  cases h.parent with
  | none => rfl
  | some p =>
    obtain ⟨t, ht⟩ : ∃ t, p.text = p.first.first :: t :=
      ⟨_, by rw [ScopedName.text, intercalate_cons]; rfl⟩
    have hmem : ∀ d ∈ t, isScopedChar d = true := fun d hd =>
      p.isScopedChar_of_mem (ht ▸ List.mem_cons_of_mem _ hd)
    have hfirst : ¬ isBlank p.first.first = true := by
      rw [isBlank_of_isScopedChar (p.isScopedChar_of_mem (ht ▸ List.mem_cons_self))]
      decide
    have htake : takeScopedName? (p.first.first :: t ++ []) = some (p.first.first :: t, []) :=
      takeScopedName?_append p.first.upper hmem (by simp)
    rw [List.append_nil] at htake
    have hdrop : (' ' :: p.text).dropWhile isBlank = p.first.first :: t := by
      rw [ht, List.dropWhile_cons_of_pos (by decide), List.dropWhile_cons_of_neg hfirst]
    show (takeScopedName? ((' ' :: p.text).dropWhile isBlank)).map _ = _
    rw [hdrop, htake, Option.map_some, Option.map_some, ht]

theorem Head.takeScopedName?_text (h : Head) :
    takeScopedName? (h.name.text ++ h.parentText) = some (h.name.text, h.parentText) := by
  refine takeScopedName?_append h.name.upper (fun d hd => ?_) fun d hd => ?_
  · simp [isScopedChar, isWordChar_of_isAlphanum (h.name.word d hd)]
  · unfold Head.parentText at hd
    split at hd
    · cases hd
    · obtain rfl : ' ' = d := by simpa using hd
      decide

theorem Head.afterWord?_text (h : Head) :
    afterWord? h.kind.keyword h.text = some (h.name.text ++ h.parentText) := by
  refine afterWord?_append _ fun c hc => isBlank_of_isWordChar (h.name.isWordChar_of_mem ?_)
  obtain rfl : h.name.first = c := by simpa [SubjectName.text] using hc
  exact List.mem_cons_self

theorem Head.subjectHead?_text (h : Head) :
    subjectHead? h.text = some ⟨h.kind, String.ofList h.name.text,
      h.parent.map fun p => String.ofList p.text⟩ := by
  have hword := h.afterWord?_text
  unfold subjectHead?
  cases hkind : h.kind with
  | classDecl =>
    rw [hkind] at hword
    simp [hword, h.takeScopedName?_text, h.parentOf?_parentText]
  | moduleDecl =>
    rw [hkind] at hword
    have hclass : afterWord? SubjectKind.classDecl.keyword h.text = none := by
      rw [Head.text, hkind]
      rfl
    simp [hword, hclass, h.takeScopedName?_text, h.parentOf?_parentText]

theorem Head.isSingletonHead_text (h : Head) : isSingletonHead h.text = false := by
  have hfirst : isBlank h.name.first = false :=
    isBlank_of_isWordChar (h.name.isWordChar_of_mem List.mem_cons_self)
  have hangle : h.name.first ≠ '<' := by
    intro hc
    exact absurd (hc ▸ h.name.upper) (by decide)
  unfold isSingletonHead Head.text
  cases h.kind with
  | moduleDecl => rfl
  | classDecl =>
    rw [SubjectKind.keyword, after?_append]
    dsimp only
    rw [List.dropWhile_cons_of_pos (by decide), SubjectName.text, List.cons_append,
      List.dropWhile_cons_of_neg (by simp [hfirst])]
    simp [after?, hangle.symm]

theorem Head.isEnd_text (h : Head) : isEnd h.text = false := by
  unfold Head.text
  cases h.kind <;> rfl

theorem Method.afterWord?_text {depth : Nat} (m : Method depth) :
    afterWord? "def" m.text = some ((if m.onSelf then "self.".toList else []) ++ m.name.text) := by
  refine afterWord?_append "def" fun c hc => ?_
  cases hself : m.onSelf with
  | true =>
    obtain rfl : 's' = c := by simpa [hself] using hc
    decide
  | false =>
    obtain rfl : m.name.first = c := by simpa [hself, MethodName.text] using hc
    exact m.name.isBlank_of_mem List.mem_cons_self

theorem Method.methodHead?_text {depth : Nat} (m : Method depth) :
    methodHead? m.text = some ⟨String.ofList m.name.text, m.onSelf⟩ := by
  have hname : takeMemberName? ['?', '!', '='] m.name.text = some (m.name.text, []) := by
    refine takeMemberName?_text m.name fun c hc => ?_
    rcases m.name.marked c hc with rfl | rfl <;> decide
  have hdot : after? "self.".toList m.name.text = none := by
    rw [after?_eq_none_iff]
    rintro ⟨rest, hrest⟩
    have hmem : '.' ∈ m.name.text := by
      rw [← hrest]
      simp
    rcases m.name.of_mem hmem with h | h | h
    · exact absurd h (by decide)
    · cases h
    · cases h
  have hdef := m.afterWord?_text
  cases hself : m.onSelf with
  | true =>
    rw [hself, if_pos rfl] at hdef
    simp only [methodHead?, hdef, Option.bind_eq_bind, Option.bind_some, after?_append, hname]
  | false =>
    rw [hself, if_neg (by decide), List.nil_append] at hdef
    simp only [methodHead?, hdef, Option.bind_eq_bind, Option.bind_some, hdot, Option.bind_none, hname,
      Option.map_some]

theorem Method.of_mem {depth : Nat} (m : Method depth) {c : Char} (h : c ∈ m.text) :
    isWordChar c = true ∨ c ∈ [' ', '.', '?', '!'] := by
  rw [Method.text, List.mem_append, List.mem_cons, List.mem_append] at h
  rcases h with h | rfl | h | h
  · exact .inl (List.all_eq_true.mp (by decide : "def".toList.all isWordChar = true) c h)
  · decide
  · split at h
    · simp only [String.reduceToList, List.mem_cons, List.not_mem_nil, or_false] at h
      rcases h with rfl | rfl | rfl | rfl | rfl <;> decide
    · cases h
  · rcases m.name.of_mem h with h | rfl | rfl
    · exact .inl h
    · decide
    · decide

theorem Head.of_mem (h : Head) {c : Char} (hc : c ∈ h.text) :
    isScopedChar c = true ∨ c ∈ [' ', '<'] := by
  rw [Head.text, List.mem_append, List.mem_cons, List.mem_append] at hc
  rcases hc with hc | rfl | hc | hc
  · have hword : h.kind.keyword.toList.all isScopedChar = true := by
      cases h.kind <;> decide
    exact .inl (List.all_eq_true.mp hword c hc)
  · decide
  · exact .inl (by simp [isScopedChar, h.name.isWordChar_of_mem hc])
  · unfold Head.parentText at hc
    split at hc
    · cases hc
    · next p _ =>
      simp only [List.mem_cons] at hc
      rcases hc with rfl | rfl | rfl | hc
      · decide
      · decide
      · decide
      · exact .inl (p.isScopedChar_of_mem hc)

/-- The head of a method says neither that it is closed nor what it is equal to. -/
theorem Method.isOneLiner_text {depth : Nat} (m : Method depth) : isOneLiner m.text = false := by
  have hclosed : ';' ∉ m.text := fun h => absurd (m.of_mem h) (by decide)
  have hequal : '=' ∉ m.text := fun h => absurd (m.of_mem h) (by decide)
  rw [isOneLiner, closesItself_of_not_mem hclosed, isEquation_of_not_mem hequal, Bool.or_false]

theorem Head.closesItself_text (h : Head) : closesItself h.text = false :=
  closesItself_of_not_mem fun hc => absurd (h.of_mem hc) (by decide)

theorem Method.solid {depth : Nat} (m : Method depth) : Solid m.text := by
  have htext : m.text = 'd' :: (('e' :: 'f' :: ' ' :: (if m.onSelf then "self.".toList else [])) ++
      m.name.text) := by
    rw [Method.text]
    rfl
  rw [htext]
  exact .of_append _ (by decide) (List.cons_ne_nil _ _) fun c hc => m.name.isBlank_of_mem hc

theorem Head.solid (h : Head) : Solid h.text := by
  obtain ⟨c, word, hc, hword⟩ : ∃ c word, isBlank c = false ∧ h.kind.keyword.toList = c :: word := by
    cases h.kind
    · exact ⟨'c', "lass".toList, by decide, rfl⟩
    · exact ⟨'m', "odule".toList, by decide, rfl⟩
  have hname : ∀ d ∈ h.name.text, isBlank d = false := fun d hd =>
    isBlank_of_isWordChar (h.name.isWordChar_of_mem hd)
  rw [Head.text, hword, Head.parentText]
  split
  · have hsolid : Solid (c :: (word ++ [' '] ++ h.name.text)) :=
      .of_append _ hc (List.cons_ne_nil _ _) hname
    simpa using hsolid
  · next p _ =>
    have hne : p.text ≠ [] := by
      rw [ScopedName.text, intercalate_cons]
      exact List.cons_ne_nil _ _
    have hsolid := Solid.of_append (word ++ ' ' :: (h.name.text ++ " < ".toList)) hc hne
      fun d hd => isBlank_of_isScopedChar (p.isScopedChar_of_mem hd)
    simpa using hsolid

theorem solid_end : Solid "end".toList := by
  show Solid ('e' :: ([] ++ ['n', 'd']))
  refine .of_append [] (by decide) (by decide) fun c hc => isBlank_of_isWordChar ?_
  exact List.all_eq_true.mp (by decide : ['n', 'd'].all isWordChar = true) c hc

theorem Head.length_enclose (depth : Nat) (h : Head) (inner : List (List Char)) :
    (h.enclose depth inner).length = inner.length + 2 := by
  simp [Head.enclose]

/-! ## What the lines do to a scan -/

theorem scanLines_end (s : Scan) (n depth : Nat) (rest : List (List Char)) :
    scanLines s n (indented depth "end".toList :: rest) =
      scanLines (s.close (2 * depth) (n + 1)) (n + 1) rest := by
  rw [scanLines]
  dsimp only
  rw [solid_end.trim_indented, solid_end.indentation_indented]
  rfl

theorem scanLines_head (s : Scan) (n depth : Nat) (h : Head) (rest : List (List Char)) :
    scanLines s n (indented depth h.text :: rest) =
      scanLines (s.declare ⟨h.kind, String.ofList h.name.text,
        h.parent.map fun p => String.ofList p.text⟩ h.text (2 * depth) (n + 1)) (n + 1) rest := by
  have hline : (h.text.isEmpty || h.text.head? == some '#') = false := by
    unfold Head.text
    cases h.kind <;> rfl
  rw [scanLines]
  dsimp only
  rw [h.solid.trim_indented, h.solid.indentation_indented, hline, h.isEnd_text, h.isSingletonHead_text,
    h.subjectHead?_text]
  rfl

theorem scanLines_method (s : Scan) (n depth owner : Nat) (m : Method depth)
    (howner : s.current? = some owner) (rest : List (List Char)) :
    scanLines s n (indented depth m.text :: rest) =
      scanLines (s.define owner ⟨String.ofList m.name.text, m.onSelf⟩ (n + 1))
        (n + 1 + blockExtent (indented depth m.text) rest)
        (rest.drop (blockExtent (indented depth m.text) rest)) := by
  have hline : (m.text.isEmpty || m.text.head? == some '#') = false := rfl
  have hend : isEnd m.text = false := rfl
  have hsingle : isSingletonHead m.text = false := rfl
  have hsubject : subjectHead? m.text = none := rfl
  rw [scanLines]
  dsimp only
  rw [m.solid.trim_indented, hline, hend, hsingle, hsubject, howner, m.methodHead?_text]
  rfl

/-- The lines of a block that are blank or deeper do not close it. -/
theorem blockLength_append {indent : Nat} {body : List (List Char)}
    (h : ∀ line ∈ body, isBlankText line = true ∨ indent < indentation line) {close : List Char}
    (hindent : indentation close = indent) (hclose : isEnd (trim close) = true)
    (rest : List (List Char)) : blockLength indent (body ++ close :: rest) = body.length + 1 := by
  induction body with
  | nil => simp [blockLength, hindent, hclose]
  | cons line body ih =>
    obtain ⟨hline, hbody⟩ := List.forall_mem_cons.mp h
    have hopen : ¬ (indentation line = indent && isEnd (trim line)) = true := by
      rcases hline with hblank | hdeep
      · rw [trim_eq_nil_iff.mpr hblank]
        simp [isEnd, after?]
      · simp [Nat.ne_of_gt hdeep]
    rw [List.cons_append, blockLength, if_neg hopen, ih hbody, List.length_cons, Nat.add_comm]

theorem scanLines_method_lines (s : Scan) (n depth owner : Nat) (m : Method depth)
    (howner : s.current? = some owner) (rest : List (List Char)) :
    scanLines s n (m.lines ++ rest) =
      scanLines (s.define owner ⟨String.ofList m.name.text, m.onSelf⟩ (n + 1))
        (n + m.lines.length) rest := by
  have hlines : m.lines ++ rest = indented depth m.text ::
      (m.body ++ indented depth "end".toList :: rest) := by
    rw [Method.lines, List.cons_append, List.append_assoc, List.singleton_append]
  have hextent : blockExtent (indented depth m.text)
      (m.body ++ indented depth "end".toList :: rest) = m.body.length + 1 := by
    rw [blockExtent, m.solid.trim_indented, m.isOneLiner_text, m.solid.indentation_indented]
    exact blockLength_append m.deeper (solid_end.indentation_indented depth)
      (by rw [solid_end.trim_indented]; rfl) rest
  have hdrop : (m.body ++ indented depth "end".toList :: rest).drop (m.body.length + 1) = rest := by
    rw [← List.drop_drop, List.drop_left, List.drop_one, List.tail_cons]
  have hlength : m.lines.length = m.body.length + 2 := by simp [Method.lines]
  rw [hlines, scanLines_method s n depth owner m howner, hextent, hdrop, hlength, Nat.add_assoc,
    Nat.add_comm 1]

/-! ## Reading the forest back -/

theorem modify_length_append {α : Type} (front : List α) (a : α) (back : List α) (f : α → α) :
    (front ++ a :: back).modify front.length f = front ++ f a :: back := by
  induction front with
  | nil => rfl
  | cons b front ih => rw [List.cons_append, List.length_cons, List.modify_succ_cons, ih]; rfl

theorem upsertMember_of_not_mem {x : Member} {members : List Member}
    (h : x.key ∉ members.map Member.key) : upsertMember x members = members ++ [x] := by
  induction members with
  | nil => rfl
  | cons old members ih =>
    rw [List.map_cons, List.mem_cons, not_or] at h
    have hother : ¬ old.isCalled x.name x.kind = true := fun hcalled =>
      h.1 (Member.isCalled_iff.mp hcalled).symm
    rw [upsertMember, if_neg hother, ih h.2, List.cons_append]

/-- A scan whose innermost open block is that of the declaration `d`. -/
def inside (front : List Declaration) (d : Declaration) (back : List Declaration) (indent : Nat)
    (below : List Frame) : Scan :=
  ⟨front ++ d :: back, .declaration front.length indent :: below⟩

section

variable {front back : List Declaration} {d : Declaration} {indent : Nat} {below : List Frame}

theorem current?_inside : (inside front d back indent below).current? = some front.length := rfl

theorem define_inside {depth : Nat} (m : Method depth) (line : Nat)
    (hnew : (String.ofList m.name.text, m.kind) ∉ d.members.map Member.key) :
    (inside front d back indent below).define front.length ⟨String.ofList m.name.text, m.onSelf⟩ line =
      inside front { d with members := d.members ++
        [{ name := String.ofList m.name.text, kind := m.kind, line := some line }] } back indent
        below := by
  have hassign : ¬ (String.ofList m.name.text).toList.getLast? = some '=' := by
    rw [String.toList_ofList]
    intro hlast
    exact absurd (m.name.of_mem (List.mem_of_getLast? hlast)) (by decide)
  have hkind : (if (m.onSelf || (inside front d back indent below).inSingleton) = true then
      MemberKind.onClass else .onInstance) = m.kind := by
    show (if (m.onSelf || false) = true then MemberKind.onClass else .onInstance) = _
    rw [Bool.or_false, Method.kind]
  rw [Scan.define]
  dsimp only
  rw [if_neg hassign, hkind, Scan.update, inside, modify_length_append, upsertMember_of_not_mem hnew]
  rfl

theorem SubjectName.not_absolute (n : SubjectName) :
    after? "::".toList (String.ofList n.text).toList = none := by
  have hcolon : ':' ≠ n.first := fun h => absurd (h ▸ n.upper) (by decide)
  rw [String.toList_ofList, SubjectName.text]
  simp [after?, hcolon]

theorem qualify_inside (name : SubjectName) :
    (inside front d back indent below).qualify (String.ofList name.text) =
      d.name ++ "::" ++ String.ofList name.text := by
  rw [Scan.qualify, name.not_absolute, current?_inside]
  simp [inside]

theorem close_inside (line : Nat) :
    (inside front d back indent below).close indent line =
      ⟨front ++ { d with endLine := line } :: back, below⟩ := by
  simp [inside, Scan.close, Frame.indent, Frame.index?, Scan.update, modify_length_append]

end

theorem declare_inside (s : Scan) (head : SubjectHead) {text : List Char}
    (htext : closesItself text = false) (indent line : Nat) :
    s.declare head text indent line =
      inside s.found
        { name := s.qualify head.name, kind := head.kind, parent := head.parent, line := line,
          endLine := line } [] indent s.stack := by
  rw [Scan.declare, Scan.enter, htext]
  rfl

/-- A level inside a declaration is read back: the methods become members of the declaration, and the
subjects become declarations behind all others. -/
def Content.Readable {depth : Nat} (c : Content depth) : Prop :=
  ∀ (front : List Declaration) (d : Declaration) (back : List Declaration) (indent : Nat)
    (below : List Frame) (n : Nat) (rest : List (List Char)),
    (d.members.map Member.key ++ c.keys).Nodup →
      scanLines (inside front d back indent below) n (c.lines ++ rest) =
        scanLines (inside front { d with members := d.members ++ c.members (n + 1) }
          (back ++ c.declarations d.name (n + 1)) indent below) (n + c.lines.length) rest

/-- A subject is read back if what is inside is. -/
theorem scanLines_subject (s : Scan) (n depth : Nat) (h : Head) {inner : Content (depth + 1)}
    (hinner : inner.Readable) (hdistinct : inner.keys.Nodup) (name : String)
    (hname : s.qualify (String.ofList h.name.text) = name) (rest : List (List Char)) :
    scanLines s n (h.enclose depth inner.lines ++ rest) =
      scanLines { s with found := s.found ++ h.declaration name (n + 1) inner ::
          inner.declarations name (n + 1 + 1) } (n + (inner.lines.length + 2)) rest := by
  have hlines : h.enclose depth inner.lines ++ rest = indented depth h.text ::
      (inner.lines ++ indented depth "end".toList :: rest) := by
    rw [Head.enclose, List.cons_append, List.append_assoc, List.singleton_append]
  rw [hlines, scanLines_head, declare_inside s _ h.closesItself_text, hname,
    hinner _ _ _ _ _ _ _ (by simpa using hdistinct), scanLines_end, close_inside, List.nil_append,
    List.nil_append]
  congr 1
  omega

/-- Every level is read back. -/
theorem Content.readable {depth : Nat} (c : Content depth) (h : c.distinct = true) : c.Readable := by
  induction c with
  | done =>
    intro front d back indent below n rest _
    rw [Content.members, Content.declarations, List.append_nil, List.append_nil]
    rfl
  | method m c ih =>
    intro front d back indent below n rest hnodup
    -- What the declaration has so far and what is still to come have no key in common, so the
    -- method is a new member and not another definition of an old one.
    have hnew : (String.ofList m.name.text, m.kind) ∉ d.members.map Member.key := fun hmem =>
      (List.nodup_append.mp hnodup).2.2 _ hmem _ List.mem_cons_self rfl
    rw [Content.lines, List.append_assoc,
      scanLines_method_lines _ n _ _ m current?_inside, define_inside m (n + 1) hnew,
      ih h front _ back indent below (n + m.lines.length) rest
        (by simpa [Member.key, Content.keys] using hnodup),
      Content.members, Content.declarations, List.append_assoc, List.singleton_append,
      List.length_append, Nat.add_right_comm n 1, ← Nat.add_assoc n]
  | subject head inner c ihInner ih =>
    intro front d back indent below n rest hnodup
    simp only [Content.distinct, Bool.and_eq_true, decide_eq_true_eq] at h
    obtain ⟨⟨hkeys, hinner⟩, hc⟩ := h
    -- Past the subject's `end` the block of `d` is the innermost one again, with the subject and what
    -- is inside it behind `back`.
    have hstep := scanLines_subject (inside front d back indent below) n _ head (ihInner hinner) hkeys _
      (qualify_inside head.name) (c.lines ++ rest)
    have hbehind := ih hc front d (back ++ head.declaration (d.name ++ "::" ++
      String.ofList head.name.text) (n + 1) inner :: inner.declarations (d.name ++ "::" ++
      String.ofList head.name.text) (n + 1 + 1)) indent below (n + (inner.lines.length + 2)) rest hnodup
    have hline : n + (inner.lines.length + 2) + 1 = n + 1 + inner.lines.length + 2 := by omega
    rw [Content.lines, List.append_assoc, hstep, List.length_append,
      Head.length_enclose, Content.members, Content.declarations, ← hline,
      ← Nat.add_assoc n (inner.lines.length + 2)]
    simp only [inside, List.append_assoc, List.cons_append] at hbehind ⊢
    exact hbehind

theorem Forest.scanLines_lines (f : Forest) (h : f.distinct = true) (found : List Declaration)
    (n : Nat) : scanLines ⟨found, []⟩ n f.lines =
      ⟨found ++ f.declarations (n + 1), []⟩ := by
  induction f generalizing found n with
  | nil => simp [Forest.lines, Forest.declarations, scanLines]
  | cons tree f ih =>
    obtain ⟨head, inner⟩ := tree
    simp only [Forest.distinct, List.all_cons, Bool.and_eq_true, decide_eq_true_eq] at h
    obtain ⟨⟨hkeys, hinner⟩, hf⟩ := h
    have hname : (⟨found, []⟩ : Scan).qualify (String.ofList head.name.text) =
        String.ofList head.name.text := by
      rw [Scan.qualify, head.name.not_absolute]
      rfl
    have hline : n + (inner.lines.length + 2) + 1 = n + 1 + inner.lines.length + 2 := by omega
    rw [Forest.lines, scanLines_subject _ n 0 head (inner.readable hinner) hkeys _ hname, ih hf,
      Forest.declarations, ← hline]
    simp

/-! ## Line ends -/

theorem newline_not_mem_indented {text : List Char} (h : '\n' ∉ text) (depth : Nat) :
    '\n' ∉ indented depth text := by
  intro hmem
  rcases List.mem_append.mp hmem with hmem | hmem
  · exact absurd (List.mem_replicate.mp hmem).2 (by decide)
  · exact h hmem

theorem Head.newline_not_mem_enclose (h : Head) {depth : Nat} {inner : List (List Char)}
    (hinner : ∀ line ∈ inner, '\n' ∉ line) : ∀ line ∈ h.enclose depth inner, '\n' ∉ line := by
  intro line hline
  simp only [Head.enclose, List.mem_cons, List.mem_append, List.not_mem_nil, or_false] at hline
  rcases hline with rfl | hline | rfl
  · exact newline_not_mem_indented (fun hc => absurd (h.of_mem hc) (by decide)) depth
  · exact hinner line hline
  · exact newline_not_mem_indented (by decide) depth

theorem Content.newline_not_mem_lines {depth : Nat} (c : Content depth) :
    ∀ line ∈ c.lines, '\n' ∉ line := by
  induction c with
  | done => exact fun line hline => absurd hline List.not_mem_nil
  | method m c ih =>
    intro line hline
    simp only [Content.lines, Method.lines, List.mem_append, List.mem_cons, List.not_mem_nil,
      or_false] at hline
    rcases hline with (rfl | hline | rfl) | hline
    · exact newline_not_mem_indented (fun hc => absurd (m.of_mem hc) (by decide)) _
    · exact m.single line hline
    · exact newline_not_mem_indented (by decide) _
    · exact ih line hline
  | subject head inner c ihInner ih =>
    intro line hline
    rcases List.mem_append.mp hline with hline | hline
    · exact head.newline_not_mem_enclose ihInner line hline
    · exact ih line hline

theorem Forest.newline_not_mem_lines (f : Forest) : ∀ line ∈ f.lines, '\n' ∉ line := by
  induction f with
  | nil => exact fun line hline => absurd hline List.not_mem_nil
  | cons tree f ih =>
    intro line hline
    rcases List.mem_append.mp hline with hline | hline
    · exact tree.1.newline_not_mem_enclose tree.2.newline_not_mem_lines line hline
    · exact ih line hline

/-- **Well-indented sources are read back.** The outline of the text of a forest, in which no subject has
two methods of the same name and kind, lists the subjects of the forest in preorder, and nothing else:
with their full names, kinds and parents, the lines of their heads and ends, and their methods in order,
each with its kind and its line. It does not matter whether the last line is ended as well. -/
theorem ofSource_source (f : Forest) (h : f.distinct = true) :
    ofSource f.source = f.declarations 1 ∧
      ofSource (String.ofList (joinLines f.lines)) = f.declarations 1 := by
  have hscan : ofLines f.lines = f.declarations 1 := by
    show (scanLines ⟨[], []⟩ 0 f.lines).found = _
    rw [f.scanLines_lines h, List.nil_append]
  constructor
  · rw [ofSource, Forest.source, String.toList_ofList, lines_flatMap f.newline_not_mem_lines, ← hscan,
      ofLines_congr (sameLines_dropReturn f.lines)]
  · rw [ofSource, String.toList_ofList, lines_joinLines f.newline_not_mem_lines, ← hscan,
      ofLines_congr (sameLines_reread f.lines)]

def endName : MethodName :=
  ⟨'e', "nd".toList, none, by decide, List.all_eq_true.mp (by decide), by simp⟩

/-- A module with a class inside, whose methods are called `end` and have bodies full of heads. -/
def trapForest : Forest :=
  [(⟨.moduleDecl, ⟨'O', "uter".toList, by decide, by simp⟩, none⟩,
    .subject ⟨.classDecl, ⟨'I', "nner".toList, by decide, by simp⟩,
        some ⟨⟨'B', "ase".toList, by decide, by simp⟩, [⟨'C', "ore".toList, by decide, by simp⟩]⟩⟩
      (.method ⟨endName, true,
          ["      class Fake".toList, "      end".toList, "".toList, "     K = 1".toList], by decide,
          by decide⟩
        (.method ⟨endName, false, ["     def fake".toList], by decide, by decide⟩ .done))
      (.method ⟨⟨'o', "pen".toList, some '?', by decide, List.all_eq_true.mp (by decide), by simp⟩, false,
        [], by decide, by decide⟩ .done))]

theorem ofSource_source_trap : trapForest.distinct = true ∧
    trapForest.source = "module Outer\n  class Inner < Base::Core\n    def self.end\n      class Fake\n" ++
      "      end\n\n     K = 1\n    end\n    def end\n     def fake\n    end\n  end\n" ++
      "  def open?\n  end\nend\n" ∧
    (ofSource trapForest.source).map (fun d => (d.name, d.kind, d.parent, d.line, d.endLine)) =
      [("Outer", .moduleDecl, none, 1, 15), ("Outer::Inner", .classDecl, some "Base::Core", 2, 12)] ∧
    (ofSource trapForest.source).map (fun d => d.members.map fun x => (x.name, x.kind, x.line)) =
      [[("open?", .onInstance, some 13)],
        [("end", .onClass, some 3), ("end", .onInstance, some 9)]] := by
  have hdistinct : trapForest.distinct = true := by decide
  rw [(ofSource_source trapForest hdistinct).1]
  exact ⟨hdistinct, by decide +kernel, by decide +kernel, by decide +kernel⟩

end Layout

end DocWeave.Outline
