import DocWeave.Proofs.Text.Ascii
import DocWeave.Proofs.Text.Layout
import DocWeave.Proofs.Text.Splitting
import DocWeave.Reference
import Mathlib.Data.List.Infix

/-!
# The grammar of references

Kind, name and owner of a reference come from three scans of its text: two tests of its characters, and a
cut at the last separator for the name and for the owner. They agree (`parse_grammar`): a reference that
is written for a member is read as this member, and without constants exactly the texts with a mark that
does not stand at the end (`Marked`) are references, with owner, mark and name put together being the text.
-/

namespace DocWeave.Reference

open DocWeave.Text

/-! ## Characters -/

/-- An ASCII letter, an ASCII digit or an underscore. -/
def WordChar (c : Char) : Prop :=
  ('A' ≤ c ∧ c ≤ 'Z') ∨ ('a' ≤ c ∧ c ≤ 'z') ∨ ('0' ≤ c ∧ c ≤ '9') ∨ c = '_'

theorem wordChar_iff {c : Char} : (c.isAlphanum || c == '_') = true ↔ WordChar c := by
  delta Char.isAlphanum Char.isAlpha Char.isUpper Char.isLower Char.isDigit
  simp [WordChar, Char.le_def, or_assoc]

instance : DecidablePred WordChar := fun _ => decidable_of_iff _ wordChar_iff

/-- A character of an owner or a name. -/
def PathChar (c : Char) : Prop := c = ':' ∨ WordChar c ∨ c = '!' ∨ c = '?'

theorem isPathChar_iff {c : Char} : isPathChar c = true ↔ PathChar c := by
  simp [isPathChar, PathChar, ← wordChar_iff, or_assoc]

instance : DecidablePred PathChar := fun _ => decidable_of_iff _ isPathChar_iff

theorem ascii_of_pathChar {c : Char} (h : PathChar c) : c.toNat < 128 := by
  rw [← isPathChar_iff] at h
  simp only [isPathChar, Bool.or_eq_true, beq_iff_eq] at h
  rcases h with (((rfl | h) | rfl) | rfl) | rfl
  · decide
  · exact ascii_of_isAlphanum h
  · decide
  · decide
  · decide

theorem isBlank_of_pathChar {c : Char} (h : PathChar c) : isBlank c = false := by
  have hascii := ascii_of_pathChar h
  rw [← isPathChar_iff] at h
  revert h
  exact forall_ascii (p := fun c => isPathChar c = true → isBlank c = false) (by decide) hascii

/-- A text without blanks is its own trimmed text. -/
theorem trim_of_solid {s : List Char} (h : ∀ c ∈ s, isBlank c = false) : trim s = s := by
  show trim ([] ++ s) = s
  exact trim_blanks_append nofun (fun c hc => h c (List.mem_of_mem_head? hc))
    fun c hc => h c (List.mem_of_mem_getLast? hc)

/-! ## Kinds -/

/-- Characters of names and marks, at least one of them a mark. -/
def Spelled (mark : Char) (s : List Char) : Prop := (∀ c ∈ s, PathChar c ∨ c = mark) ∧ mark ∈ s

theorem spelled_iff {mark : Char} {s : List Char} :
    (s.contains mark && s.all fun c => isPathChar c || c == mark) = true ↔ Spelled mark s := by
  simp only [Bool.and_eq_true, List.contains_iff_mem, List.all_eq_true, Bool.or_eq_true,
    isPathChar_iff, beq_iff_eq]
  exact And.comm

theorem not_pathChar_of_mark {mark : Char} (h : mark = '#' ∨ mark = '.') : ¬PathChar mark := by
  rw [← isPathChar_iff]
  rcases h with rfl | rfl <;> decide

/-- A text has one mark at most. -/
theorem Spelled.unique {s : List Char} (h : Spelled '.' s) : ¬Spelled '#' s := by
  intro hinstance
  rcases h.1 '#' hinstance.2 with hc | hc
  · exact not_pathChar_of_mark (.inl rfl) hc
  · exact absurd hc (by decide)

/-- The mark of a kind that has one. -/
def markOf? : MemberKind → Option Char
  | .onInstance => some '#'
  | .onClass => some '.'
  | .constant => none

theorem separator_of_mark {kind : MemberKind} {mark : Char} (h : markOf? kind = some mark) :
    kind.separator.toList = [mark] ∧ kind.symbol.toList = [mark] ∧ (mark = '#' ∨ mark = '.') := by
  cases kind with
  | onInstance => cases h; exact ⟨rfl, rfl, .inl rfl⟩
  | onClass => cases h; exact ⟨rfl, rfl, .inr rfl⟩
  | constant => cases h

theorem kindOf?_of_spelled {kind : MemberKind} {mark : Char} (hmark : markOf? kind = some mark)
    {s : List Char} (h : Spelled mark s) (allowConstant : Bool) :
    kindOf? s allowConstant = some kind := by
  cases kind with
  | onInstance =>
    cases hmark
    rw [kindOf?, if_pos (spelled_iff.mpr h)]
  | onClass =>
    cases hmark
    rw [kindOf?, if_neg (mt spelled_iff.mp h.unique), if_pos (spelled_iff.mpr h)]
  | constant => cases hmark

/-- Without constants, a text has a kind exactly when it is spelled with the mark of the kind. -/
theorem kindOf?_eq_some {s : List Char} {kind : MemberKind} (h : kindOf? s false = some kind) :
    ∃ mark, markOf? kind = some mark ∧ Spelled mark s := by
  rw [kindOf?] at h
  split at h
  · next hs => cases h; exact ⟨'#', rfl, spelled_iff.mp hs⟩
  · split at h
    · next hs => cases h; exact ⟨'.', rfl, spelled_iff.mp hs⟩
    · simp at h

/-! ## Owner and name -/

section

variable {r : Reference} {front rest : List Char}

/-- The cut at the last separator gives the name. -/
theorem name_of_splitLast? (h : splitLast? r.kind.separator.toList r.raw.toList = some (front, rest)) :
    r.name = String.ofList rest := by
  rw [name, afterLast, h]

theorem owner?_of_splitLast? (h : splitLast? r.kind.separator.toList r.raw.toList = some (front, rest)) :
    r.owner?.getD "" = String.ofList front := by
  rw [owner?, h]
  cases front with
  | nil => rfl
  | cons c front => rfl

end

theorem raw_member (subject name : String) (kind : MemberKind) (visibility : Visibility) :
    (member subject name kind visibility).raw.toList =
      subject.toList ++ kind.separator.toList ++ name.toList := by
  rw [member, String.toList_append, String.toList_append]

/-- The reference to a member is cut between subject and name, unless the mark of the kind stands in the
name. -/
theorem splitLast?_member {name : String} {kind : MemberKind} {mark : Char}
    (hmark : kind.separator.toList = [mark]) (hname : mark ∉ name.toList) (subject : String)
    (visibility : Visibility) :
    splitLast? (member subject name kind visibility).kind.separator.toList
      (member subject name kind visibility).raw.toList = some (subject.toList, name.toList) := by
  show splitLast? kind.separator.toList _ = _
  rw [raw_member, hmark]
  exact splitLast?_append subject.toList (mt (List.singleton_infix_iff mark _).mp hname)

theorem name_member {name : String} {kind : MemberKind} {mark : Char}
    (hmark : kind.separator.toList = [mark]) (hname : mark ∉ name.toList) (subject : String)
    (visibility : Visibility) : (member subject name kind visibility).name = name := by
  rw [name_of_splitLast? (splitLast?_member hmark hname subject visibility), String.ofList_toList]

/-- A reference: spelled with a mark that does not stand at the end. -/
def Marked (mark : Char) (s : List Char) : Prop := Spelled mark s ∧ s.getLast? ≠ some mark

instance (mark : Char) (s : List Char) : Decidable (Marked mark s) :=
  have : Decidable (Spelled mark s) := decidable_of_iff _ spelled_iff
  inferInstanceAs (Decidable (_ ∧ _))

/-- The last mark of a text, with a name behind it unless it ends the text. -/
theorem splitLast?_mark {mark : Char} {s : List Char} (h : mark ∈ s) :
    ∃ front rest, splitLast? [mark] s = some (front, rest) ∧
      (rest = [] ↔ s.getLast? = some mark) := by
  cases hcut : splitLast? [mark] s with
  | none =>
    obtain ⟨front, rest, rfl⟩ := List.append_of_mem h
    exact absurd ⟨front, rest, by simp⟩ (splitLast?_eq_none_iff.mp hcut)
  | some cut =>
    obtain ⟨front, rest⟩ := cut
    -- a mark at the end is the last one, and the cut is unique
    refine ⟨front, rest, rfl, ?_, ?_⟩
    · rintro rfl
      rw [eq_of_splitLast? hcut, List.append_nil, List.getLast?_concat]
    · intro hlast
      obtain ⟨start, rfl⟩ := List.getLast?_eq_some_iff.mp hlast
      have hend : splitLast? [mark] (start ++ [mark] ++ []) = some (start, []) :=
        splitLast?_append start (by simp)
      rw [List.append_nil, hcut] at hend
      exact (Prod.mk.inj (Option.some.inj hend)).2

section

variable {text : String} (origin : String) {options : ReferenceOptions} {kind : MemberKind}
  {front rest : List Char}

theorem parse_of_kind_none (h : kindOf? (trim text.toList) options.allowConstant = none) :
    parse text origin options = .error (.of (.malformedReference (String.ofList (trim text.toList)))) := by
  simp only [parse, h]

/-- What a text of this kind is read as, if it has a name. -/
def reading (text origin : String) (options : ReferenceOptions) (kind : MemberKind) : Reference :=
  { kind, raw := String.ofList (trim text.toList), origin, visibility := options.visibility,
    file := options.file, line := options.line }

theorem parse_of_kind (hkind : kindOf? (trim text.toList) options.allowConstant = some kind) :
    parse text origin options =
      if (reading text origin options kind).name.isEmpty then
        .error (.of (.malformedReference (String.ofList (trim text.toList))))
      else .ok (reading text origin options kind) := by
  simp only [parse, hkind]
  rfl

theorem splitLast?_reading (options : ReferenceOptions)
    (hcut : splitLast? kind.separator.toList (trim text.toList) = some (front, rest)) :
    splitLast? (reading text origin options kind).kind.separator.toList
      (reading text origin options kind).raw.toList = some (front, rest) := by
  rw [reading, String.toList_ofList]
  exact hcut

/-- A text of a kind is read with the name and the owner that the last separator leaves, if there is a
name. -/
theorem parse_of_cut (hkind : kindOf? (trim text.toList) options.allowConstant = some kind)
    (hcut : splitLast? kind.separator.toList (trim text.toList) = some (front, rest)) (hrest : rest ≠ []) :
    ∃ r, parse text origin options = .ok r ∧ r.kind = kind ∧ r.raw = String.ofList (trim text.toList) ∧
      r.name = String.ofList rest ∧ r.owner?.getD "" = String.ofList front := by
  have hraw := splitLast?_reading origin options hcut
  have hname := name_of_splitLast? hraw
  refine ⟨reading text origin options kind, ?_, rfl, rfl, hname, owner?_of_splitLast? hraw⟩
  rw [parse_of_kind origin hkind, hname]
  exact if_neg (by simpa using hrest)

theorem parse_of_no_name (hkind : kindOf? (trim text.toList) options.allowConstant = some kind)
    (hcut : splitLast? kind.separator.toList (trim text.toList) = some (front, [])) :
    parse text origin options = .error (.of (.malformedReference (String.ofList (trim text.toList)))) := by
  rw [parse_of_kind origin hkind, name_of_splitLast? (splitLast?_reading origin options hcut)]
  rfl

/-- Without constants, what is read is a text with a mark, taken apart at the last one. -/
theorem marked_of_parse (hoptions : options.allowConstant = false) {r : Reference}
    (h : parse text origin options = .ok r) :
    ∃ mark, markOf? r.kind = some mark ∧ Marked mark (trim text.toList) ∧
      r.raw = String.ofList (trim text.toList) ∧
      r.owner?.getD "" ++ r.kind.symbol ++ r.name = String.ofList (trim text.toList) := by
  cases hkind : kindOf? (trim text.toList) options.allowConstant with
  | none =>
    rw [parse_of_kind_none origin hkind] at h
    cases h
  | some kind =>
    obtain ⟨mark, hmark, hspelled⟩ := kindOf?_eq_some (hoptions ▸ hkind)
    obtain ⟨front, rest, hcut, hlast⟩ := splitLast?_mark hspelled.2
    have hsep := separator_of_mark hmark
    rw [← hsep.1] at hcut
    by_cases hrest : rest = []
    · subst hrest
      rw [parse_of_no_name origin hkind hcut] at h
      cases h
    · obtain ⟨r', hr', rfl, hraw, hname, howner⟩ := parse_of_cut origin hkind hcut hrest
      obtain rfl : r' = r := Except.ok.inj (hr'.symm.trans h)
      refine ⟨mark, hmark, ⟨hspelled, mt hlast.mpr hrest⟩, hraw, ?_⟩
      have htext := eq_of_splitLast? hcut
      rw [howner, hname, ← String.toList_inj]
      simp only [String.toList_append, String.toList_ofList, hsep.2.1]
      rw [htext, hsep.1]

theorem parse_of_marked (kind : MemberKind) {mark : Char} (hmark : markOf? kind = some mark)
    (h : Marked mark (trim text.toList)) : ∃ r, parse text origin options = .ok r ∧ r.kind = kind := by
  obtain ⟨hspelled, hend⟩ := h
  obtain ⟨front, rest, hcut, hlast⟩ := splitLast?_mark hspelled.2
  rw [← (separator_of_mark hmark).1] at hcut
  have hkind := kindOf?_of_spelled hmark hspelled options.allowConstant
  obtain ⟨r, hr, hrkind, -⟩ := parse_of_cut origin hkind hcut (mt hlast.mp hend)
  exact ⟨r, hr, hrkind⟩

end

/-! ## References to members -/

/-- The full name of an owner: words with `::` between them. -/
structure OwnerName where
  words : List (List Char)
  words_ne_nil : words ≠ []
  word : ∀ w ∈ words, w ≠ [] ∧ ∀ c ∈ w, WordChar c

def OwnerName.chars (o : OwnerName) : List Char := [':', ':'].intercalate o.words

def OwnerName.text (o : OwnerName) : String := String.ofList o.chars

/-- The name of a member. -/
structure ReferredName where
  chars : List Char
  chars_ne_nil : chars ≠ []
  char : ∀ c ∈ chars, WordChar c ∨ c = '!' ∨ c = '?'

def ReferredName.text (n : ReferredName) : String := String.ofList n.chars

theorem OwnerName.chars_ne_nil (o : OwnerName) : o.chars ≠ [] := by
  obtain ⟨w, words, hwords⟩ := List.exists_cons_of_ne_nil o.words_ne_nil
  have hw : w ≠ [] := (o.word w (hwords ▸ List.mem_cons_self)).1
  rw [chars, hwords, intercalate_cons]
  exact List.append_ne_nil_of_left_ne_nil hw _

theorem OwnerName.pathChar (o : OwnerName) {c : Char} (hc : c ∈ o.chars) : PathChar c := by
  obtain ⟨w, words, hwords⟩ := List.exists_cons_of_ne_nil o.words_ne_nil
  have hword : ∀ v ∈ w :: words, c ∈ v → PathChar c :=
    fun v hv hcv => .inr (.inl ((o.word v (hwords ▸ hv)).2 c hcv))
  rw [chars, hwords, intercalate_cons, List.mem_append, List.mem_flatMap] at hc
  rcases hc with hc | ⟨v, hv, hc⟩
  · exact hword w List.mem_cons_self hc
  · rcases List.mem_append.mp hc with hc | hc
    · left
      simpa using hc
    · exact hword v (List.mem_cons_of_mem _ hv) hc

theorem ReferredName.pathChar (n : ReferredName) {c : Char} (hc : c ∈ n.chars) : PathChar c :=
  .inr (n.char c hc)

theorem ReferredName.colon_not_mem (n : ReferredName) : ':' ∉ n.chars := by
  intro hc
  rcases n.char ':' hc with h | h | h
  · exact absurd h (by decide)
  · exact absurd h (by decide)
  · exact absurd h (by decide)

section

variable (o : OwnerName) (n : ReferredName) (kind : MemberKind)

/-- The text of the reference to a member. -/
def memberChars : List Char := o.chars ++ kind.separator.toList ++ n.chars

theorem toList_member (visibility : Visibility) :
    (member o.text n.text kind visibility).raw.toList = memberChars o n kind := by
  simp [member, memberChars, OwnerName.text, ReferredName.text, String.toList_append]

theorem mem_memberChars {c : Char} (hc : c ∈ memberChars o n kind) :
    PathChar c ∨ markOf? kind = some c := by
  rcases List.mem_append.mp hc with hc | hc
  · rcases List.mem_append.mp hc with hc | hc
    · exact .inl (o.pathChar hc)
    · cases kind with
      | onInstance => exact .inr (congrArg some (List.mem_singleton.mp hc).symm)
      | onClass => exact .inr (congrArg some (List.mem_singleton.mp hc).symm)
      | constant =>
        refine .inl (.inl ?_)
        have hcolons : c ∈ [':', ':'] := hc
        simpa using hcolons
  · exact .inl (n.pathChar hc)

/-- No blank stands in the reference to a member. -/
theorem trim_memberChars : trim (memberChars o n kind) = memberChars o n kind := by
  refine trim_of_solid fun c hc => ?_
  rcases mem_memberChars o n kind hc with hpath | hmark
  · exact isBlank_of_pathChar hpath
  · rcases (separator_of_mark hmark).2.2 with rfl | rfl <;> decide

/-- The separator of the kind stands between owner and name for the last time. -/
theorem splitLast?_memberChars :
    splitLast? kind.separator.toList (memberChars o n kind) = some (o.chars, n.chars) := by
  -- a mark is no character of a name, and neither is the colon
  have hname : ∀ mark, mark = '#' ∨ mark = '.' → ¬[mark] <:+: [] ++ n.chars := by
    intro mark hmark hin
    exact not_pathChar_of_mark hmark (n.pathChar (hin.subset List.mem_cons_self))
  cases kind with
  | onInstance => exact splitLast?_append o.chars (hname '#' (.inl rfl))
  | onClass => exact splitLast?_append o.chars (hname '.' (.inr rfl))
  | constant =>
    show splitLast? [':', ':'] (o.chars ++ [':', ':'] ++ n.chars) = _
    refine splitLast?_append o.chars ?_
    rw [List.singleton_append, List.infix_cons_iff]
    rintro (⟨rest, hrest⟩ | hin)
    · have htail : ':' :: rest = n.chars := (List.cons.inj hrest).2
      exact n.colon_not_mem (htail ▸ List.mem_cons_self)
    · exact n.colon_not_mem (hin.subset List.mem_cons_self)

theorem kindOf?_memberChars :
    kindOf? (memberChars o n kind) (decide (kind = .constant)) = some kind := by
  cases hmark : markOf? kind with
  | some mark =>
    have hsep : mark ∈ memberChars o n kind := by
      refine List.mem_append_left _ (List.mem_append_right _ ?_)
      rw [(separator_of_mark hmark).1]
      exact List.mem_cons_self
    refine kindOf?_of_spelled hmark ⟨fun c hc => ?_, hsep⟩ _
    refine (mem_memberChars o n kind hc).imp_right fun h => ?_
    exact Option.some.inj (h.symm.trans hmark)
  | none =>
    have hkind : kind = .constant := by
      cases kind with
      | onInstance => cases hmark
      | onClass => cases hmark
      | constant => rfl
    subst hkind
    -- the tests for the other two kinds come first and fail
    have hpath : ∀ mark, mark = '#' ∨ mark = '.' → ¬Spelled mark (memberChars o n .constant) := by
      rintro mark hor ⟨-, hmem⟩
      exact not_pathChar_of_mark hor ((mem_memberChars o n .constant hmem).resolve_right nofun)
    have hne : (memberChars o n .constant).isEmpty = false := by
      simp [memberChars, o.chars_ne_nil]
    rw [kindOf?, if_neg (mt spelled_iff.mp (hpath '#' (.inl rfl))),
      if_neg (mt spelled_iff.mp (hpath '.' (.inr rfl))), hne]
    rfl

/-- The reference to a member is read as this member, with constants allowed just for a constant. -/
theorem parse_member (visibility : Visibility) (origin : String) {options : ReferenceOptions}
    (hoptions : options.allowConstant = decide (kind = .constant)) :
    ∃ r, parse (member o.text n.text kind visibility).raw origin options = .ok r ∧
      r.kind = kind ∧ r.name = n.text ∧ r.owner? = some o.text := by
  have htrim : trim (member o.text n.text kind visibility).raw.toList = memberChars o n kind := by
    rw [toList_member, trim_memberChars]
  have hkind := kindOf?_memberChars o n kind
  have hcut := splitLast?_memberChars o n kind
  rw [← htrim] at hkind hcut
  rw [← hoptions] at hkind
  obtain ⟨r, hr, hrkind, -, hname, howner⟩ := parse_of_cut origin hkind hcut n.chars_ne_nil
  refine ⟨r, hr, hrkind, hname, ?_⟩
  -- the owner is there because its name is not empty
  cases hr? : r.owner? with
  | none =>
    rw [hr?] at howner
    exact absurd (String.ofList_eq_empty_iff.mp howner.symm) o.chars_ne_nil
  | some owner =>
    rw [hr?] at howner
    exact congrArg some howner

end

/-- Whatever its owner is, a member of this name and kind is what the reference to it is read as. -/
def Referable (name : String) (kind : MemberKind) : Prop :=
  ∀ (o : OwnerName) (visibility : Visibility) (origin : String),
    ∃ r, parse (member o.text name kind visibility).raw origin = .ok r ∧
      r.kind = kind ∧ r.name = name ∧ r.owner? = some o.text

theorem ReferredName.referable (n : ReferredName) {kind : MemberKind} (hkind : kind ≠ .constant) :
    Referable n.text kind := fun o visibility origin =>
  parse_member o n kind visibility origin (decide_eq_false hkind).symm

/-- References are written in ASCII. -/
theorem Referable.ascii {name : String} {kind : MemberKind} (h : Referable name kind) :
    ∀ c ∈ name.toList, c.toNat < 128 := by
  intro c hc
  obtain ⟨o⟩ : Nonempty OwnerName := ⟨⟨[['A']], by decide, by simp [← wordChar_iff]⟩⟩
  obtain ⟨r, hr, -, rfl, -⟩ := h o .named ""
  obtain ⟨mark, hmark, hmarked, -, htext⟩ := marked_of_parse "" rfl hr
  have hin : c ∈ (r.owner?.getD "" ++ r.kind.symbol ++ r.name).toList := by
    rw [String.toList_append]
    exact List.mem_append_right _ hc
  rw [htext, String.toList_ofList] at hin
  rcases hmarked.1.1 c hin with hpath | rfl
  · exact ascii_of_pathChar hpath
  · rcases (separator_of_mark hmark).2.2 with rfl | rfl <;> decide

/-- References are read as they are written. The reference to a member, read with constants allowed just
for a constant, has the member's kind, name and owner. With no constants allowed, exactly the texts with a
mark that does not stand at the end are read, blanks around them apart; the reference is this text, and so
are its owner, the mark of its kind and its name put together. -/
theorem parse_grammar :
    (∀ (o : OwnerName) (n : ReferredName) (kind : MemberKind) (visibility : Visibility) (origin : String)
      (options : ReferenceOptions),
      ∃ r, parse (member o.text n.text kind visibility).raw origin
          { options with allowConstant := decide (kind = .constant) } = .ok r ∧
        r.kind = kind ∧ r.name = n.text ∧ r.owner? = some o.text) ∧
    ∀ (text origin : String) (options : ReferenceOptions), options.allowConstant = false →
      ((∃ r, parse text origin options = .ok r) ↔
        Marked '#' (trim text.toList) ∨ Marked '.' (trim text.toList)) ∧
      ∀ r, parse text origin options = .ok r → r.raw = String.ofList (trim text.toList) ∧
        r.owner?.getD "" ++ r.kind.symbol ++ r.name = String.ofList (trim text.toList) := by
  constructor
  · intro o n kind visibility origin options
    exact parse_member o n kind visibility origin rfl
  · intro text origin options hoptions
    refine ⟨⟨?_, ?_⟩, ?_⟩
    · rintro ⟨r, hr⟩
      obtain ⟨mark, hmark, hmarked, -⟩ := marked_of_parse origin hoptions hr
      rcases (separator_of_mark hmark).2.2 with rfl | rfl
      · exact .inl hmarked
      · exact .inr hmarked
    · rintro (h | h)
      · obtain ⟨r, hr, -⟩ := parse_of_marked origin .onInstance rfl h
        exact ⟨r, hr⟩
      · obtain ⟨r, hr, -⟩ := parse_of_marked origin .onClass rfl h
        exact ⟨r, hr⟩
    · intro r hr
      obtain ⟨_, _, _, hraw, htext⟩ := marked_of_parse origin hoptions hr
      exact ⟨hraw, htext⟩

def nestedOwner : OwnerName :=
  ⟨[['A'], ['B', '_', '2']], by decide, by simp [← wordChar_iff]⟩

def queryName : ReferredName := ⟨['x', '?'], by decide, by simp [← wordChar_iff]⟩

/-- A member of a nested subject whose name ends in a mark, and a text with blanks around it, a colon in
front and the mark of its kind twice. -/
theorem parse_grammar_nested :
    (∃ r, parse "A::B_2::x?" "C" { allowConstant := true } = .ok r ∧ r.kind = .constant ∧
      r.name = "x?" ∧ r.owner? = some "A::B_2") ∧
    Marked '#' (trim "\t:A#b#c! ".toList) ∧
    ∃ r, parse "\t:A#b#c! " "C" = .ok r ∧ r.raw = ":A#b#c!" ∧
      r.owner?.getD "" ++ r.kind.symbol ++ r.name = ":A#b#c!" := by
  have hraw : (member (OwnerName.text nestedOwner) (ReferredName.text queryName) .constant .named).raw =
      "A::B_2::x?" := by decide
  have htrim : String.ofList (trim "\t:A#b#c! ".toList) = ":A#b#c!" := by decide
  have hmarked : Marked '#' (trim "\t:A#b#c! ".toList) := by decide
  refine ⟨?_, hmarked, ?_⟩
  · rw [← hraw]
    exact parse_grammar.1 nestedOwner queryName .constant .named "C" {}
  · obtain ⟨hread, htext⟩ := parse_grammar.2 "\t:A#b#c! " "C" {} rfl
    obtain ⟨r, hr⟩ := hread.mpr (.inl hmarked)
    exact ⟨r, hr, htrim ▸ htext r hr⟩

end DocWeave.Reference
