import DocWeave.Proofs.Page.EntryOrder
import Mathlib.Data.List.DropRight
import Mathlib.Data.List.Infix
import Mathlib.Tactic.IntervalCases

/-!
# The shape of a page

A page is refused exactly when some entry with content has no section, and it is empty exactly when it
has nothing to show. Every other page begins with the mark of its title, has no two empty lines in a row
and ends with one, whatever line ends its parts begin or end with (`assemble_shape`): squeezing leaves at
most two line ends in a row (`not_infix_squeeze`), and what is put behind the page comes after its last
line ends are gone.
-/

namespace DocWeave.Page

open DocWeave.Text

/-! ## Line ends -/

/-- Squeezing leaves no three line ends in a row, together with those that were just passed. -/
theorem not_infix_squeezeFrom (s : List Char) {seen : Nat} (hseen : seen ≤ 2) :
    ¬ ['\n', '\n', '\n'] <:+: List.replicate seen '\n' ++ squeezeFrom seen s := by
  induction s generalizing seen with
  | nil =>
    intro h
    have hlength := h.length_le
    simp only [squeezeFrom, List.append_nil, List.length_replicate, List.length_cons,
      List.length_nil] at hlength
    omega
  | cons c s ih =>
    rw [squeezeFrom]
    split
    · next hc =>
      subst hc
      split
      · next hlt =>
        -- the line end joins those that were passed
        have hnext := @ih (seen + 1) (by omega)
        rwa [List.replicate_succ', List.append_assoc, List.singleton_append] at hnext
      · exact ih hseen
    · next hc =>
      -- another character breaks the row
      have hrest := @ih 0 (by omega)
      rw [List.replicate_zero, List.nil_append] at hrest
      interval_cases seen <;>
        simpa [List.infix_cons_iff, List.cons_prefix_cons, List.replicate_succ, Ne.symm hc] using hrest

theorem not_infix_squeeze (s : List Char) : ¬ ['\n', '\n', '\n'] <:+: squeeze s :=
  @not_infix_squeezeFrom s 0 (by omega)

theorem isPrefix_dropLineEnds (s : List Char) : dropLineEnds s <+: s := List.rdropWhile_prefix _ s

theorem getLast?_dropLineEnds (s : List Char) : (dropLineEnds s).getLast? ≠ some '\n' := by
  intro h
  have hne : dropLineEnds s ≠ [] := by
    rintro hnil
    rw [hnil] at h
    cases h
  rw [List.getLast?_eq_some_getLast hne, Option.some.injEq] at h
  exact List.rdropWhile_last_not _ s hne (beq_iff_eq.mpr h)

/-- What ends with another character is kept as a whole when line ends behind it are dropped. -/
theorem dropLineEnds_append {lead : List Char} (h : dropLineEnds lead = lead) (s : List Char) :
    dropLineEnds (lead ++ s) = lead ++ dropLineEnds s := by
  rw [dropLineEnds, List.reverse_append, List.dropWhile_append]
  split
  · next hempty =>
    rw [← dropLineEnds, h, dropLineEnds, List.isEmpty_iff.mp hempty, List.reverse_nil, List.append_nil]
  · rw [List.reverse_append, List.reverse_reverse, ← dropLineEnds]

/-- A text without three line ends in a row that does not end with a line end can be given two. -/
theorem not_infix_append_lineEnds {body : List Char} (h : ¬ ['\n', '\n', '\n'] <:+: body)
    (hlast : body.getLast? ≠ some '\n') : ¬ ['\n', '\n', '\n'] <:+: body ++ ['\n', '\n'] := by
  have hsplit : body ++ ['\n', '\n'] = (body ++ ['\n']) ++ ['\n'] := by simp
  rw [hsplit, List.infix_concat_iff, List.infix_concat_iff, ← hsplit, not_or, not_or]
  refine ⟨?_, ?_, h⟩
  · rintro ⟨front, hfront⟩
    have hbody : front ++ ['\n'] = body :=
      List.append_cancel_right (by rw [List.append_assoc]; exact hfront)
    exact hlast (by rw [← hbody, List.getLast?_concat])
  · rintro ⟨front, hfront⟩
    have hbody : (front ++ ['\n']) ++ ['\n'] = body :=
      List.append_cancel_right (by rw [List.append_assoc, List.append_assoc]; exact hfront)
    exact hlast (by rw [← hbody, List.getLast?_concat])

/-- How every page that is not empty looks. -/
structure IsShaped (page : List Char) : Prop where
  heading : "# ".toList <+: page
  spacing : ¬ ['\n', '\n', '\n'] <:+: page
  ending : ∃ body, page = body ++ ['\n', '\n'] ∧ body.getLast? ≠ some '\n'

theorem isShaped_closed (rest : List Char) :
    IsShaped (dropLineEnds (squeeze ("# ".toList ++ rest)) ++ ['\n', '\n']) := by
  have hspacing : ¬ ['\n', '\n', '\n'] <:+: dropLineEnds (squeeze ("# ".toList ++ rest)) := fun h =>
    not_infix_squeeze _ (h.trans (isPrefix_dropLineEnds _).isInfix)
  have hlast := getLast?_dropLineEnds (squeeze ("# ".toList ++ rest))
  refine ⟨?_, not_infix_append_lineEnds hspacing hlast, _, rfl, hlast⟩
  have hheading : squeeze ("# ".toList ++ rest) = "# ".toList ++ squeeze rest := rfl
  rw [hheading, dropLineEnds_append (by decide), List.append_assoc]
  exact List.prefix_append _ _

/-! ## What is refused and what is empty -/

variable {layout : Layout} {entries : Entries}

theorem mem_unhandledKinds_iff {sections : List Section} {kind : MemberKind} :
    kind ∈ unhandledKinds sections entries ↔
      ∃ p ∈ entries, p.1.kind = kind ∧ p.2.isBlank = false ∧ ∀ s ∈ sections, s.kind ≠ kind := by
  have hall : kind ∈ [MemberKind.onInstance, .onClass, .constant] := by cases kind <;> decide
  simp only [unhandledKinds, List.mem_filter, hall, true_and, Bool.and_eq_true, Bool.not_eq_true',
    List.any_eq_false, List.any_eq_true, beq_iff_eq]
  grind

theorem entriesOf_eq_nil_iff {kind : MemberKind} :
    entriesOf entries kind = [] ↔ ∀ p ∈ entries, p.1.kind = kind → p.2.isBlank = true := by
  rw [List.eq_nil_iff_forall_not_mem]
  constructor
  · rintro h ⟨⟨kind', name⟩, e⟩ hmem rfl
    have hno := h (name, e)
    rw [mem_entriesOf, not_and, Bool.not_eq_false] at hno
    exact hno hmem
  · rintro h ⟨name, e⟩ hmem
    obtain ⟨hentry, hblank⟩ := mem_entriesOf.mp hmem
    rw [h _ hentry rfl] at hblank
    cases hblank

/-- No section has entries exactly when all entries of the kinds that are not done are blank. -/
theorem groupsFrom_empty_iff {done : List MemberKind} {sections : List Section} :
    (∀ g ∈ groupsFrom entries done sections, g.2 = []) ↔
      ∀ s ∈ sections, s.kind ∉ done → entriesOf entries s.kind = [] := by
  induction sections generalizing done with
  | nil => simp [groupsFrom]
  | cons s rest ih =>
    rw [groupsFrom, List.forall_mem_cons, List.forall_mem_cons, ih]
    have hfirst : (if done.contains s.kind then [] else entriesOf entries s.kind) = [] ↔
        (s.kind ∉ done → entriesOf entries s.kind = []) := by
      by_cases hdone : s.kind ∈ done <;> simp [hdone]
    rw [hfirst]
    refine and_congr_right fun hs => forall₂_congr fun t _ => ?_
    -- a section of the kind at hand has nothing more to show
    rw [List.mem_cons, not_or]
    constructor
    · intro h hdone
      by_cases hkind : t.kind = s.kind
      · rw [hkind] at hdone ⊢
        exact hs hdone
      · exact h ⟨hkind, hdone⟩
    · exact fun h hnew => h hnew.2

/-- Each kind of entries with content has a section. -/
def Handled (layout : Layout) (entries : Entries) : Prop :=
  ∀ p ∈ entries, p.2.isBlank = false → ∃ s ∈ layout.sections, s.kind = p.1.kind

theorem unhandledKinds_eq_nil_iff :
    unhandledKinds layout.sections entries = [] ↔ Handled layout entries := by
  rw [List.eq_nil_iff_forall_not_mem]
  simp only [mem_unhandledKinds_iff, Handled]
  grind

/-- The page has nothing to show: no entry with content and no comment. -/
def Layout.IsBare (layout : Layout) (entries : Entries) : Prop :=
  (∀ p ∈ entries, p.2.isBlank = true) ∧ ∀ c ∈ layout.comment, isBlankText c.toList = true

theorem Layout.comment?_eq_none_iff :
    layout.comment? = none ↔ ∀ c ∈ layout.comment, isBlankText c.toList = true := by
  rw [Layout.comment?, Option.filter_eq_none_iff]
  simp

theorem isBare_iff (h : Handled layout entries) :
    layout.IsBare entries ↔
      layout.comment? = none ∧ ∀ g ∈ groupsFrom entries [] layout.sections, g.2 = [] := by
  rw [groupsFrom_empty_iff, Layout.comment?_eq_none_iff, Layout.IsBare, and_comm]
  refine and_congr_right fun _ => ?_
  simp only [entriesOf_eq_nil_iff, List.not_mem_nil, not_false_eq_true, true_imp_iff]
  constructor
  · exact fun hblank s _ p hp _ => hblank p hp
  · intro hblank p hp
    by_contra hcontent
    obtain ⟨s, hs, hkind⟩ := h p hp (by simpa using hcontent)
    exact hcontent (hblank s hs p hp hkind.symm)

/-- A page whose kinds are handled is empty or closed off behind its title. -/
theorem assemble_of_handled (h : Handled layout entries) :
    (layout.IsBare entries ∧ assemble layout entries = .ok "") ∨
    (¬ layout.IsBare entries ∧ ∃ rest, assemble layout entries =
      .ok (String.ofList (dropLineEnds (squeeze ("# ".toList ++ rest)) ++ ['\n', '\n']))) := by
  have hbodies : (sectionTexts entries [] layout.sections).all List.isEmpty = true ↔
      ∀ g ∈ groupsFrom entries [] layout.sections, g.2 = [] := by
    simp [sectionTexts_eq, sectionText_eq_nil_iff]
  rw [assemble, unhandledKinds_eq_nil_iff.mpr h, ← Layout.comment?_eq_bind]
  dsimp only
  split
  · next hbare =>
    rw [Bool.and_eq_true, hbodies, Option.isNone_iff_eq_none] at hbare
    exact .inl ⟨(isBare_iff h).mpr hbare, rfl⟩
  · next hbare =>
    rw [Bool.and_eq_true, hbodies, Option.isNone_iff_eq_none, ← isBare_iff h] at hbare
    refine .inr ⟨hbare, ?_⟩
    -- the title is not empty, so it stays in front
    rw [List.filter_cons_of_pos (by simp), intercalate_cons, List.append_assoc]
    exact ⟨_, rfl⟩

theorem assemble_of_not_handled (h : ¬ Handled layout entries) :
    ∃ kinds, assemble layout entries = .error (.of (.unrecognizedKinds kinds)) := by
  rw [← unhandledKinds_eq_nil_iff] at h
  obtain ⟨kind, kinds, hkinds⟩ := List.exists_cons_of_ne_nil h
  exact ⟨_, by rw [assemble, hkinds]⟩

/-- A page is refused exactly when some entry with content is of a kind that has no section. Otherwise it
is empty exactly when no entry and no comment has content; and a page that is not empty begins with the
mark of its title, has no three line ends in a row and ends with two. -/
theorem assemble_shape (layout : Layout) (entries : Entries) :
    ((∃ kinds, assemble layout entries = .error (.of (.unrecognizedKinds kinds))) ↔
      ∃ p ∈ entries, p.2.isBlank = false ∧ ∀ s ∈ layout.sections, s.kind ≠ p.1.kind) ∧
    ((¬ ∃ kinds, assemble layout entries = .error (.of (.unrecognizedKinds kinds))) →
      ∃ page, assemble layout entries = .ok page ∧
        (page = "" ↔ (∀ p ∈ entries, p.2.isBlank = true) ∧
          ∀ c ∈ layout.comment, isBlankText c.toList = true) ∧
        (page ≠ "" → IsShaped page.toList)) := by
  have hrefused : (∃ kinds, assemble layout entries = .error (.of (.unrecognizedKinds kinds))) ↔
      ¬ Handled layout entries := by
    refine ⟨?_, assemble_of_not_handled⟩
    rintro ⟨kinds, hkinds⟩ hhandled
    rcases assemble_of_handled hhandled with ⟨-, hpage⟩ | ⟨-, rest, hpage⟩
    · rw [hpage] at hkinds
      cases hkinds
    · rw [hpage] at hkinds
      cases hkinds
  rw [hrefused, not_not]
  refine ⟨by simp [Handled], fun hhandled => ?_⟩
  rcases assemble_of_handled hhandled with ⟨hbare, hpage⟩ | ⟨hbare, rest, hpage⟩
  · exact ⟨"", hpage, iff_of_true rfl hbare, fun hne => absurd rfl hne⟩
  · refine ⟨_, hpage, iff_of_false ?_ hbare, fun _ => ?_⟩
    · intro hempty
      have hnil := congrArg String.toList hempty
      simp at hnil
    · rw [String.toList_ofList]
      exact isShaped_closed rest

end DocWeave.Page
