import DocWeave.Proofs.Locator.Discovered
import DocWeave.Proofs.Site.Body

/-!
# Searching again at a place that was found

A reference that was located is tied to the place of its site, and may be located once more from there.
The second search ends at the same line of the same file, with the same comment. Its body is that of a
definition, also where the first search has ended at a declarative line, whose body is a statement. So
both searches give the same site if the first has ended at a definition, and else exactly if block and
statement end on the same line (`locate_placed`).
-/

namespace DocWeave

open DocWeave.Text

namespace Locator

variable {root : String} {registry : Registry} {r : Reference} {context : Subject} {σ : Session}
  {s : Site}

/-- A reference with a place is located there, in the shape of what it names. -/
theorem outcome_locate_placed (file : String) (line : Nat) :
    outcome σ (locate root registry (r.placed (some file) (some line)) context) =
      outcome σ (siteAt root file line (shapeOf r.kind)) := rfl

/-- The lines of a site's file, and the shape in which the site is cut out of them: that of a definition,
or a statement where a declarative line is taken in the place of the definition. -/
theorem locate_cut (hline : r.line = none) (hs : outcome σ (locate root registry r context) = .ok s) :
    ∃ found, linesIn root σ s.file = .ok found ∧
      ((outcome σ (findDefinition root r.name r.kind (registry.lineage context.name)) =
            .ok (some s) ∧
          Site.ofLines? s.file found s.line (shapeOf r.kind) = some s) ∨
        (r.kind = .onInstance ∧ Site.ofLines? s.file found s.line .statement = some s)) := by
  rcases locate_cases hline hs with hdef | ⟨hkind, hdecl, _⟩
  · obtain ⟨_, _, file, line, found, _, _, hfound, hcut⟩ := findDefinition_some hdef
    obtain rfl := Site.ofLines?_file hcut
    obtain rfl := Site.ofLines?_line hcut
    exact ⟨found, hfound, .inl ⟨hdef, hcut⟩⟩
  · obtain ⟨_, _, _, file, line, found, _, _, hfound, hcut⟩ := findDeclarative_some hdecl
    obtain rfl := Site.ofLines?_file hcut
    obtain rfl := Site.ofLines?_line hcut
    exact ⟨found, hfound, .inr ⟨hkind, hcut⟩⟩

/-- **Anchoring.** A reference that was located and is tied to the place of its site is located again,
in every session with the same views. File, line, comment and the line of the comment are those of the
first site. The whole site is, if and only if the first search has ended at a definition, or else the
block and the statement that begin on this line end on the same line. -/
theorem locate_placed (hline : r.line = none)
    (hs : outcome σ (locate root registry r context) = .ok s) :
    ∃ t, (∀ τ, Alike root σ τ →
        outcome τ (locate root registry (r.placed (some s.file) (some s.line)) context) = .ok t) ∧
      t = { s with body := t.body } ∧
      (t = s ↔
        outcome σ (findDefinition root r.name r.kind (registry.lineage context.name)) =
            .ok (some s) ∨
          ∃ found, linesIn root σ s.file = .ok found ∧
            Outline.blockEnd found (s.line - 1) = Outline.statementEnd found (s.line - 1)) := by
  obtain ⟨found, hfound, hcut⟩ := locate_cut hline hs
  -- what is cut out in one of the sessions is cut out in all that are alike
  have hagain : ∀ t, Site.ofLines? s.file found s.line (shapeOf r.kind) = some t →
      ∀ τ, Alike root σ τ →
        outcome τ (locate root registry (r.placed (some s.file) (some s.line)) context) = .ok t := by
    intro t ht τ hτ
    rw [outcome_locate_placed, outcome_siteAt]
    exact ⟨found, (hτ.lines s.file).symm.trans hfound, ht⟩
  rcases hcut with ⟨hdef, hcut⟩ | ⟨hkind, hcut⟩
  · exact ⟨s, hagain s hcut, rfl, fun _ => .inl hdef, fun _ => rfl⟩
  · obtain ⟨t, ht, hbody, hsame⟩ := Site.ofLines?_reshape hcut (shapeOf r.kind)
    refine ⟨t, hagain t ht, hbody, ?_, ?_⟩
    · intro heq
      have hends := hsame.mp heq
      rw [hkind] at hends
      exact .inr ⟨found, hfound, hends⟩
    · rintro (hdef | ⟨found', hfound', hends⟩)
      · obtain ⟨_, _, file, line, found', _, _, hfound', hcut'⟩ := findDefinition_some hdef
        obtain rfl := Site.ofLines?_file hcut'
        obtain rfl := Site.ofLines?_line hcut'
        cases hfound.symm.trans hfound'
        exact Option.some.inj (ht.symm.trans hcut')
      · cases hfound.symm.trans hfound'
        refine hsame.mpr ?_
        rw [hkind]
        exact hends

/-! ## A declared member that is also defined -/

/-- A class whose member `owner` is declared with a comment and defined without one. -/
def ownerFiles : FileTree :=
  { files := [(["a.rb"],
      "class A\n  # The owner.\n  attribute :owner\n\n  def owner\n    @owner\n  end\n\n" ++
        "  # The sum.\n  def total\n    1\n  end\nend\n")] }

def ownerSubject : Subject where
  name := "A"
  file := some "a.rb"
  line := some 1
  members := [{ name := "owner", kind := .onInstance, line := some 5 },
    { name := "total", kind := .onInstance, line := some 10 }]

/-- The site of the declaration. -/
def ownerSite : Site where
  file := "a.rb"
  line := 3
  comment := "The owner.\n"
  commentLine := 2
  body := "  attribute :owner"

def totalSite : Site where
  file := "a.rb"
  line := 10
  comment := "The sum.\n"
  commentLine := 9
  body := "  def total\n    1\n  end"

theorem linesIn_owner : linesIn "." { files := ownerFiles } "a.rb" = .ok
    (["class A", "  # The owner.", "  attribute :owner", "", "  def owner", "    @owner", "  end", "",
      "  # The sum.", "  def total", "    1", "  end", "end"].map String.toList) :=
  Stateful.eq_ok_of_toOption (by decide +kernel)

theorem sketch_owner :
    sketch "owner" .onInstance ownerSubject = { name := "A", file := some "a.rb", line := some 5 } := by
  decide

theorem sketch_total :
    sketch "total" .onInstance ownerSubject = { name := "A", file := some "a.rb", line := some 10 } := by
  decide

/-- A member that is found at its definition is found there again. -/
theorem locate_placed_total :
    (Reference.member "A" "total" .onInstance .named).line = none ∧
      outcome { files := ownerFiles } (locate "." ⟨[ownerSubject]⟩
        (.member "A" "total" .onInstance .named) ownerSubject) = .ok totalSite ∧
      outcome { files := ownerFiles } (locate "." ⟨[ownerSubject]⟩
        ((Reference.member "A" "total" .onInstance .named).placed (some "a.rb") (some 10))
        ownerSubject) = .ok totalSite := by
  have hname : (Reference.member "A" "total" .onInstance .named).name = "total" := by decide
  have hdef : outcome { files := ownerFiles } (findDefinition "."
      (Reference.member "A" "total" .onInstance .named).name .onInstance
      (Registry.lineage ⟨[ownerSubject]⟩ ownerSubject.name)) = .ok (some totalSite) := by
    rw [hname]
    exact sketch_findDefinition sketch_total (get?_sketched [] sketch_total) (by decide)
      (outcome_siteAt.mpr ⟨_, linesIn_owner, by decide +kernel⟩)
  have hs := outcome_locate_definition (r := .member "A" "total" .onInstance .named) rfl hdef
    (.inl (by decide +kernel))
  obtain ⟨t, hagain, -, hsame⟩ := locate_placed rfl hs
  obtain rfl : t = totalSite := hsame.mpr (.inl hdef)
  exact ⟨rfl, hs, hagain _ (Alike.refl _ _)⟩

/-- A member that is found at its declaration is not found as it was: the second search takes the
declaration for the head of a block, which goes on to the end of the method below. -/
theorem not_locate_placed_owner :
    (Reference.member "A" "owner" .onInstance .named).line = none ∧
      outcome { files := ownerFiles } (locate "." ⟨[ownerSubject]⟩
        (.member "A" "owner" .onInstance .named) ownerSubject) = .ok ownerSite ∧
      outcome { files := ownerFiles } (locate "." ⟨[ownerSubject]⟩
        ((Reference.member "A" "owner" .onInstance .named).placed (some ownerSite.file)
          (some ownerSite.line)) ownerSubject) =
        .ok { ownerSite with body := "  attribute :owner\n\n  def owner\n    @owner\n  end" } ∧
      { ownerSite with body := "  attribute :owner\n\n  def owner\n    @owner\n  end" } ≠ ownerSite := by
  have hname : (Reference.member "A" "owner" .onInstance .named).name = "owner" := by decide
  have hget := get?_sketched [] sketch_owner
  refine ⟨rfl, ?_, ?_, by decide⟩
  · refine outcome_locate_declarative rfl rfl
      (some ⟨"a.rb", 5, "", 5, "  def owner\n    @owner\n  end"⟩) ?_ (by decide) ?_
    · rw [hname]
      exact sketch_findDefinition sketch_owner hget (by decide)
        (outcome_siteAt.mpr ⟨_, linesIn_owner, by decide +kernel⟩)
    · rw [hname]
      refine sketch_findDeclarative sketch_owner hget 3 ?_
        (outcome_siteAt.mpr ⟨_, linesIn_owner, by decide +kernel⟩) (by decide +kernel)
      rw [namedLine, linesIn_owner]
      decide +kernel
  · rw [outcome_locate_placed]
    exact outcome_siteAt.mpr ⟨_, linesIn_owner, by decide +kernel⟩

end Locator

end DocWeave
