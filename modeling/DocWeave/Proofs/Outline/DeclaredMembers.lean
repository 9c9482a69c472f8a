import DocWeave.Proofs.Outline.Reached

/-!
# Members that are declared

A declarative line gives each of its names to the innermost open declaration as a member of the instances,
unless some member has the name already. That member may belong to the subject itself: then there is no
member of the instances, and only the definition of a method can still bring one. What comes into a
declaration, and by which line, is said by `Brings`, and a name that is declared is a member of the
instances in the end exactly under these conditions (`declared_member_iff`).
-/

namespace DocWeave.Outline

open DocWeave.Text

/-! ## What a line adds -/

theorem Scan.getElem?_update_self {s : Scan} {i : Nat} {d : Declaration} {f : Declaration → Declaration}
    (hd : s.found[i]? = some d) : (s.update i f).found[i]? = some (f d) := by
  simp [update, hd]

/-- Declared names are added as members of the instances where no member has the name. -/
theorem mem_keys_foldl_addDeclared {line : Nat} {name : String} (names : List String)
    (members : List Member) :
    (name, .onInstance) ∈ (names.foldl (Scan.addDeclared line) members).map Member.key ↔
      (name, .onInstance) ∈ members.map Member.key ∨
        (name ∈ names ∧ ∀ x ∈ members, x.name ≠ name) := by
  induction names generalizing members with
  | nil => simp
  | cons first names ih =>
    rw [List.foldl_cons, ih]
    unfold Scan.addDeclared
    split
    · next hknown =>
      obtain ⟨x, hx, hname⟩ := List.any_eq_true.mp hknown
      obtain rfl : x.name = first := beq_iff_eq.mp hname
      -- the first name is not free, so it makes no difference
      have hfree : (∀ y ∈ members, y.name ≠ name) → name ≠ x.name := fun h hsame => h x hx hsame.symm
      rw [List.mem_cons]
      refine or_congr_right ⟨fun h => ⟨.inr h.1, h.2⟩, fun h => ⟨?_, h.2⟩⟩
      exact h.1.resolve_left (hfree h.2)
    · next hnew =>
      have hfree : ∀ x ∈ members, x.name ≠ first := fun x hx hname =>
        hnew (List.any_eq_true.mpr ⟨x, hx, beq_iff_eq.mpr hname⟩)
      generalize hadded : ({ name := first, kind := .onInstance, line := some line } : Member) = added
      have hkey : added.key = (first, .onInstance) := hadded ▸ rfl
      rw [List.map_append, List.mem_append, List.map_singleton, List.mem_singleton, hkey]
      by_cases hname : name = first
      · subst hname
        exact ⟨fun _ => .inr ⟨List.mem_cons_self, hfree⟩, fun _ => .inl (.inr rfl)⟩
      · -- the new member has another name
        have hother : (name, MemberKind.onInstance) ≠ (first, .onInstance) := fun hsame =>
          hname (Prod.mk.inj hsame).1
        have hadds : added.name ≠ name := fun hsame => hname (hsame ▸ (Prod.mk.inj hkey).1)
        rw [or_iff_left hother, List.forall_mem_append, List.forall_mem_singleton, and_iff_left hadds,
          List.mem_cons, or_iff_right hname]

/-- A line brings a member of this name and kind into the declaration of number `i`, which is `d`: as the
head of a method, or as a line that declares a name that no member of `d` has. -/
inductive Brings (s : Scan) (raw : List Char) (i : Nat) (d : Declaration) : String × MemberKind → Prop
  | method (head : MethodHead) : s.current? = some i → methodHead? (trim raw) = some head →
      head.name.toList.getLast? ≠ some '=' →
      Brings s raw i d (head.name, if head.onSelf || s.inSingleton then .onClass else .onInstance)
  | declared (word : String) (args : List Char) (name : String) : s.current? = some i →
      declaration? (trim raw) = some (word, args) → name ∈ declaredNames word args →
      (∀ x ∈ d.members, x.name ≠ name) → Brings s raw i d (name, .onInstance)

/-- A member that a line adds to a declaration is one that it brings. -/
theorem Scan.Adds.brings {s : Scan} {n i : Nat} {raw : List Char} {g : List Member → List Member}
    (h : s.Adds n raw i g) (d : Declaration) {key : String × MemberKind}
    (hkey : key ∈ (g d.members).map Member.key) : key ∈ d.keys ∨ Brings s raw i d key := by
  cases h with
  | nothing => exact .inl hkey
  | method head howner hhead hassigns =>
    refine (mem_keys_upsertMember.mp hkey).imp_right fun hnew => ?_
    rw [hnew]
    exact .method head howner hhead hassigns
  | declared word args howner hargs =>
    obtain ⟨x, hx, rfl⟩ := List.mem_map.mp hkey
    rcases mem_foldl_addDeclared hx with hold | ⟨hname, hkind, -⟩
    · exact .inl (List.mem_map_of_mem hold)
    · have hxkey : x.key = (x.name, .onInstance) := Prod.ext rfl hkind
      rw [hxkey] at hkey ⊢
      refine ((mem_keys_foldl_addDeclared _ _).mp hkey).imp_right fun hnew => ?_
      exact .declared word args x.name howner hargs hname hnew.2

/-- A member behind a line was there before, or the line has brought it. -/
theorem Step.mem_keys {s s' : Scan} {n skipped : Nat} {raw : List Char} {rest : List (List Char)}
    (h : Step s n raw rest s' skipped) {i : Nat} {d' : Declaration} (hd : s'.found[i]? = some d')
    {key : String × MemberKind} (hkey : key ∈ d'.keys) :
    ∃ d, s.found[i]? = some d ∧ (key ∈ d.keys ∨ Brings s raw i d key) := by
  have hfinds := h.finds
  generalize s'.found = found at hfinds hd
  cases hfinds with
  | same => exact ⟨d', hd, .inl hkey⟩
  | opened head e _ _ _ hmembers =>
    rcases Scan.getElem?_concat hd with hd | ⟨-, rfl⟩
    · exact ⟨d', hd, .inl hkey⟩
    · rw [Declaration.keys, hmembers] at hkey
      cases hkey
  | changed owner f g hf hadds =>
    obtain ⟨d, hfound, rfl⟩ := Scan.getElem?_update (s := s) hd
    refine ⟨d, hfound, ?_⟩
    split at hkey
    · next howner =>
      subst howner
      rw [Declaration.keys, (hf d).2.2] at hkey
      exact hadds.brings d hkey
    · exact .inl hkey

/-! ## Until the end -/

variable {all : List (List Char)} {s : Scan} {n owner : Nat} {raw : List Char} {rest : List (List Char)}
  {name : String}

/-- Behind the first `n` lines the scan comes to the head of a method of this name, which is defined for
the instances of the declaration of number `owner`. -/
def DefinedBehind (all : List (List Char)) (n owner : Nat) (name : String) : Prop :=
  ∃ s m raw rest, Reaches all s m ∧ n < m ∧ all.drop m = raw :: rest ∧ s.current? = some owner ∧
    s.inSingleton = false ∧ methodHead? (trim raw) = some ⟨name, false⟩ ∧
    name.toList.getLast? ≠ some '='

/-- A method that is defined on the way is a member in the end. -/
theorem DefinedBehind.mem_keys (h : DefinedBehind all n owner name) :
    ∃ d, (ofLines all)[owner]? = some d ∧ (name, .onInstance) ∈ d.keys := by
  obtain ⟨s, m, raw, rest, hreach, -, hlines, howner, hsingle, hhead, hassigns⟩ := h
  obtain ⟨d, hd⟩ := hreach.exists_current howner
  have hnext := hreach.next hlines
  rw [Scan.next_define howner hhead] at hnext
  have hdefine : s.define owner ⟨name, false⟩ (m + 1) = s.update owner fun d =>
      { d with members := upsertMember ⟨name, .onInstance, some (m + 1), none⟩ d.members } := by
    simp [Scan.define, hassigns, hsingle]
  rw [hdefine] at hnext
  obtain ⟨d', hd', hkeeps⟩ := hnext.keeps (Scan.getElem?_update_self hd)
  exact ⟨d', hd', hkeeps.keys (mem_keys_upsertMember.mpr (.inr rfl))⟩

/-- As long as a member of the subject itself has the name, only a method brings one of the instances. -/
theorem definedBehind_of_mem_keys (h : Reaches all s (n + 1)) {d : Declaration}
    (hd : s.found[owner]? = some d) (hclass : (name, .onClass) ∈ d.keys)
    (hnone : (name, .onInstance) ∉ d.keys) {d' : Declaration} (hd' : (ofLines all)[owner]? = some d')
    (hkey : (name, .onInstance) ∈ d'.keys) : DefinedBehind all n owner name := by
  obtain ⟨t, _, -, ⟨-, e, he, -, hbehind⟩, hfound⟩ := h.induction
    (P := fun t m => n < m ∧ ∃ e, t.found[owner]? = some e ∧ (name, .onClass) ∈ e.keys ∧
      ((name, .onInstance) ∈ e.keys → DefinedBehind all n owner name))
    ⟨Nat.lt_succ_self n, d, hd, hclass, fun hin => absurd hin hnone⟩
    fun t m raw rest hreach hlines ⟨hlt, e, he, hclass, hbehind⟩ => by
      have hstep := step_next t (m + 1) raw rest
      obtain ⟨e', he', hkeeps⟩ := hstep.keeps he
      refine ⟨by omega, e', he', hkeeps.keys hclass, fun hin => ?_⟩
      obtain ⟨f, hf, hknown | hbrought⟩ := hstep.mem_keys he' hin
      · cases he.symm.trans hf
        exact hbehind hknown
      · cases he.symm.trans hf
        generalize hnew : (name, MemberKind.onInstance) = key at hbrought
        cases hbrought with
        | method head howner hhead hassigns =>
          obtain ⟨hname, hkind⟩ := Prod.mk.inj hnew
          have hflags : head.onSelf = false ∧ t.inSingleton = false := by
            split at hkind
            · cases hkind
            · next hflags => simpa using hflags
          refine ⟨t, m, raw, rest, hreach, hlt, hlines, howner, hflags.2, ?_, hname ▸ hassigns⟩
          rw [hhead, hname, ← hflags.1]
        | declared word args other _ _ _ hfree =>
          obtain ⟨x, hx, hxkey⟩ := List.mem_map.mp hclass
          cases (Prod.mk.inj hnew).1
          exact absurd (Prod.mk.inj hxkey).1 (hfree x hx)
  rw [hfound] at hd'
  cases he.symm.trans hd'
  exact hbehind hkey

/-- The members of declarations are members of the instances or of the subject itself. -/
theorem Reaches.kind (h : Reaches all s n) {d : Declaration} (hd : d ∈ s.found) {x : Member}
    (hx : x ∈ d.members) : x.kind ≠ .constant := by
  obtain ⟨i, hi⟩ := List.getElem?_of_mem hd
  obtain ⟨d', hd', hkeeps⟩ := h.keeps hi
  obtain ⟨y, hy, hkey⟩ := List.mem_map.mp (hkeeps.keys (List.mem_map_of_mem hx))
  rw [← show y.kind = x.kind from (Prod.mk.inj hkey).2]
  exact ofLines_kind (List.mem_of_getElem? hd') hy

/-- **Declared members.** A name that a declarative line inside a declaration declares is the name of a
member of the instances in the end if and only if the line does not find a member of the subject itself
under this name, without one of the instances beside it, or else a method of the name is defined behind
the line. -/
theorem declared_member_iff {source : String} (hreach : Reaches (lines source.toList) s n)
    (hline : (lines source.toList).drop n = raw :: rest) (howner : s.current? = some owner)
    {word : String} {args : List Char} (hdecl : declaration? (trim raw) = some (word, args))
    (hname : name ∈ declaredNames word args) :
    ∃ d d', s.found[owner]? = some d ∧ (ofSource source)[owner]? = some d' ∧ d'.name = d.name ∧
      ((name, .onInstance) ∈ d'.keys ↔
        ((name, .onClass) ∈ d.keys → (name, .onInstance) ∈ d.keys) ∨
          DefinedBehind (lines source.toList) n owner name) := by
  obtain ⟨d, hd⟩ := hreach.exists_current howner
  have hnext := hreach.next hline
  rw [Scan.next_declareMembers howner hdecl] at hnext
  have hupdated := Scan.getElem?_update_self (f := fun d => { d with
    members := (declaredNames word args).foldl (Scan.addDeclared (n + 1)) d.members }) hd
  have hbehind : (name, .onInstance) ∈ ((declaredNames word args).foldl (Scan.addDeclared (n + 1))
      d.members).map Member.key ↔ ((name, .onClass) ∈ d.keys → (name, .onInstance) ∈ d.keys) := by
    rw [mem_keys_foldl_addDeclared]
    constructor
    · rintro (hthere | ⟨-, hfree⟩) hclass
      · exact hthere
      · obtain ⟨x, hx, hkey⟩ := List.mem_map.mp hclass
        exact absurd (Prod.mk.inj hkey).1 (hfree x hx)
    · intro himp
      by_cases hthere : (name, .onInstance) ∈ d.keys
      · exact .inl hthere
      · refine .inr ⟨hname, fun x hx hxname => ?_⟩
        have hxkey : x.key ∈ d.keys := List.mem_map_of_mem hx
        cases hkind : x.kind with
        | onInstance => exact hthere (by rwa [Member.key, hxname, hkind] at hxkey)
        | onClass => exact hthere (himp (by rwa [Member.key, hxname, hkind] at hxkey))
        | constant => exact hreach.kind (List.mem_of_getElem? hd) hx hkind
  obtain ⟨d', hd', hkeeps⟩ := hnext.keeps hupdated
  refine ⟨d, d', hd, hd', hkeeps.name, fun hkey => ?_, ?_⟩
  · by_cases himp : (name, .onClass) ∈ d.keys → (name, .onInstance) ∈ d.keys
    · exact .inl himp
    · right
      refine definedBehind_of_mem_keys hnext hupdated ?_ (mt hbehind.mp himp) hd' hkey
      exact List.map_subset _ (subset_foldl_addDeclared _ _ d.members) (Classical.not_imp.mp himp).1
  · rintro (himp | hdefined)
    · exact hkeeps.keys (hbehind.mpr himp)
    · obtain ⟨e, he, hkey⟩ := hdefined.mem_keys
      cases hd'.symm.trans he
      exact hkey

/-! ## A name that the subject itself has -/

/-- A class with a method of its own, a declaration of the same name, and more behind it. -/
def sameName (more : String) : String :=
  "class A\n  def self.owner\n    1\n  end\n  attribute :owner\n" ++ more

/-- The lines of such a class. -/
def sameNameLines (more : List String) : List (List Char) :=
  (["class A", "  def self.owner", "    1", "  end", "  attribute :owner"] ++ more).map String.toList

/-- The scan comes to the declaration directly inside the class. -/
theorem reaches_sameName (more : List String) :
    ∃ s, Reaches (sameNameLines more) s 4 ∧ s.stack = [.declaration 0 0] := by
  have hclass : Reaches (sameNameLines more) _ 1 := Reaches.start.next rfl
  have hline : (sameNameLines more).drop 1 =
      "  def self.owner".toList :: (sameNameLines more).drop 2 := rfl
  have hself := hclass.next hline
  exact ⟨_, hself, rfl⟩

theorem declaration?_owner :
    declaration? (trim "  attribute :owner".toList) = some ("attribute", ":owner".toList) ∧
      "owner" ∈ declaredNames "attribute" ":owner".toList := by
  decide +kernel

/-- A method behind the declaration makes the name that of a member of the instances. -/
theorem declared_member_redefined :
    ∃ s raw rest, Reaches (lines (sameName "  def owner\n  end\nend\n").toList) s 4 ∧
      (lines (sameName "  def owner\n  end\nend\n").toList).drop 4 = raw :: rest ∧
      s.current? = some 0 ∧ declaration? (trim raw) = some ("attribute", ":owner".toList) ∧
      "owner" ∈ declaredNames "attribute" ":owner".toList ∧
      ∃ d, (ofSource (sameName "  def owner\n  end\nend\n"))[0]? = some d ∧
        ("owner", .onInstance) ∈ d.keys := by
  have hlines : lines (sameName "  def owner\n  end\nend\n").toList =
      sameNameLines ["  def owner", "  end", "end"] := by
    decide +kernel
  obtain ⟨s, hreach, hstack⟩ := reaches_sameName ["  def owner", "  end", "end"]
  rw [← hlines] at hreach
  have howner : s.current? = some 0 := by rw [Scan.current?, hstack]; rfl
  have hdrop : (lines (sameName "  def owner\n  end\nend\n").toList).drop 4 =
      "  attribute :owner".toList :: ["  def owner", "  end", "end"].map String.toList := by
    rw [hlines]
    rfl
  obtain ⟨hdecl, hname⟩ := declaration?_owner
  refine ⟨s, _, _, hreach, hdrop, howner, hdecl, hname, ?_⟩
  obtain ⟨_, d, _, hd, -, hiff⟩ := declared_member_iff hreach hdrop howner hdecl hname
  have hbehind := hreach.next hdrop
  rw [Scan.next_declareMembers howner hdecl] at hbehind
  refine ⟨d, hd, hiff.mpr (.inr ⟨_, 5, _, _, hbehind, by decide, by rw [hlines]; rfl, ?_, ?_, ?_, ?_⟩)⟩
  · exact howner
  · rw [Scan.inSingleton, Scan.update, hstack]
    rfl
  · decide +kernel
  · decide

/-- A member of the subject itself hides what is declared under its name: no member of the instances has
the name in the end. -/
theorem not_declared_member :
    ∃ s raw rest, Reaches (lines (sameName "end\n").toList) s 4 ∧
      (lines (sameName "end\n").toList).drop 4 = raw :: rest ∧
      s.stack.head? = some (.declaration 0 0) ∧
      declaration? (trim raw) = some ("attribute", ":owner".toList) ∧
      "owner" ∈ declaredNames "attribute" ":owner".toList ∧
      ∃ d, (ofSource (sameName "end\n"))[0]? = some d ∧ ("owner", .onInstance) ∉ d.keys := by
  have hlines : lines (sameName "end\n").toList = sameNameLines ["end"] := by decide +kernel
  obtain ⟨s, hreach, hstack⟩ := reaches_sameName ["end"]
  have hfinal : (ofSource (sameName "end\n")).map Declaration.keys = [[("owner", .onClass)]] := by
    decide +kernel
  obtain ⟨d, hd, hkeys⟩ := List.map_eq_singleton_iff.mp hfinal
  rw [hlines]
  obtain ⟨hdecl, hname⟩ := declaration?_owner
  refine ⟨s, _, _, hreach, rfl, by rw [hstack]; rfl, hdecl, hname, d, ?_, ?_⟩
  · rw [hd]
    rfl
  · rw [hkeys]
    decide

end DocWeave.Outline
