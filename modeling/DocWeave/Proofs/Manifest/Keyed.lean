import DocWeave.Proofs.Manifest.Assembly

/-!
# Subjects whose parts have names

A member is identified by its name and kind, a constant by its name. In a *keyed* subject each of them
stands once, so that whatever the subject holds can be asked for by name. Subjects stay keyed in all
that is done to them while they are collected.
-/

namespace DocWeave

/-! ## Members by name and kind -/

/-- What a member is identified by. -/
def Member.key (x : Member) : String × MemberKind := (x.name, x.kind)

theorem Member.isCalled_iff {x : Member} {name : String} {kind : MemberKind} :
    x.isCalled name kind = true ↔ x.key = (name, kind) := by
  simp [Member.isCalled, Member.key]

/-- Where each member stands once, a member is what its name and kind lead to. -/
theorem find?_isCalled_of_mem {members : List Member} (h : (members.map Member.key).Nodup)
    {x : Member} (hx : x ∈ members) : members.find? (·.isCalled x.name x.kind) = some x := by
  induction members with
  | nil => simp at hx
  | cons y rest ih =>
    obtain ⟨hnew, hrest⟩ := List.nodup_cons.mp h
    rcases List.mem_cons.mp hx with rfl | hx
    · exact List.find?_cons_of_pos (Member.isCalled_iff.mpr rfl)
    · have hy : y.isCalled x.name x.kind = false := by
        rw [Bool.eq_false_iff]
        intro hy
        rw [Member.isCalled_iff.mp hy] at hnew
        exact hnew (List.mem_map_of_mem (f := Member.key) hx)
      simp only [List.find?_cons, hy]
      exact ih hrest hx

/-- A new member goes to the end, a known one stays where it is. -/
theorem keys_upsertMember (x : Member) (members : List Member) :
    (upsertMember x members).map Member.key =
      if x.key ∈ members.map Member.key then members.map Member.key
      else members.map Member.key ++ [x.key] := by
  induction members with
  | nil => simp [upsertMember]
  | cons old rest ih =>
    unfold upsertMember
    by_cases h : old.isCalled x.name x.kind = true
    · have hkey : old.key = x.key := Member.isCalled_iff.mp h
      have hcomplete : (old.complete x).key = old.key := rfl
      simp [h, hkey, hcomplete]
    · have hkey : ¬ x.key = old.key := fun hkey => h (Member.isCalled_iff.mpr hkey.symm)
      rw [if_neg h, List.map_cons, List.map_cons, ih]
      simp only [List.mem_cons, hkey, false_or]
      split <;> rfl

theorem mem_keys_upsertMember {x : Member} {members : List Member} {key : String × MemberKind} :
    key ∈ (upsertMember x members).map Member.key ↔ key ∈ members.map Member.key ∨ key = x.key := by
  rw [keys_upsertMember]
  split
  · next hthere => exact ⟨.inl, fun h => h.elim id fun hkey => hkey ▸ hthere⟩
  · rw [List.mem_append, List.mem_singleton]

/-- Adding or completing a member leaves each member once. -/
theorem nodup_upsertMember (x : Member) {members : List Member}
    (h : (members.map Member.key).Nodup) : ((upsertMember x members).map Member.key).Nodup := by
  rw [keys_upsertMember]
  split
  · exact h
  · next hnew => exact List.nodup_append.mpr ⟨h, by simp, by grind⟩

/-- Adding or completing a member, seen from any name and kind. -/
theorem find?_upsertMember (x : Member) (members : List Member) (name : String) (kind : MemberKind) :
    (upsertMember x members).find? (·.isCalled name kind) =
      if x.isCalled name kind then
        some (((members.find? (·.isCalled name kind)).map (·.complete x)).getD x)
      else members.find? (·.isCalled name kind) := by
  induction members with
  | nil =>
    simp only [upsertMember, List.find?_cons, List.find?_nil]
    split <;> simp_all
  | cons old rest ih =>
    have hcalled : (old.complete x).isCalled name kind = old.isCalled name kind := rfl
    unfold upsertMember
    split
    · next hold =>
      -- the member at the head is completed: it is asked for exactly if the new one is
      have hsame : old.isCalled name kind = x.isCalled name kind := by
        have hkey : old.key = x.key := Member.isCalled_iff.mp hold
        rw [Bool.eq_iff_iff, Member.isCalled_iff, Member.isCalled_iff, hkey]
      rw [List.find?_cons, hcalled, List.find?_cons, hsame]
      split <;> simp_all
    · next hold =>
      rw [List.find?_cons, List.find?_cons, ih]
      cases hx : old.isCalled name kind with
      | true =>
        have hother : x.isCalled name kind = false := by
          rw [Bool.eq_false_iff]
          intro hx'
          refine hold (Member.isCalled_iff.mpr ?_)
          exact (Member.isCalled_iff.mp hx).trans (Member.isCalled_iff.mp hx').symm
        simp [hother]
      | false => simp

/-- Completing a member without giving a line leaves every recorded line as it is. -/
theorem find?_upsertMember_line {x : Member} (hx : x.line = none) (members : List Member)
    (name : String) (kind : MemberKind) :
    ((upsertMember x members).find? (·.isCalled name kind)).bind (·.line) =
      (members.find? (·.isCalled name kind)).bind (·.line) := by
  rw [find?_upsertMember]
  split
  · cases members.find? (·.isCalled name kind) with
    | none => exact hx
    | some old => simp [Member.complete, hx]
  · rfl

/-! ## Lines by name -/

namespace Subject

/-- The line recorded for a member. -/
def memberLine? (s : Subject) (name : String) (kind : MemberKind) : Option Nat :=
  (s.member? name kind).bind (·.line)

/-- The line recorded for a constant. -/
def constantLine? (s : Subject) (name : String) : Option Nat :=
  (s.constants.get? name).bind (·.line)

/-- Each member and each constant stands once, the constants under their own names. -/
structure Keyed (s : Subject) : Prop where
  members : (s.members.map Member.key).Nodup
  constants : s.constants.keys.Nodup
  names : ∀ name c, s.constants.get? name = some c → c.name = name

/-- A subject with a constant set. -/
def setConstant (s : Subject) (c : Constant) : Subject :=
  { s with constants := s.constants.insert c.name c }

theorem Keyed.setConstant {s : Subject} (h : s.Keyed) (c : Constant) : (s.setConstant c).Keyed where
  members := h.members
  constants := OrderedMap.nodup_keys_insert h.constants _ _
  names := by
    intro name b hb
    rw [Subject.setConstant, OrderedMap.get?_insert] at hb
    split at hb
    · next hname =>
      cases hb
      exact hname.symm
    · exact h.names name b hb

/-- A constant is what its name leads to. -/
theorem Keyed.constant? {s : Subject} (h : s.Keyed) {c : Constant} (hc : c ∈ s.constants.values) :
    s.constants.get? c.name = some c := by
  obtain ⟨name, hname⟩ := OrderedMap.get?_of_mem_values h.constants hc
  rw [h.names name c hname]
  exact hname

theorem Keyed.upsert {s : Subject} (h : s.Keyed) (x : Member) : (s.upsert x).Keyed where
  members := nodup_upsertMember x h.members
  constants := h.constants
  names := h.names

end Subject

namespace Manifest

/-! ## Collected subjects are keyed -/

theorem keyed_addMembers (sameFile : Bool) {s : Subject} (h : s.Keyed) (members : List Member) :
    (addMembers sameFile s members).Keyed := by
  refine List.foldlRecOn (motive := Subject.Keyed) members _ h ?_
  intro t ht x _
  split
  · exact ht
  · next hnone =>
    have hnew : x.key ∉ t.members.map Member.key := by
      intro hmem
      obtain ⟨y, hy, hkey⟩ := List.mem_map.mp hmem
      exact hnone (List.find?_isSome.mpr ⟨y, hy, Member.isCalled_iff.mpr hkey⟩)
    -- the line may be dropped, the name and the kind stay
    have hkey : (memberFrom sameFile x).key = x.key := by
      unfold memberFrom
      split <;> rfl
    refine ⟨?_, ht.constants, ht.names⟩
    rw [List.map_append, List.map_singleton, hkey]
    exact List.nodup_append.mpr ⟨ht.members, by simp, by grind⟩

theorem keyed_addConstants {s : Subject} (h : s.Keyed) (new : List Constant) :
    { s with constants := addConstants s.constants new }.Keyed := by
  refine List.foldlRecOn
    (motive := fun cs : OrderedMap String Constant => { s with constants := cs }.Keyed) new _ h ?_
  intro cs hcs c _
  split
  · exact hcs
  · exact hcs.setConstant c

theorem keyed_absorb (file : String) {s : Subject} (h : s.Keyed) (d : Outline.Declaration) :
    (absorb file s d).Keyed := by
  refine keyed_addConstants (keyed_addMembers _ ?_ d.members) d.constants
  exact ⟨h.members, h.constants, h.names⟩

theorem keyed_assemble {seen : List Sighting} {s : Subject} (h : assemble seen = some s) :
    s.Keyed := by
  refine assemble_induction (P := Subject.Keyed) ?_ ?_ h
  · intro g _
    exact ⟨.nil, .nil, fun _ _ hc => by cases hc⟩
  · intro t ht g _
    exact keyed_absorb g.file ht g.found

theorem keyed_moveTo {s : Subject} (h : s.Keyed) (file : Option String) : (moveTo s file).Keyed := by
  obtain ⟨_, hmove⟩ := moveTo_frame s file
  rw [hmove]
  exact ⟨h.members, h.constants, h.names⟩

/-- A declared member sets a constant or completes a member. -/
theorem declareMember_cases (s : Subject) (m : DeclaredMember) :
    (∃ c : Constant, c.line = (m.line <|> s.constantLine? c.name) ∧
        declareMember s m = s.setConstant c) ∨
      ∃ x : Member, x.line = m.line ∧ declareMember s m = s.upsert x := by
  unfold declareMember
  split
  · exact .inl ⟨⟨m.name, m.returns.getD .nil, m.line <|> s.constantLine? m.name⟩, rfl, rfl⟩
  · exact .inr ⟨_, rfl, rfl⟩

/-- A declared constant gets a value and keeps its line. -/
theorem declareConstant_eq (s : Subject) (e : String × Value) :
    declareConstant s e = s.setConstant ⟨e.1, e.2, s.constantLine? e.1⟩ := rfl

theorem keyed_declare {s : Subject} (h : s.Keyed) (d : DeclaredSubject) : (declare s d).Keyed := by
  refine declare_induction (P := Subject.Keyed) s d ?_ (keyed_moveTo h d.file) ?_ ?_
  · intro t _ _ _ _ _ ht
    exact ⟨ht.members, ht.constants, ht.names⟩
  · intro t ht x _
    rcases declareMember_cases t x with ⟨c, _, heq⟩ | ⟨y, _, heq⟩
    · rw [heq]
      exact ht.setConstant c
    · rw [heq]
      exact ht.upsert y
  · intro t ht e _
    rw [declareConstant_eq]
    exact ht.setConstant _

end Manifest

end DocWeave
