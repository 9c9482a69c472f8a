import DocWeave.Proofs.Manifest.Keyed
import DocWeave.Proofs.Outline.Steps

/-!
# Where members stand

The line of a member lies below the head of its declaration, and above its end if the declaration was
closed (`ofLines_encloses`). The line is either the head of a method or a line that declares the member
by name. Behind the head of a method no other member stands until its block is over
(`ofLines_placed`): the scan passes over the block as a whole.
-/

namespace DocWeave.Outline

open DocWeave.Text

/-! ## What a step does to the members -/

theorem mem_upsertMember {m x : Member} {members : List Member} {line : Nat}
    (hline : m.line = some line) (h : x ∈ upsertMember m members) :
    x ∈ members ∨ (x.kind = m.kind ∧ x.line = some line) := by
  induction members with
  | nil =>
    right
    rw [List.mem_singleton.mp h]
    exact ⟨rfl, hline⟩
  | cons old rest ih =>
    unfold upsertMember at h
    split at h
    · next hcalled =>
      rcases List.mem_cons.mp h with rfl | h
      · right
        have hkind : old.kind = m.kind := by
          simp only [Member.isCalled, Bool.and_eq_true, beq_iff_eq] at hcalled
          exact hcalled.2
        exact ⟨hkind, by simp [Member.complete, hline]⟩
      · exact .inl (List.mem_cons_of_mem _ h)
    · rcases List.mem_cons.mp h with rfl | h
      · exact .inl List.mem_cons_self
      · exact (ih h).imp_left (List.mem_cons_of_mem _)

theorem mem_foldl_addDeclared {line : Nat} {names : List String} {members : List Member} {x : Member}
    (h : x ∈ names.foldl (Scan.addDeclared line) members) :
    x ∈ members ∨ (x.name ∈ names ∧ x.kind = .onInstance ∧ x.line = some line) := by
  induction names generalizing members with
  | nil => exact .inl h
  | cons name names ih =>
    rcases ih h with hmem | ⟨hname, hnew⟩
    · unfold Scan.addDeclared at hmem
      split at hmem
      · exact .inl hmem
      · rcases List.mem_append.mp hmem with hmem | hmem
        · exact .inl hmem
        · right
          rw [List.mem_singleton.mp hmem]
          exact ⟨List.mem_cons_self, rfl, rfl⟩
    · exact .inr ⟨List.mem_cons_of_mem _ hname, hnew⟩

/-- Declared members are added under new names only. -/
theorem nodup_foldl_addDeclared {line : Nat} (names : List String) {members : List Member}
    (h : (members.map Member.key).Nodup) :
    ((names.foldl (Scan.addDeclared line) members).map Member.key).Nodup := by
  refine List.foldlRecOn (motive := fun members : List Member => (members.map Member.key).Nodup)
    names _ h ?_
  intro known hknown name _
  unfold Scan.addDeclared
  split
  · exact hknown
  · next hnew =>
    rw [List.map_append, List.map_singleton, List.nodup_append]
    refine ⟨hknown, by simp, ?_⟩
    rintro key hkey other hother rfl
    obtain ⟨x, hx, hsame⟩ := List.mem_map.mp hkey
    rw [List.mem_singleton.mp hother] at hsame
    refine hnew (List.any_eq_true.mpr ⟨x, hx, ?_⟩)
    exact beq_iff_eq.mpr (Prod.mk.inj hsame).1

/-- The form of a line at which a member can be new: the head of a method, whose block is passed over,
or a line that declares the member by name. Constants are no members. -/
def Introduces (raw : List Char) (rest : List (List Char)) (skipped : Nat) (x : Member) : Prop :=
  x.kind ≠ .constant ∧
    (((methodHead? (trim raw)).isSome = true ∧ skipped = blockExtent raw rest) ∨
      x.name ∈ declarativeNames raw)

/-- What a line can make of the declaration that it stands in: its members and constants may gain some of
that line, and no two members get the same name and kind. -/
structure Declaration.Grows (n : Nat) (raw : List Char) (rest : List (List Char)) (skipped : Nat)
    (d d' : Declaration) : Prop where
  line : d'.line = d.line
  endLine : d'.endLine = d.endLine
  members : ∀ x ∈ d'.members, x ∈ d.members ∨ (x.line = some n ∧ Introduces raw rest skipped x)
  constants : ∀ c ∈ d'.constants, c ∈ d.constants ∨ c.line = some n
  keys : (d.members.map Member.key).Nodup → (d'.members.map Member.key).Nodup

namespace Scan

/-- The declarations whose blocks are open. -/
def openIndices (s : Scan) : List Nat := s.stack.filterMap Frame.index?

theorem head?_openIndices (s : Scan) : s.openIndices.head? = s.current? := by
  rw [openIndices, List.head?_filterMap, current?]

theorem current?_mem {s : Scan} {owner : Nat} (h : s.current? = some owner) :
    owner ∈ s.openIndices := List.mem_of_head? (s.head?_openIndices.trans h)

theorem getElem?_update {s : Scan} {i j : Nat} {f : Declaration → Declaration} {d' : Declaration}
    (h : (s.update i f).found[j]? = some d') :
    ∃ d, s.found[j]? = some d ∧ d' = if i = j then f d else d := by
  rw [update, List.getElem?_modify] at h
  obtain ⟨d, hd, rfl⟩ := Option.map_eq_some_iff.mp h
  exact ⟨d, hd, rfl⟩

/-- When one is opened behind the others, each declaration is from before or the opened one itself. -/
theorem getElem?_concat {found : List Declaration} {d e : Declaration} {i : Nat}
    (h : (found ++ [d])[i]? = some e) : found[i]? = some e ∨ (i = found.length ∧ e = d) := by
  rw [List.getElem?_append] at h
  split at h
  · exact .inl h
  · next hle =>
    have hlt := (List.getElem?_eq_some_iff.mp h).1
    rw [List.length_singleton] at hlt
    exact .inr ⟨by omega, List.mem_singleton.mp (List.mem_of_getElem? h)⟩

/-- What holds of every declaration, and what a change keeps, holds of every declaration behind it. -/
theorem forall_update {P : Declaration → Prop} {s : Scan} (h : ∀ d ∈ s.found, P d) (i : Nat)
    {f : Declaration → Declaration} (hf : ∀ d ∈ s.found, P d → P (f d)) :
    ∀ d ∈ (s.update i f).found, P d := by
  intro d hd
  obtain ⟨j, hj⟩ := List.getElem?_of_mem hd
  obtain ⟨e, he, rfl⟩ := getElem?_update hj
  have hmem := List.mem_of_getElem? he
  split
  · exact hf e hmem (h e hmem)
  · exact h e hmem

/-- The four things that can happen to the declarations found so far: nothing, a new one without
members and constants, an end, or a change to the innermost one that is open. -/
inductive Change (s : Scan) (n : Nat) (raw : List Char) (rest : List (List Char)) (skipped : Nat) :
    Scan → Prop
  | same (stack : List Frame) : (stack.filterMap Frame.index? = s.openIndices) →
      Change s n raw rest skipped { s with stack }
  | opened (d : Declaration) (stack : List Frame) : d.line = n → d.endLine = n → d.members = [] →
      d.constants = [] →
      (stack.filterMap Frame.index? = s.openIndices ∨
        stack.filterMap Frame.index? = s.found.length :: s.openIndices) →
      Change s n raw rest skipped { found := s.found ++ [d], stack }
  | closed (i : Nat) (stack : List Frame) : s.openIndices = i :: stack.filterMap Frame.index? →
      Change s n raw rest skipped
        { found := s.found.modify i fun d => { d with endLine := n }, stack }
  | gained (owner : Nat) (f : Declaration → Declaration) : s.current? = some owner →
      (∀ d : Declaration, d.Grows n raw rest skipped (f d)) →
      Change s n raw rest skipped (s.update owner f)

end Scan

/-- Every step is one of the four changes. -/
theorem Step.change {s s' : Scan} {n skipped : Nat} {raw : List Char} {rest : List (List Char)}
    (h : Step s n raw rest s' skipped) : s.Change n raw rest skipped s' := by
  cases h with
  | pass => exact .same s.stack rfl
  | close _ =>
    unfold Scan.close
    split
    · next frame below hstack =>
      split
      · cases hindex : frame.index? with
        | none => exact .same below (by simp [Scan.openIndices, hstack, hindex])
        | some i => exact .closed i below (by simp [Scan.openIndices, hstack, hindex])
      · exact .same s.stack rfl
    · exact .same s.stack rfl
  | singleton _ =>
    unfold Scan.enter
    split
    · exact .same s.stack rfl
    · exact .same _ (List.filterMap_cons_none rfl)
  | declare head _ =>
    unfold Scan.declare Scan.enter
    dsimp only
    split
    · exact .opened _ s.stack rfl rfl rfl rfl (.inl rfl)
    · exact .opened _ _ rfl rfl rfl rfl (.inr (List.filterMap_cons_some rfl))
  | define owner head howner hhead =>
    unfold Scan.define
    dsimp only
    split
    · exact .same s.stack rfl
    · refine .gained owner _ howner fun d => ⟨rfl, rfl, fun x hx => ?_, fun c hc => .inl hc, ?_⟩
      · refine (mem_upsertMember rfl hx).imp_right fun ⟨hkind, hline⟩ => ⟨hline, ?_, .inl ⟨?_, rfl⟩⟩
        · rw [hkind]
          show (if _ then MemberKind.onClass else .onInstance) ≠ .constant
          split <;> decide
        · rw [hhead]
          rfl
      · exact nodup_upsertMember _
  | constant owner c _ howner _ hline =>
    refine .gained owner _ howner fun d => ⟨rfl, rfl, fun x hx => .inl hx, fun b hb => ?_, id⟩
    refine (List.mem_append.mp hb).imp_right fun hb => ?_
    rw [List.mem_singleton.mp hb, hline]
  | mixIn owner names howner _ =>
    exact .gained owner _ howner fun d =>
      ⟨rfl, rfl, fun x hx => .inl hx, fun c hc => .inl hc, id⟩
  | declareMembers owner word args howner _ hargs =>
    refine .gained owner _ howner fun d =>
      ⟨rfl, rfl, fun x hx => ?_, fun c hc => .inl hc, nodup_foldl_addDeclared _⟩
    refine (mem_foldl_addDeclared hx).imp_right fun ⟨hname, hkind, hline⟩ => ⟨hline, ?_, .inr ?_⟩
    · rw [hkind]
      decide
    · rw [declarativeNames, hargs]
      exact hname

/-! ## Between head and end -/

/-- The line is one of the declaration: below its head, and not below its end. A declaration that was
never closed has no end but the line of its head. -/
def Declaration.Encloses (d : Declaration) (line : Nat) : Prop :=
  d.line ≤ line ∧ (line ≤ d.endLine ∨ d.endLine = d.line)

instance (d : Declaration) (line : Nat) : Decidable (d.Encloses line) :=
  inferInstanceAs (Decidable (_ ∧ _))

/-- A scan that has passed `n` lines: what was found stands on these lines, no open declaration has an
end yet, none is open twice, and the members stand in their declarations. -/
structure Scan.Framed (s : Scan) (n : Nat) : Prop where
  heads : ∀ (i : Nat) (d : Declaration), s.found[i]? = some d → d.line ≤ n
  members : ∀ (i : Nat) (d : Declaration), s.found[i]? = some d → ∀ x ∈ d.members, ∀ line,
    x.line = some line → line ≤ n ∧ d.Encloses line
  unended : ∀ i ∈ s.openIndices, ∃ d : Declaration, s.found[i]? = some d ∧ d.endLine = d.line
  once : s.openIndices.Nodup

namespace Scan.Framed

variable {s : Scan} {n : Nat}

theorem later (h : s.Framed n) {m : Nat} (hm : n ≤ m) : s.Framed m where
  heads i d hd := Nat.le_trans (h.heads i d hd) hm
  members i d hd x hx line hline :=
    ⟨Nat.le_trans (h.members i d hd x hx line hline).1 hm, (h.members i d hd x hx line hline).2⟩
  unended := h.unended
  once := h.once

/-- A new declaration has its head on the line and is the only one of its number. -/
theorem opened (h : s.Framed n) {d : Declaration} {stack : List Frame} (hline : d.line = n + 1)
    (hend : d.endLine = n + 1) (hmembers : d.members = [])
    (hstack : stack.filterMap Frame.index? = s.openIndices ∨
      stack.filterMap Frame.index? = s.found.length :: s.openIndices) :
    Scan.Framed { found := s.found ++ [d], stack } (n + 1) := by
  have hold := h.later (Nat.le_succ n)
  have hkept : ∀ i ∈ s.openIndices, ∃ e, (s.found ++ [d])[i]? = some e ∧ e.endLine = e.line := by
    intro i hi
    obtain ⟨e, he, hopen⟩ := h.unended i hi
    have hlt : i < s.found.length := (List.getElem?_eq_some_iff.mp he).1
    exact ⟨e, by rw [List.getElem?_append_left hlt, he], hopen⟩
  refine ⟨?_, ?_, ?_, ?_⟩
  · intro i e he
    rcases Scan.getElem?_concat he with he | ⟨-, rfl⟩
    · exact hold.heads i e he
    · exact Nat.le_of_eq hline
  · intro i e he x hx line hx'
    rcases Scan.getElem?_concat he with he | ⟨-, rfl⟩
    · exact hold.members i e he x hx line hx'
    · rw [hmembers] at hx
      cases hx
  · intro i hi
    show ∃ e, (s.found ++ [d])[i]? = some e ∧ e.endLine = e.line
    rcases hstack with hsame | hnew
    · exact hkept i (hsame ▸ hi)
    · rcases List.mem_cons.mp (hnew ▸ hi : i ∈ s.found.length :: s.openIndices) with rfl | hi
      · exact ⟨d, by simp, by rw [hend, hline]⟩
      · exact hkept i hi
  · show (stack.filterMap Frame.index?).Nodup
    rcases hstack with hsame | hnew
    · rw [hsame]
      exact h.once
    · rw [hnew]
      refine List.nodup_cons.mpr ⟨fun hin => ?_, h.once⟩
      obtain ⟨e, he, _⟩ := h.unended _ hin
      exact absurd (List.getElem?_eq_some_iff.mp he).1 (Nat.lt_irrefl _)

/-- The innermost declaration gets its end; it is not open any more, the others still are. -/
theorem closed (h : s.Framed n) {i : Nat} {stack : List Frame}
    (hstack : s.openIndices = i :: stack.filterMap Frame.index?) :
    Scan.Framed { found := s.found.modify i fun d => { d with endLine := n + 1 }, stack } (n + 1) := by
  have hold := h.later (Nat.le_succ n)
  have honce := h.once
  rw [hstack] at honce
  obtain ⟨hnot, honce⟩ := List.nodup_cons.mp honce
  refine ⟨?_, ?_, ?_, honce⟩
  · intro j e he
    obtain ⟨d, hd, rfl⟩ := Scan.getElem?_update (s := s) he
    split
    · exact hold.heads j d hd
    · exact hold.heads j d hd
  · intro j e he x hx line hline
    obtain ⟨d, hd, rfl⟩ := Scan.getElem?_update (s := s) he
    split at hx
    · next hij =>
      obtain ⟨hle, henc⟩ := h.members j d hd x hx line hline
      rw [if_pos hij]
      exact ⟨Nat.le_succ_of_le hle, henc.1, .inl (Nat.le_succ_of_le hle)⟩
    · next hij =>
      rw [if_neg hij]
      exact hold.members j d hd x hx line hline
  · intro j hj
    obtain ⟨d, hd, hopen⟩ := h.unended j (by rw [hstack]; exact List.mem_cons_of_mem _ hj)
    have hij : i ≠ j := fun hij => hnot (hij ▸ hj)
    refine ⟨d, ?_, hopen⟩
    show (s.found.modify i _)[j]? = some d
    rw [List.getElem?_modify, hd]
    simp [hij]

/-- An open declaration gains members at the line. -/
theorem gained (h : s.Framed n) {raw : List Char} {rest : List (List Char)} {skipped owner : Nat}
    {f : Declaration → Declaration} (howner : owner ∈ s.openIndices)
    (hf : ∀ d : Declaration, d.Grows (n + 1) raw rest skipped (f d)) :
    (s.update owner f).Framed (n + 1) := by
  have hold := h.later (Nat.le_succ n)
  refine ⟨?_, ?_, ?_, h.once⟩
  · intro j e he
    obtain ⟨d, hd, rfl⟩ := Scan.getElem?_update he
    split
    · rw [(hf d).line]
      exact hold.heads j d hd
    · exact hold.heads j d hd
  · intro j e he x hx line hline
    obtain ⟨d, hd, rfl⟩ := Scan.getElem?_update he
    split at hx
    · next hij =>
      subst hij
      rw [if_pos rfl, Declaration.Encloses, (hf d).line, (hf d).endLine]
      rcases (hf d).members x hx with hx | ⟨hnew, -⟩
      · exact hold.members _ d hd x hx line hline
      · -- the declaration is open, so it has no end yet
        obtain ⟨e, he, hopen⟩ := h.unended _ howner
        cases hd.symm.trans he
        cases hnew.symm.trans hline
        exact ⟨Nat.le_refl _, Nat.le_succ_of_le (h.heads _ d hd), .inr hopen⟩
    · next hij =>
      rw [if_neg hij]
      exact hold.members j d hd x hx line hline
  · intro j hj
    obtain ⟨d, hd, hopen⟩ := h.unended j hj
    refine ⟨if owner = j then f d else d, ?_, ?_⟩
    · rw [Scan.update, List.getElem?_modify, hd]
      rfl
    · split
      · rw [(hf d).line, (hf d).endLine, hopen]
      · exact hopen

theorem step (h : s.Framed n) {raw : List Char} {rest : List (List Char)} {s' : Scan} {skipped : Nat}
    (hs : Step s (n + 1) raw rest s' skipped) : s'.Framed (n + 1) := by
  cases hs.change with
  | same stack hstack =>
    have hold := h.later (Nat.le_succ n)
    refine ⟨hold.heads, hold.members, ?_, ?_⟩
    · intro i hi
      exact h.unended i (hstack ▸ hi)
    · show (stack.filterMap Frame.index?).Nodup
      rw [hstack]
      exact h.once
  | opened d stack hline hend hmembers _ hstack => exact h.opened hline hend hmembers hstack
  | closed i stack hstack => exact h.closed hstack
  | gained owner f howner hf => exact h.gained (Scan.current?_mem howner) hf

end Scan.Framed

/-- Before the first line nothing is found and nothing is open. -/
theorem Scan.framed_empty : Scan.Framed {} 0 :=
  ⟨fun _ _ h => by simp at h, fun _ _ h => by simp at h, fun _ h => by simp [Scan.openIndices] at h,
    List.nodup_nil⟩

theorem framed_scanLines (all : List (List Char)) : ∃ n, (scanLines {} 0 all).Framed n := by
  refine scanLines_invariant all (P := Scan.Framed) ?_ {} 0 Scan.framed_empty
  intro s n raw rest s' skipped _ hs h
  exact (h.step hs).later (Nat.le_add_right _ _)

/-- The line of a member lies in its declaration. -/
theorem ofLines_encloses {all : List (List Char)} {d : Declaration} (hd : d ∈ ofLines all) {x : Member}
    (hx : x ∈ d.members) {line : Nat} (hline : x.line = some line) : d.Encloses line := by
  obtain ⟨n, hframed⟩ := framed_scanLines all
  obtain ⟨i, hi⟩ := List.getElem?_of_mem hd
  exact (hframed.members i d hi x hx line hline).2

/-! ## Apart from each other -/

/-- Some member was found on the line. -/
def Scan.Registered (s : Scan) (line : Nat) : Prop :=
  ∃ d ∈ s.found, ∃ x ∈ d.members, x.line = some line

/-- A member that a step leaves behind was there before, or is new on the line of the step. -/
theorem Step.mem_members {s s' : Scan} {n skipped : Nat} {raw : List Char} {rest : List (List Char)}
    (h : Step s n raw rest s' skipped) {d' : Declaration} (hd : d' ∈ s'.found) {x : Member}
    (hx : x ∈ d'.members) :
    (∃ d ∈ s.found, x ∈ d.members) ∨ (x.line = some n ∧ Introduces raw rest skipped x) := by
  cases h.change with
  | same stack _ => exact .inl ⟨d', hd, hx⟩
  | opened d stack _ _ hmembers _ _ =>
    rcases List.mem_append.mp hd with hd | hd
    · exact .inl ⟨d', hd, hx⟩
    · rw [List.mem_singleton.mp hd, hmembers] at hx
      cases hx
  | closed i stack _ =>
    obtain ⟨j, hj⟩ := List.getElem?_of_mem hd
    obtain ⟨d, hfound, rfl⟩ := Scan.getElem?_update (s := s) hj
    left
    refine ⟨d, List.mem_of_getElem? hfound, ?_⟩
    split at hx <;> exact hx
  | gained owner f _ hf =>
    obtain ⟨j, hj⟩ := List.getElem?_of_mem hd
    obtain ⟨d, hfound, rfl⟩ := Scan.getElem?_update hj
    have hmem := List.mem_of_getElem? hfound
    split at hx
    · exact ((hf d).members x hx).imp_left fun hx => ⟨d, hmem, hx⟩
    · exact .inl ⟨d, hmem, hx⟩

/-- The place of a member called `name` on the line behind the first `start`: the head of a method, with
no member of the scan inside its block, or a line that declares the name. The block is over before line
`n`. -/
def Scan.Place (s : Scan) (all : List (List Char)) (n start : Nat) (name : String) : Prop :=
  ∃ raw rest, all.drop start = raw :: rest ∧
    (((methodHead? (trim raw)).isSome = true ∧ blockEnd all start < n ∧
        ∀ line, s.Registered line → line ≤ start + 1 ∨ blockEnd all start + 1 < line) ∨
      name ∈ declarativeNames raw)

/-- A scan that has passed the first `n` of all lines: each member stands on one of these lines, and in
its place. -/
structure Scan.Spaced (all : List (List Char)) (s : Scan) (n : Nat) : Prop where
  passed : ∀ line, s.Registered line → line ≤ n
  kinds : ∀ d ∈ s.found, ∀ x ∈ d.members, x.kind ≠ .constant
  placed : ∀ d ∈ s.found, ∀ x ∈ d.members, ∃ start, x.line = some (start + 1) ∧
    s.Place all n start x.name

theorem Scan.Spaced.step {all : List (List Char)} {s s' : Scan} {n skipped : Nat} {raw : List Char}
    {rest : List (List Char)} (h : s.Spaced all n) (hlines : all.drop n = raw :: rest)
    (hs : Step s (n + 1) raw rest s' skipped) : s'.Spaced all (n + 1 + skipped) := by
  have hregistered : ∀ line, s'.Registered line → s.Registered line ∨ line = n + 1 := by
    rintro line ⟨d, hd, x, hx, hline⟩
    rcases hs.mem_members hd hx with ⟨e, he, hx⟩ | ⟨hnew, _⟩
    · exact .inl ⟨e, he, x, hx, hline⟩
    · exact .inr (Option.some.inj (hline.symm.trans hnew))
  refine ⟨?_, ?_, ?_⟩
  · intro line hline
    rcases hregistered line hline with hold | rfl
    · have := h.passed line hold
      omega
    · omega
  · intro d hd x hx
    rcases hs.mem_members hd hx with ⟨e, he, hx⟩ | ⟨_, hkind, _⟩
    · exact h.kinds e he x hx
    · exact hkind
  · intro d hd x hx
    rcases hs.mem_members hd hx with ⟨e, he, hx⟩ | ⟨hline, _, hintro⟩
    · obtain ⟨start, hline, first, others, hfirst, hplace⟩ := h.placed e he x hx
      refine ⟨start, hline, first, others, hfirst, hplace.imp_left ?_⟩
      rintro ⟨hmethod, hover, hapart⟩
      refine ⟨hmethod, by omega, fun line hline => ?_⟩
      -- what is new stands below all that was passed
      rcases hregistered line hline with hold | rfl
      · exact hapart line hold
      · right
        omega
    · refine ⟨n, hline, raw, rest, hlines, hintro.imp_left ?_⟩
      rintro ⟨hmethod, rfl⟩
      have hend : blockEnd all n = n + blockExtent raw rest := by
        rw [blockEnd, hlines]
      refine ⟨hmethod, by omega, fun line hline => ?_⟩
      left
      rcases hregistered line hline with hold | rfl
      · have := h.passed line hold
        omega
      · exact Nat.le_refl _

theorem spaced_ofLines (all : List (List Char)) : ∃ n, (scanLines {} 0 all).Spaced all n := by
  have hnone : ∀ line, ¬ Scan.Registered {} line := by
    rintro line ⟨d, hd, _⟩
    cases hd
  have hstart : Scan.Spaced all {} 0 :=
    ⟨fun line hline => absurd hline (hnone line), fun d hd => absurd hd List.not_mem_nil,
      fun d hd => absurd hd List.not_mem_nil⟩
  exact scanLines_invariant all (P := Scan.Spaced all)
    (fun s n raw rest s' skipped hlines hs h => h.step hlines hs) {} 0 hstart

theorem ofLines_kind {all : List (List Char)} {d : Declaration} (hd : d ∈ ofLines all) {x : Member}
    (hx : x ∈ d.members) : x.kind ≠ .constant := by
  obtain ⟨n, hspaced⟩ := spaced_ofLines all
  exact hspaced.kinds d hd x hx

/-- Every member stands at the head of a method, with no other member inside the block, or on a line
that declares it. -/
theorem ofLines_placed {all : List (List Char)} {d : Declaration} (hd : d ∈ ofLines all) {x : Member}
    (hx : x ∈ d.members) :
    ∃ start raw rest, x.line = some (start + 1) ∧ all.drop start = raw :: rest ∧
      (((methodHead? (trim raw)).isSome = true ∧
          ∀ e ∈ ofLines all, ∀ y ∈ e.members, ∀ line, y.line = some line →
            line ≤ start + 1 ∨ blockEnd all start + 1 < line) ∨
        x.name ∈ declarativeNames raw) := by
  obtain ⟨n, hspaced⟩ := spaced_ofLines all
  obtain ⟨start, hline, raw, rest, hlines, hplace⟩ := hspaced.placed d hd x hx
  refine ⟨start, raw, rest, hline, hlines, hplace.imp_left ?_⟩
  rintro ⟨hmethod, _, hapart⟩
  exact ⟨hmethod, fun e he y hy line hyline => hapart line ⟨e, he, y, hy, hyline⟩⟩

end DocWeave.Outline
