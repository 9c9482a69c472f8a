import DocWeave.Proofs.Outline.Places

/-!
# The ranges of declarations

Whatever the indentation of a file is, blocks are closed in the reverse order in which they were opened:
the open declarations of a scan stand innermost first, so a declaration that is closed encloses all that
came after its head (`Scan.Nested`). Members and constants are given to the innermost open declaration
only. It follows that the ranges between head and end lie apart or one inside the other, and that what a
closed declaration holds lies between its head and its end and in no range inside it
(`ofSource_wellNested`).
-/

namespace DocWeave.Outline

open DocWeave.Text

/-! ## Ranges -/

namespace Declaration

/-- The lines at which the members and constants stand. -/
def marks (d : Declaration) : List (Option Nat) :=
  d.members.map (·.line) ++ d.constants.map (·.line)

/-- The range of a declaration, from its head to its end, lies in that of another one. -/
def Within (d e : Declaration) : Prop := e.line ≤ d.line ∧ d.endLine ≤ e.endLine

/-- The ranges of two declarations have no line in common. -/
def Apart (d e : Declaration) : Prop := d.endLine < e.line ∨ e.endLine < d.line

theorem mem_marks {d : Declaration} {mark : Option Nat} :
    mark ∈ d.marks ↔ (∃ x ∈ d.members, x.line = mark) ∨ ∃ c ∈ d.constants, c.line = mark := by
  simp [marks]

theorem marks_eq_nil {d : Declaration} (hmembers : d.members = []) (hconstants : d.constants = []) :
    d.marks = [] := by
  simp [marks, hmembers, hconstants]

/-- A mark is new on the line only. -/
theorem Grows.mem_marks {d d' : Declaration} {n skipped : Nat} {raw : List Char}
    {rest : List (List Char)} (h : d.Grows n raw rest skipped d') {mark : Option Nat}
    (hmark : mark ∈ d'.marks) : mark ∈ d.marks ∨ mark = some n := by
  rcases Declaration.mem_marks.mp hmark with ⟨x, hx, rfl⟩ | ⟨c, hc, rfl⟩
  · refine (h.members x hx).imp (fun hx => ?_) And.left
    exact Declaration.mem_marks.mpr (.inl ⟨x, hx, rfl⟩)
  · refine (h.constants c hc).imp_left fun hc => ?_
    exact Declaration.mem_marks.mpr (.inr ⟨c, hc, rfl⟩)

end Declaration

/-- Declarations in a file of `n` lines whose ranges are nested: they stand in the order of their heads,
their ranges lie apart or one in the other, each holds a member once, and what a declaration with an end
below its head holds stands between both, in no range inside its own. -/
structure WellNested (n : Nat) (ds : List Declaration) : Prop where
  ascending : ds.Pairwise fun d e => d.line < e.line
  spans : ∀ d ∈ ds, 1 ≤ d.line ∧ d.line ≤ d.endLine ∧ d.endLine ≤ n
  ranges : ∀ d ∈ ds, ∀ e ∈ ds, d.Apart e ∨ d.Within e ∨ e.Within d
  keys : ∀ d ∈ ds, (d.members.map Member.key).Nodup
  marks : ∀ d ∈ ds, d.line < d.endLine → ∀ mark ∈ d.marks, ∃ m, mark = some m ∧
    d.line < m ∧ m < d.endLine ∧
      ∀ e ∈ ds, e.line ≠ d.line → e.Within d → ¬(e.line ≤ m ∧ m ≤ e.endLine)

/-! ## Open and closed blocks -/

namespace Scan

/-- The declaration of number `i` holds the line `m`: it lies below the head, above the end if there is
one, and in the range of no later declaration. -/
structure Holds (s : Scan) (i : Nat) (d : Declaration) (m : Nat) : Prop where
  below : d.line < m
  above : i ∉ s.openIndices → m < d.endLine
  outside : ∀ (j : Nat) (e : Declaration), i < j → s.found[j]? = some e →
    m < e.line ∨ (j ∉ s.openIndices ∧ e.endLine < m)

/-- A scan that has passed `n` lines: of two declarations the earlier one, if its block is over, lies
apart from the later one or encloses it, and each declaration holds what it marks. -/
structure Nested (s : Scan) (n : Nat) : Prop where
  framed : s.Framed n
  ascending : ∀ (i j : Nat) (d e : Declaration), i < j → s.found[i]? = some d →
    s.found[j]? = some e → d.line < e.line
  spans : ∀ d ∈ s.found, 1 ≤ d.line ∧ d.line ≤ d.endLine ∧ d.endLine ≤ n
  keys : ∀ d ∈ s.found, (d.members.map Member.key).Nodup
  inward : s.openIndices.Pairwise (· > ·)
  ranges : ∀ (i j : Nat) (d e : Declaration), i < j → s.found[i]? = some d →
    s.found[j]? = some e → i ∉ s.openIndices →
      d.endLine < e.line ∨ (j ∉ s.openIndices ∧ e.endLine ≤ d.endLine)
  marks : ∀ (i : Nat) (d : Declaration), s.found[i]? = some d → ∀ mark ∈ d.marks,
    ∃ m, mark = some m ∧ m ≤ n ∧ s.Holds i d m

namespace Nested

variable {s : Scan} {n : Nat}

theorem later (h : s.Nested n) {m : Nat} (hm : n ≤ m) : s.Nested m where
  framed := h.framed.later hm
  ascending := h.ascending
  spans d hd := ⟨(h.spans d hd).1, (h.spans d hd).2.1, Nat.le_trans (h.spans d hd).2.2 hm⟩
  keys := h.keys
  inward := h.inward
  ranges := h.ranges
  marks i d hd mark hmark := by
    obtain ⟨m', rfl, hle, hholds⟩ := h.marks i d hd mark hmark
    exact ⟨m', rfl, Nat.le_trans hle hm, hholds⟩

theorem lt_length (h : s.Nested n) {i : Nat} (hi : i ∈ s.openIndices) : i < s.found.length := by
  obtain ⟨d, hd, -⟩ := h.framed.unended i hi
  exact (List.getElem?_eq_some_iff.mp hd).1

/-- No declaration behind the innermost open one is open. -/
theorem not_open_of_lt (h : s.Nested n) {owner j : Nat} (howner : s.openIndices.head? = some owner)
    (hj : owner < j) : j ∉ s.openIndices := by
  intro hmem
  obtain ⟨others, hothers⟩ := List.head?_eq_some_iff.mp howner
  have hinward := h.inward
  rw [hothers] at hinward hmem
  rcases List.mem_cons.mp hmem with rfl | hmem
  · omega
  · have hlt : owner > j := (List.pairwise_cons.mp hinward).1 j hmem
    omega

/-- The stack changes, but no block of a declaration opens or closes. -/
theorem same (h : s.Nested n) {stack : List Frame}
    (hstack : stack.filterMap Frame.index? = s.openIndices)
    (hframed : Framed { s with stack } (n + 1)) : Nested { s with stack } (n + 1) := by
  have hopen : openIndices { s with stack } = s.openIndices := hstack
  have hold := h.later (Nat.le_succ n)
  refine ⟨hframed, hold.ascending, hold.spans, hold.keys, hopen ▸ hold.inward, ?_, ?_⟩
  · intro i j d e hij hd he hi
    rw [hopen] at hi ⊢
    exact hold.ranges i j d e hij hd he hi
  · intro i d hd mark hmark
    obtain ⟨m, rfl, hle, hholds⟩ := hold.marks i d hd mark hmark
    refine ⟨m, rfl, hle, hholds.below, ?_, ?_⟩
    · rw [hopen]
      exact hholds.above
    · rw [hopen]
      exact hholds.outside

/-- The heads stand in the same order when declarations change below them. -/
theorem ascending_update (h : s.Nested n) {k : Nat} {f : Declaration → Declaration}
    (hf : ∀ d, (f d).line = d.line) {i j : Nat} {a b : Declaration} (hij : i < j)
    (ha : (s.update k f).found[i]? = some a) (hb : (s.update k f).found[j]? = some b) :
    a.line < b.line := by
  have hline : ∀ {i : Nat} {e : Declaration}, (s.update k f).found[i]? = some e →
      ∃ d, s.found[i]? = some d ∧ e.line = d.line := by
    intro i e he
    obtain ⟨d, hd, rfl⟩ := getElem?_update he
    refine ⟨d, hd, ?_⟩
    split
    · exact hf d
    · rfl
  obtain ⟨a', ha', haline⟩ := hline ha
  obtain ⟨b', hb', hbline⟩ := hline hb
  rw [haline, hbline]
  exact h.ascending i j a' b' hij ha' hb'

/-! ### A new declaration -/

section Opened

variable {d : Declaration} {stack : List Frame} {i : Nat} {a : Declaration}

/-- A declaration from before is open behind the new one as it was before it. -/
theorem mem_openIndices_opened (hstack : stack.filterMap Frame.index? = s.openIndices ∨
      stack.filterMap Frame.index? = s.found.length :: s.openIndices)
    (ha : s.found[i]? = some a) :
    i ∈ openIndices { found := s.found ++ [d], stack } ↔ i ∈ s.openIndices := by
  show i ∈ stack.filterMap Frame.index? ↔ i ∈ s.openIndices
  rcases hstack with hsame | hnew
  · rw [hsame]
  · rw [hnew, List.mem_cons]
    exact or_iff_right (Nat.ne_of_lt (List.getElem?_eq_some_iff.mp ha).1)

/-- No declaration stands behind the new one. -/
theorem getElem?_before {found : List Declaration} {j : Nat} {b : Declaration} (hij : i < j)
    (ha : (found ++ [d])[i]? = some a) (hb : (found ++ [d])[j]? = some b) : found[i]? = some a := by
  rcases getElem?_concat ha with hfound | ⟨hlast, -⟩
  · exact hfound
  · have hlt := (List.getElem?_eq_some_iff.mp hb).1
    rw [List.length_append, List.length_singleton] at hlt
    omega

/-- The new declaration stands below all marks. -/
theorem holds_opened (hline : d.line = n + 1)
    (hstack : stack.filterMap Frame.index? = s.openIndices ∨
      stack.filterMap Frame.index? = s.found.length :: s.openIndices)
    (ha : s.found[i]? = some a) {m : Nat} (hm : m ≤ n) (hholds : s.Holds i a m) :
    Holds { found := s.found ++ [d], stack } i a m where
  below := hholds.below
  above hi := hholds.above fun hmem => hi ((mem_openIndices_opened hstack ha).mpr hmem)
  outside j e hij he := by
    rcases getElem?_concat he with hfound | ⟨-, rfl⟩
    · rw [mem_openIndices_opened hstack hfound]
      exact hholds.outside j e hij hfound
    · left
      omega

/-- A new declaration stands below everything before it. -/
theorem opened (h : s.Nested n) (hline : d.line = n + 1) (hend : d.endLine = n + 1)
    (hmembers : d.members = []) (hconstants : d.constants = [])
    (hstack : stack.filterMap Frame.index? = s.openIndices ∨
      stack.filterMap Frame.index? = s.found.length :: s.openIndices)
    (hframed : Framed { found := s.found ++ [d], stack } (n + 1)) :
    Nested { found := s.found ++ [d], stack } (n + 1) := by
  have hold := h.later (Nat.le_succ n)
  refine ⟨hframed, ?_, ?_, ?_, ?_, ?_, ?_⟩
  · intro i j a b hij ha hb
    have hfound := getElem?_before hij ha hb
    rcases getElem?_concat hb with hbfound | ⟨-, rfl⟩
    · exact h.ascending i j a b hij hfound hbfound
    · rw [hline]
      exact Nat.lt_succ_of_le (h.framed.heads i a hfound)
  · refine List.forall_mem_append.mpr ⟨hold.spans, List.forall_mem_singleton.mpr ?_⟩
    omega
  · refine List.forall_mem_append.mpr ⟨h.keys, List.forall_mem_singleton.mpr ?_⟩
    rw [hmembers]
    exact List.nodup_nil
  · show (stack.filterMap Frame.index?).Pairwise (· > ·)
    rcases hstack with hsame | hnew
    · rw [hsame]
      exact h.inward
    · rw [hnew]
      exact List.pairwise_cons.mpr ⟨fun i hi => h.lt_length hi, h.inward⟩
  · intro i j a b hij ha hb hi
    have hfound := getElem?_before hij ha hb
    rw [mem_openIndices_opened hstack hfound] at hi
    rcases getElem?_concat hb with hbfound | ⟨-, rfl⟩
    · rw [mem_openIndices_opened hstack hbfound]
      exact h.ranges i j a b hij hfound hbfound hi
    · left
      have hspan := (h.spans a (List.mem_of_getElem? hfound)).2.2
      omega
  · intro i a ha mark hmark
    rcases getElem?_concat ha with hfound | ⟨-, rfl⟩
    · obtain ⟨m, rfl, hle, hholds⟩ := h.marks i a hfound mark hmark
      exact ⟨m, rfl, Nat.le_succ_of_le hle, holds_opened hline hstack hfound hle hholds⟩
    · rw [Declaration.marks_eq_nil hmembers hconstants] at hmark
      cases hmark

end Opened

/-! ### A declaration that ends -/

section Closed

variable {k : Nat} {stack : List Frame}

/-- The other declarations stay open or over. -/
theorem mem_openIndices_closed (hstack : s.openIndices = k :: stack.filterMap Frame.index?) {i : Nat}
    (hi : i ≠ k) : i ∈ stack.filterMap Frame.index? ↔ i ∈ s.openIndices := by
  rw [hstack, List.mem_cons]
  exact (or_iff_right hi).symm

/-- What ended and all behind it are over. -/
theorem not_mem_openIndices_closed (h : s.Nested n)
    (hstack : s.openIndices = k :: stack.filterMap Frame.index?) {j : Nat} (hj : k ≤ j) :
    j ∉ stack.filterMap Frame.index? := by
  intro hmem
  have hinward := h.inward
  rw [hstack] at hinward
  have hlt : k > j := (List.pairwise_cons.mp hinward).1 j hmem
  omega

/-- A declaration of the outcome is one from before, or the one that ended. -/
theorem getElem?_closed {j : Nat} {e : Declaration}
    (he : (s.found.modify k fun d => { d with endLine := n + 1 })[j]? = some e) :
    ∃ d, s.found[j]? = some d ∧ e.line = d.line ∧ e.marks = d.marks ∧
      e.endLine = if k = j then n + 1 else d.endLine := by
  obtain ⟨d, hd, rfl⟩ := getElem?_update (s := s) he
  refine ⟨d, hd, ?_⟩
  split
  · exact ⟨rfl, rfl, rfl⟩
  · exact ⟨rfl, rfl, rfl⟩

/-- What was over before is neither open nor changed. -/
theorem endLine_closed (hstack : s.openIndices = k :: stack.filterMap Frame.index?) {j : Nat}
    {d e : Declaration} (hend : e.endLine = if k = j then n + 1 else d.endLine)
    (hj : j ∉ s.openIndices) : j ∉ stack.filterMap Frame.index? ∧ e.endLine = d.endLine := by
  have hne : k ≠ j := by
    rintro rfl
    exact hj (hstack ▸ List.mem_cons_self)
  rw [if_neg hne] at hend
  exact ⟨fun hmem => hj ((mem_openIndices_closed hstack hne.symm).mp hmem), hend⟩

/-- The end stands below all marks. -/
theorem holds_closed (hstack : s.openIndices = k :: stack.filterMap Frame.index?) {i m : Nat}
    {a a' : Declaration} (hline : a.line = a'.line)
    (hend : a.endLine = if k = i then n + 1 else a'.endLine) (hm : m ≤ n)
    (hholds : s.Holds i a' m) :
    Holds { found := s.found.modify k fun d => { d with endLine := n + 1 }, stack } i a m where
  below := hline ▸ hholds.below
  above hi := by
    by_cases hk : k = i
    · rw [hend, if_pos hk]
      omega
    · rw [hend, if_neg hk]
      exact hholds.above fun hmem => hi ((mem_openIndices_closed hstack (Ne.symm hk)).mpr hmem)
  outside j e hij he := by
    obtain ⟨e', he', heline, -, heend⟩ := getElem?_closed he
    rw [heline]
    refine (hholds.outside j e' hij he').imp_right fun ⟨hj, hbehind⟩ => ?_
    obtain ⟨hover, hsame⟩ := endLine_closed hstack heend hj
    exact ⟨hover, hsame ▸ hbehind⟩

/-- The innermost open declaration gets its end: it encloses all declarations that came after it, and
they are over. -/
theorem closed (h : s.Nested n) (hstack : s.openIndices = k :: stack.filterMap Frame.index?)
    (hframed : Framed
      { found := s.found.modify k fun d => { d with endLine := n + 1 }, stack } (n + 1)) :
    Nested { found := s.found.modify k fun d => { d with endLine := n + 1 }, stack } (n + 1) := by
  have hold := h.later (Nat.le_succ n)
  refine ⟨hframed, ?_, ?_, ?_, ?_, ?_, ?_⟩
  · intro i j a b hij ha hb
    exact h.ascending_update (f := fun d => { d with endLine := n + 1 }) (fun _ => rfl) hij ha hb
  · refine forall_update (s := s) hold.spans k fun d hd hspan => ⟨hspan.1, ?_, Nat.le_refl _⟩
    exact Nat.le_trans hspan.2.1 hspan.2.2
  · exact forall_update (s := s) h.keys k fun d _ hkeys => hkeys
  · have hinward := h.inward
    rw [hstack] at hinward
    exact (List.pairwise_cons.mp hinward).2
  · intro i j a b hij ha hb hi
    obtain ⟨a', ha', -, -, haend⟩ := getElem?_closed ha
    obtain ⟨b', hb', hbline, -, hbend⟩ := getElem?_closed hb
    by_cases hk : k = i
    · right
      have hspan := (h.spans b' (List.mem_of_getElem? hb')).2.2
      rw [if_pos hk] at haend
      rw [if_neg (by omega)] at hbend
      exact ⟨h.not_mem_openIndices_closed hstack (by omega), by omega⟩
    · rw [if_neg hk] at haend
      have hi' : i ∉ s.openIndices := fun hmem =>
        hi ((mem_openIndices_closed hstack (Ne.symm hk)).mpr hmem)
      rw [haend, hbline]
      refine (h.ranges i j a' b' hij ha' hb' hi').imp_right fun ⟨hj, hle⟩ => ?_
      obtain ⟨hover, hsame⟩ := endLine_closed hstack hbend hj
      exact ⟨hover, hsame ▸ hle⟩
  · intro i a ha mark hmark
    obtain ⟨a', ha', haline, hamarks, haend⟩ := getElem?_closed ha
    rw [hamarks] at hmark
    obtain ⟨m, rfl, hle, hholds⟩ := h.marks i a' ha' mark hmark
    exact ⟨m, rfl, Nat.le_succ_of_le hle, holds_closed hstack haline haend hle hholds⟩

end Closed

/-! ### A declaration that grows -/

section Gained

variable {raw : List Char} {rest : List (List Char)} {skipped owner : Nat}
  {f : Declaration → Declaration}

/-- A declaration of the outcome has the range of one from before, and no marks but that one's, unless
it is the one that grew. -/
theorem getElem?_gained (hf : ∀ d : Declaration, d.Grows (n + 1) raw rest skipped (f d)) {j : Nat}
    {e : Declaration} (he : (s.update owner f).found[j]? = some e) :
    ∃ d, s.found[j]? = some d ∧ e.line = d.line ∧ e.endLine = d.endLine ∧
      ∀ mark ∈ e.marks, mark ∈ d.marks ∨ (j = owner ∧ mark = some (n + 1)) := by
  obtain ⟨d, hd, rfl⟩ := getElem?_update he
  refine ⟨d, hd, ?_⟩
  split
  · next hj =>
    exact ⟨(hf d).line, (hf d).endLine, fun mark hmark =>
      ((hf d).mem_marks hmark).imp_right fun hnew => ⟨hj.symm, hnew⟩⟩
  · exact ⟨rfl, rfl, fun mark hmark => .inl hmark⟩

/-- The innermost open declaration holds the line that is passed: all behind it is over. -/
theorem holds_line (h : s.Nested n) (howner : s.current? = some owner) {a : Declaration}
    (ha : s.found[owner]? = some a) : s.Holds owner a (n + 1) where
  below := Nat.lt_succ_of_le (h.framed.heads owner a ha)
  above hover := absurd (current?_mem howner) hover
  outside j e hij he := by
    have hspan := (h.spans e (List.mem_of_getElem? he)).2.2
    exact .inr ⟨h.not_open_of_lt (s.head?_openIndices.trans howner) hij, by omega⟩

/-- The innermost open declaration gains something on the line. -/
theorem gained (h : s.Nested n) (howner : s.current? = some owner)
    (hf : ∀ d : Declaration, d.Grows (n + 1) raw rest skipped (f d))
    (hframed : (s.update owner f).Framed (n + 1)) : (s.update owner f).Nested (n + 1) := by
  have hold := h.later (Nat.le_succ n)
  have hholds : ∀ {i m : Nat} {a a' : Declaration}, a.line = a'.line → a.endLine = a'.endLine →
      s.Holds i a' m → (s.update owner f).Holds i a m := by
    intro i m a a' hline hend hholds
    refine ⟨hline ▸ hholds.below, hend ▸ hholds.above, fun j e hij he => ?_⟩
    obtain ⟨e', he', heline, heend, -⟩ := getElem?_gained hf he
    rw [heline, heend]
    exact hholds.outside j e' hij he'
  refine ⟨hframed, ?_, ?_, ?_, h.inward, ?_, ?_⟩
  · intro i j a b hij ha hb
    exact h.ascending_update (fun d => (hf d).line) hij ha hb
  · refine forall_update hold.spans owner fun d _ hspan => ?_
    rw [(hf d).line, (hf d).endLine]
    exact hspan
  · exact forall_update h.keys owner fun d _ hkeys => (hf d).keys hkeys
  · intro i j a b hij ha hb hi
    obtain ⟨a', ha', -, haend, -⟩ := getElem?_gained hf ha
    obtain ⟨b', hb', hbline, hbend, -⟩ := getElem?_gained hf hb
    rw [haend, hbline, hbend]
    exact h.ranges i j a' b' hij ha' hb' hi
  · intro i a ha mark hmark
    obtain ⟨a', ha', haline, haend, hamarks⟩ := getElem?_gained hf ha
    rcases hamarks mark hmark with hknown | ⟨rfl, rfl⟩
    · obtain ⟨m, rfl, hle, hheld⟩ := h.marks i a' ha' mark hknown
      exact ⟨m, rfl, Nat.le_succ_of_le hle, hholds haline haend hheld⟩
    · exact ⟨n + 1, rfl, Nat.le_refl _, hholds haline haend (h.holds_line howner ha')⟩

end Gained

theorem step (h : s.Nested n) {raw : List Char} {rest : List (List Char)} {s' : Scan} {skipped : Nat}
    (hs : Step s (n + 1) raw rest s' skipped) : s'.Nested (n + 1) := by
  have hframed := h.framed.step hs
  cases hs.change with
  | same stack hstack => exact h.same hstack hframed
  | opened d stack hline hend hmembers hconstants hstack =>
    exact h.opened hline hend hmembers hconstants hstack hframed
  | closed i stack hstack => exact h.closed hstack hframed
  | gained owner f howner hf => exact h.gained howner hf hframed

end Nested

/-- The scan of a file knows no line behind its last one. -/
theorem nested_scanLines (all : List (List Char)) :
    ∃ n, n ≤ all.length ∧ (scanLines {} 0 all).Nested n := by
  have hstart : Nested {} 0 :=
    { framed := framed_empty
      ascending := fun _ _ _ _ _ h => by simp at h
      spans := fun _ h => absurd h List.not_mem_nil
      keys := fun _ h => absurd h List.not_mem_nil
      inward := List.Pairwise.nil
      ranges := fun _ _ _ _ _ h => by simp at h
      marks := fun _ _ h => by simp at h }
  have hrun := scanLines_invariant all (P := fun s n => s.Nested (min n all.length)) ?_ {} 0
    (hstart.later (Nat.zero_le _))
  · obtain ⟨last, hnested⟩ := hrun
    exact ⟨min last all.length, Nat.min_le_right _ _, hnested⟩
  · intro s n raw rest s' skipped hlines hs h
    have hlength := length_eq_of_drop hlines
    have hlt : n < all.length := by omega
    rw [Nat.min_eq_left (Nat.le_of_lt hlt)] at h
    exact (h.step hs).later (by omega)

end Scan

/-! ## Whole files -/

/-- **Nested ranges.** Whatever a source text looks like, the declarations of its outline stand in the
order of their heads, their ranges lie in the file and apart or one in the other, each holds a member
once, and the members and constants of one that was closed below its head stand between its head and
its end, outside the ranges in it. -/
theorem ofSource_wellNested (source : String) :
    WellNested (lines source.toList).length (ofSource source) := by
  obtain ⟨n, hn, hnested⟩ := Scan.nested_scanLines (lines source.toList)
  have hfound : ofSource source = (scanLines {} 0 (lines source.toList)).found := rfl
  rw [hfound]
  generalize scanLines {} 0 (lines source.toList) = s at hnested
  -- a declaration whose block is still open has no range but its head
  have hopen : ∀ {i : Nat} {d : Declaration}, s.found[i]? = some d → i ∈ s.openIndices →
      d.endLine = d.line := by
    intro i d hd hi
    obtain ⟨e, he, hline⟩ := hnested.framed.unended i hi
    cases hd.symm.trans he
    exact hline
  have hordered : ∀ {i j : Nat} {d e : Declaration}, i < j → s.found[i]? = some d →
      s.found[j]? = some e → d.Apart e ∨ e.Within d := by
    intro i j d e hij hd he
    have hlt := hnested.ascending i j d e hij hd he
    by_cases hi : i ∈ s.openIndices
    · left
      left
      rw [hopen hd hi]
      exact hlt
    · rcases hnested.ranges i j d e hij hd he hi with hapart | ⟨-, hle⟩
      · exact .inl (.inl hapart)
      · exact .inr ⟨Nat.le_of_lt hlt, hle⟩
  refine ⟨?_, ?_, ?_, hnested.keys, ?_⟩
  · refine List.pairwise_iff_getElem.mpr fun i j hi hj hij => ?_
    exact hnested.ascending i j _ _ hij (List.getElem?_eq_getElem hi) (List.getElem?_eq_getElem hj)
  · intro d hd
    obtain ⟨hpos, hle, hend⟩ := hnested.spans d hd
    exact ⟨hpos, hle, Nat.le_trans hend hn⟩
  · intro d hd e he
    obtain ⟨i, hi⟩ := List.getElem?_of_mem hd
    obtain ⟨j, hj⟩ := List.getElem?_of_mem he
    rcases Nat.lt_trichotomy i j with hij | rfl | hij
    · exact (hordered hij hi hj).imp_right .inr
    · cases hi.symm.trans hj
      exact .inr (.inl ⟨Nat.le_refl _, Nat.le_refl _⟩)
    · rcases hordered hij hj hi with hapart | hwithin
      · exact .inl hapart.symm
      · exact .inr (.inl hwithin)
  · intro d hd hclosed mark hmark
    obtain ⟨i, hi⟩ := List.getElem?_of_mem hd
    obtain ⟨m, rfl, -, hholds⟩ := hnested.marks i d hi mark hmark
    have hover : i ∉ s.openIndices := fun hmem => by
      have := hopen hi hmem
      omega
    refine ⟨m, rfl, hholds.below, hholds.above hover, ?_⟩
    rintro e he hne ⟨hhead, -⟩ ⟨hfrom, hto⟩
    obtain ⟨j, hj⟩ := List.getElem?_of_mem he
    -- a declaration with a later head is a later one
    have hij : i < j := by
      rcases Nat.lt_trichotomy i j with hij | rfl | hij
      · exact hij
      · cases hi.symm.trans hj
        exact absurd rfl hne
      · have := hnested.ascending j i e d hij hj hi
        omega
    rcases hholds.outside j e hij hj with hbefore | ⟨-, hbehind⟩
    · omega
    · omega

/-- A block without an end keeps all blocks around it open: none of them gets an end, and what follows
is declared inside. -/
example : (ofSource "class A\n  class B\n  def x\n  end\nend\nclass C\n  K = 1\nend\n").map
    (fun d => (d.name, d.line, d.endLine)) =
      [("A", 1, 1), ("A::B", 2, 2), ("A::B::C", 6, 8)] := by decide +kernel

end DocWeave.Outline
