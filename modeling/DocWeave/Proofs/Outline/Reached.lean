import DocWeave.Proofs.Outline.Places

/-!
# Where a scan comes

A scan passes over blocks of methods and statements of constants, so it does not come to every line.
`Reaches` says to which places it comes and what it has found there. The way to a place depends on no
line behind it (`Reaches.congr`). What is found stays found: a declaration keeps its line and the names
and kinds of its members until the end (`Reaches.keeps`).
-/

namespace DocWeave.Outline

open DocWeave.Text

/-- The scan of all these lines comes to the place behind the first `n`, and is `s` there. -/
inductive Reaches (all : List (List Char)) : Scan → Nat → Prop
  | start : Reaches all {} 0
  | next {s : Scan} {n : Nat} {raw : List Char} {rest : List (List Char)} : Reaches all s n →
      all.drop n = raw :: rest →
      Reaches all (s.next (n + 1) raw rest).1 (n + 1 + (s.next (n + 1) raw rest).2)

variable {all : List (List Char)} {s : Scan} {n : Nat}

/-- From a place that the scan comes to it goes on. -/
theorem Reaches.scanLines_eq (h : Reaches all s n) :
    scanLines {} 0 all = scanLines s n (all.drop n) := by
  induction h with
  | start => rw [List.drop_zero]
  | next _ hlines ih => rw [ih, hlines, scanLines_next, drop_behind hlines]

/-- What the beginning has and every step keeps holds wherever the scan comes. -/
theorem Reaches.invariant {P : Scan → Nat → Prop} (h : Reaches all s n) (hstart : P {} 0)
    (hstep : ∀ s n raw rest s' skipped, all.drop n = raw :: rest →
      Step s (n + 1) raw rest s' skipped → P s n → P s' (n + 1 + skipped)) : P s n := by
  induction h with
  | start => exact hstart
  | next _ hlines ih => exact hstep _ _ _ _ _ _ hlines (step_next _ _ _ _) ih

/-- What holds at a place, and goes on to hold line by line, holds of what is found in the end. -/
theorem Reaches.induction {P : Scan → Nat → Prop} (h : Reaches all s n) (hs : P s n)
    (hnext : ∀ s n raw rest, Reaches all s n → all.drop n = raw :: rest → P s n →
      P (s.next (n + 1) raw rest).1 (n + 1 + (s.next (n + 1) raw rest).2)) :
    ∃ t last, Reaches all t last ∧ P t last ∧ ofLines all = t.found := by
  obtain ⟨last, hreach, hlast⟩ := scanLines_induction all (P := fun s n => Reaches all s n ∧ P s n)
    (fun s n raw rest hlines ⟨hreach, hs⟩ => ⟨hreach.next hlines, hnext s n raw rest hreach hlines hs⟩)
    s n ⟨h, hs⟩
  exact ⟨_, last, hreach, hlast, by rw [ofLines, h.scanLines_eq]⟩

theorem Reaches.framed (h : Reaches all s n) : s.Framed n :=
  h.invariant Scan.framed_empty fun _ _ _ _ _ _ _ hs hframed =>
    (hframed.step hs).later (Nat.le_add_right _ _)

/-- A declaration that is open has been found. -/
theorem Reaches.exists_current (h : Reaches all s n) {owner : Nat} (howner : s.current? = some owner) :
    ∃ d, s.found[owner]? = some d := by
  obtain ⟨d, hd, -⟩ := h.framed.unended owner (Scan.current?_mem howner)
  exact ⟨d, hd⟩

/-! ## Lines that name members -/

/-- A line that begins with one of these letters is neither blank nor a comment, and it is none of those
that begin with a word of another kind. -/
theorem other_of_head {c : Char} (hc : c = 'a' ∨ c = 'd') (line : List Char) :
    ((c :: line).isEmpty || (c :: line).head? == some '#') = false ∧ isEnd (c :: line) = false ∧
      isSingletonHead (c :: line) = false ∧ subjectHead? (c :: line) = none ∧
      constantHead? (c :: line) = none ∧ includedNames? (c :: line) = none := by
  rcases hc with rfl | rfl <;> exact ⟨rfl, rfl, rfl, rfl, rfl, rfl⟩

theorem head_of_methodHead? {line : List Char} {head : MethodHead} (h : methodHead? line = some head) :
    ∃ behind, line = 'd' :: behind := by
  obtain ⟨s, hs, -⟩ := Option.bind_eq_some_iff.mp h
  obtain ⟨behind, hbehind, -⟩ := Option.bind_eq_some_iff.mp hs
  exact ⟨_, after?_eq_some_iff.mp hbehind⟩

theorem head_of_declaration? {line : List Char} {word : String} {args : List Char}
    (h : declaration? line = some (word, args)) :
    methodHead? line = none ∧ ∃ c behind, line = c :: behind ∧ (c = 'a' ∨ c = 'd') := by
  obtain ⟨declarator, hmem, h⟩ := List.exists_of_findSome?_eq_some h
  split at h
  · next hword =>
    obtain ⟨behind, hbehind, -⟩ := Option.bind_eq_some_iff.mp hword
    obtain rfl := after?_eq_some_iff.mp hbehind
    simp only [declarators, List.mem_cons, List.not_mem_nil, or_false] at hmem
    rcases hmem with rfl | rfl | rfl | rfl | rfl | rfl | rfl
    · exact ⟨rfl, _, _, rfl, .inl rfl⟩
    · exact ⟨rfl, _, _, rfl, .inl rfl⟩
    · exact ⟨rfl, _, _, rfl, .inl rfl⟩
    · exact ⟨rfl, _, _, rfl, .inl rfl⟩
    · exact ⟨rfl, _, _, rfl, .inr rfl⟩
    · exact ⟨rfl, _, _, rfl, .inr rfl⟩
    · exact ⟨rfl, _, _, rfl, .inr rfl⟩
  · cases h

section

variable {owner lineNo : Nat} {raw : List Char}

/-- The head of a method inside a declaration. -/
theorem Scan.next_define (howner : s.current? = some owner) {head : MethodHead}
    (hhead : methodHead? (trim raw) = some head) (rest : List (List Char)) :
    s.next lineNo raw rest = (s.define owner head lineNo, blockExtent raw rest) := by
  obtain ⟨behind, hline⟩ := head_of_methodHead? hhead
  obtain ⟨hblank, hend, hsingle, hsubject, -⟩ := other_of_head (.inr rfl) behind
  rw [← hline] at hblank hend hsingle hsubject
  simp only [next, hblank, hend, hsingle, hsubject, howner, hhead, Bool.false_eq_true, if_false]

/-- A line inside a declaration that declares members. -/
theorem Scan.next_declareMembers (howner : s.current? = some owner) {word : String} {args : List Char}
    (hdecl : declaration? (trim raw) = some (word, args)) (rest : List (List Char)) :
    s.next lineNo raw rest = (s.update owner fun d =>
      { d with members := (declaredNames word args).foldl (Scan.addDeclared lineNo) d.members }, 0) := by
  obtain ⟨hmethod, c, behind, hline, hc⟩ := head_of_declaration? hdecl
  obtain ⟨hblank, hend, hsingle, hsubject, hconstant, hinclude⟩ := other_of_head hc behind
  rw [← hline] at hblank hend hsingle hsubject hconstant hinclude
  simp only [next, hblank, hend, hsingle, hsubject, howner, hmethod, hconstant, hinclude, hdecl,
    Bool.false_eq_true, if_false]

end

/-! ## No line behind a place matters -/

theorem blockLength_congr {indent : Nat} {rest rest' : List (List Char)}
    (hlt : blockLength indent rest < rest.length)
    (hsame : rest'.take (blockLength indent rest) = rest.take (blockLength indent rest)) :
    blockLength indent rest' = blockLength indent rest := by
  induction rest generalizing rest' with
  | nil => cases hlt
  | cons l ls ih =>
    rw [blockLength] at hlt hsame ⊢
    cases rest' with
    | nil =>
      -- at least the first line belongs to the block
      split at hsame
      · cases hsame
      · rw [Nat.add_comm 1] at hsame
        cases hsame
    | cons l' ls' =>
      rw [blockLength]
      split at hlt
      · next hcloses =>
        rw [if_pos hcloses] at hsame ⊢
        obtain ⟨rfl, -⟩ := List.cons.inj hsame
        rw [if_pos hcloses]
      · next hopen =>
        rw [if_neg hopen, Nat.add_comm 1] at hsame
        obtain ⟨rfl, hrest⟩ := List.cons.inj hsame
        rw [if_neg hopen, if_neg hopen]
        rw [List.length_cons, Nat.add_comm 1] at hlt
        rw [ih (Nat.lt_of_succ_lt_succ hlt) hrest]

theorem blockExtent_congr {raw : List Char} {rest rest' : List (List Char)}
    (hlt : blockExtent raw rest < rest.length)
    (hsame : rest'.take (blockExtent raw rest) = rest.take (blockExtent raw rest)) :
    blockExtent raw rest' = blockExtent raw rest := by
  unfold blockExtent at hlt hsame ⊢
  split
  · rfl
  · next hblock =>
    rw [if_neg hblock] at hlt hsame
    exact blockLength_congr hlt hsame

theorem gather_congr {text : List Char} {rest rest' : List (List Char)}
    (hlt : (gather text rest).2 < rest.length)
    (hsame : rest'.take (gather text rest).2 = rest.take (gather text rest).2) :
    gather text rest' = gather text rest := by
  induction rest generalizing text rest' with
  | nil => cases hlt
  | cons l ls ih =>
    rw [gather] at hlt hsame ⊢
    by_cases hopen : 0 < bracketDepth text
    · rw [if_pos hopen] at hlt hsame ⊢
      cases rest' with
      | nil => cases hsame
      | cons l' ls' =>
        obtain ⟨rfl, hrest⟩ := List.cons.inj hsame
        rw [gather, if_pos hopen, ih (Nat.lt_of_succ_lt_succ hlt) hrest]
    · rw [if_neg hopen]
      cases rest' with
      | nil => rfl
      | cons l' ls' => rw [gather, if_neg hopen]

/-- What becomes of a scan on a line depends on the lines that are passed over with it, unless they are
all that is left. -/
theorem Scan.next_congr {lineNo : Nat} {raw : List Char} {rest rest' : List (List Char)}
    (hlt : (s.next lineNo raw rest).2 < rest.length)
    (hsame : rest'.take (s.next lineNo raw rest).2 = rest.take (s.next lineNo raw rest).2) :
    s.next lineNo raw rest' = s.next lineNo raw rest := by
  unfold Scan.next at hlt hsame ⊢
  dsimp only at hlt hsame ⊢
  split
  · rfl
  next hblank =>
  rw [if_neg hblank] at hlt hsame
  split
  · rfl
  next hend =>
  rw [if_neg hend] at hlt hsame
  split
  · rfl
  next hsingle =>
  rw [if_neg hsingle] at hlt hsame
  cases hsubject : subjectHead? (trim raw) with
  | some head => rfl
  | none =>
    cases howner : s.current? with
    | none => rfl
    | some owner =>
      cases hmethod : methodHead? (trim raw) with
      | some head =>
        simp only [hsubject, howner, hmethod] at hlt hsame ⊢
        rw [blockExtent_congr hlt hsame]
      | none =>
        cases hconstant : constantHead? (trim raw) with
        | some constant =>
          simp only [hsubject, howner, hmethod, hconstant] at hlt hsame ⊢
          rw [gather_congr hlt hsame]
        | none =>
          cases includedNames? (trim raw) with
          | some names => rfl
          | none => cases declaration? (trim raw) <;> rfl

/-- The way to a line is that of any file with the same lines before it. -/
theorem Reaches.congr (h : Reaches all s n) (hlt : n < all.length) {all' : List (List Char)}
    (hsame : all'.take n = all.take n) : Reaches all' s n := by
  induction h with
  | start => exact .start
  | @next s n raw rest _ hlines ih =>
    generalize hnext : s.next (n + 1) raw rest = out at hlt hsame ⊢
    have hlength := length_eq_of_drop hlines
    have hbefore : all'.take n = all.take n := by
      have := congrArg (List.take n) hsame
      rwa [List.take_take, List.take_take, Nat.min_eq_left (by omega)] at this
    -- the line itself and what is passed over with it are the same as well
    have hdrop : (all'.drop n).take (out.2 + 1) = raw :: rest.take out.2 := by
      have := congrArg (List.drop n) hsame
      rw [List.drop_take, List.drop_take, hlines, show n + 1 + out.2 - n = out.2 + 1 by omega] at this
      rw [this, List.take_succ_cons]
    cases hlines' : all'.drop n with
    | nil =>
      rw [hlines'] at hdrop
      cases hdrop
    | cons raw' rest' =>
      rw [hlines', List.take_succ_cons] at hdrop
      obtain ⟨rfl, hrest⟩ := List.cons.inj hdrop
      have hnext' : s.next (n + 1) raw' rest' = out := by
        rw [← hnext]
        exact Scan.next_congr (by rw [hnext]; omega) (by rw [hnext]; exact hrest)
      have hreach := (ih (by omega) hbefore).next hlines'
      rwa [hnext'] at hreach

/-! ## What is found stays found -/

/-- The names and kinds of the members of a declaration. -/
def Declaration.keys (d : Declaration) : List (String × MemberKind) := d.members.map Member.key

/-- A later state of a declaration: the same name on the same line, with at least the same members. -/
structure Declaration.Keeps (d d' : Declaration) : Prop where
  name : d'.name = d.name
  line : d'.line = d.line
  keys : d.keys ⊆ d'.keys

namespace Declaration.Keeps

variable {d e f : Declaration}

theorem refl (d : Declaration) : d.Keeps d := ⟨rfl, rfl, List.Subset.refl _⟩

theorem trans (h : d.Keeps e) (h' : e.Keeps f) : d.Keeps f :=
  ⟨h'.name.trans h.name, h'.line.trans h.line, List.Subset.trans h.keys h'.keys⟩

end Declaration.Keeps

theorem subset_foldl_addDeclared (line : Nat) (names : List String) (members : List Member) :
    members ⊆ names.foldl (Scan.addDeclared line) members := by
  induction names generalizing members with
  | nil => exact List.Subset.refl _
  | cons name names ih =>
    refine List.Subset.trans ?_ (ih _)
    unfold Scan.addDeclared
    split
    · exact List.Subset.refl _
    · exact List.subset_append_left _ _

/-- No line takes a member away. -/
theorem Scan.Adds.keys_subset {raw : List Char} {i : Nat} {g : List Member → List Member}
    (h : s.Adds n raw i g) (members : List Member) :
    members.map Member.key ⊆ (g members).map Member.key := by
  cases h with
  | nothing => exact List.Subset.refl _
  | method head _ _ _ => exact fun _ hkey => mem_keys_upsertMember.mpr (.inl hkey)
  | declared word args _ _ => exact List.map_subset _ (subset_foldl_addDeclared n _ members)

/-- A declaration that is not the one that changes stays as it is. -/
theorem Scan.exists_keeps_update {i j : Nat} {f : Declaration → Declaration} {d : Declaration}
    (hd : s.found[j]? = some d) (hf : ∀ d : Declaration, d.Keeps (f d)) :
    ∃ d', (s.update i f).found[j]? = some d' ∧ d.Keeps d' := by
  refine ⟨if i = j then f d else d, ?_, ?_⟩
  · rw [update, List.getElem?_modify, hd]
    rfl
  · split
    · exact hf d
    · exact .refl d

/-- The head of a class or module is found on its line, without members. -/
theorem Scan.found_declare (s : Scan) (head : SubjectHead) (line : List Char) (indent lineNo : Nat) :
    ∃ e : Declaration, (s.declare head line indent lineNo).found = s.found ++ [e] ∧ e.line = lineNo ∧
      e.members = [] :=
  ⟨_, found_enter _ _ _, rfl, rfl⟩

theorem Step.keeps {s' : Scan} {skipped : Nat} {raw : List Char} {rest : List (List Char)}
    (h : Step s n raw rest s' skipped) {i : Nat} {d : Declaration} (hd : s.found[i]? = some d) :
    ∃ d', s'.found[i]? = some d' ∧ d.Keeps d' := by
  have hfinds := h.finds
  generalize s'.found = found at hfinds ⊢
  cases hfinds with
  | same => exact ⟨d, hd, .refl d⟩
  | opened head e _ _ _ _ =>
    exact ⟨d, by rw [List.getElem?_append_left (List.getElem?_eq_some_iff.mp hd).1, hd], .refl d⟩
  | changed owner f g hf hadds =>
    refine Scan.exists_keeps_update hd fun e => ⟨(hf e).1, (hf e).2.1, ?_⟩
    rw [Declaration.keys, Declaration.keys, (hf e).2.2]
    exact hadds.keys_subset e.members

/-- What is found on the way is there in the end. -/
theorem Reaches.keeps (h : Reaches all s n) {i : Nat} {d : Declaration} (hd : s.found[i]? = some d) :
    ∃ d', (ofLines all)[i]? = some d' ∧ d.Keeps d' := by
  obtain ⟨t, _, -, hlast, hfound⟩ := h.induction
    (P := fun t _ => ∃ e, t.found[i]? = some e ∧ d.Keeps e) ⟨d, hd, .refl d⟩
    fun t m raw rest _ _ ⟨e, he, hkeeps⟩ => by
      obtain ⟨e', he', hkeeps'⟩ := (step_next t (m + 1) raw rest).keeps he
      exact ⟨e', he', hkeeps.trans hkeeps'⟩
  exact hfound ▸ hlast

end DocWeave.Outline
