import DocWeave.Outline.Scan

/-!
# A scan, step by step

Each line that a scan comes to does one of a few things to it (`Step`): it opens or closes a block, it
declares something in the innermost declaration that is open, or it does nothing. The heads of methods
and constants take further lines with them. Of the declarations found before, a step changes at most one
(`Step.finds`). A scan goes from line to line in this way (`Scan.next`, `scanLines_next`), so what every
step keeps, the scan keeps (`scanLines_invariant`).
-/

namespace DocWeave.Outline

open DocWeave.Text

/-- `Step s lineNo raw rest s' skipped`: the line `raw` of number `lineNo`, which the lines `rest`
follow, makes `s'` of the scan `s`, and `skipped` of the following lines are passed over. -/
inductive Step (s : Scan) (lineNo : Nat) (raw : List Char) (rest : List (List Char)) :
    Scan → Nat → Prop
  | pass : Step s lineNo raw rest s 0
  | close : isEnd (trim raw) = true →
      Step s lineNo raw rest (s.close (indentation raw) lineNo) 0
  | singleton : isSingletonHead (trim raw) = true →
      Step s lineNo raw rest (s.enter (trim raw) (.singleton (indentation raw))) 0
  | declare (head : SubjectHead) : subjectHead? (trim raw) = some head →
      Step s lineNo raw rest (s.declare head (trim raw) (indentation raw) lineNo) 0
  | define (owner : Nat) (head : MethodHead) : s.current? = some owner →
      methodHead? (trim raw) = some head →
      Step s lineNo raw rest (s.define owner head lineNo) (blockExtent raw rest)
  | constant (owner : Nat) (c : Constant) (skipped : Nat) : s.current? = some owner →
      methodHead? (trim raw) = none → c.line = some lineNo →
      Step s lineNo raw rest
        (s.update owner fun d => { d with constants := d.constants ++ [c] }) skipped
  | mixIn (owner : Nat) (names : List String) : s.current? = some owner →
      includedNames? (trim raw) = some names →
      Step s lineNo raw rest (s.update owner fun d => { d with includes := d.includes ++ names }) 0
  | declareMembers (owner : Nat) (word : String) (args : List Char) : s.current? = some owner →
      methodHead? (trim raw) = none → declaration? (trim raw) = some (word, args) →
      Step s lineNo raw rest
        (s.update owner fun d =>
          { d with members := (declaredNames word args).foldl (Scan.addDeclared lineNo) d.members }) 0

/-- The scan behind the line `raw` of number `lineNo`, which the lines `rest` follow, and how many of the
following lines are passed over. -/
def Scan.next (s : Scan) (lineNo : Nat) (raw : List Char) (rest : List (List Char)) : Scan × Nat :=
  let indent := indentation raw
  let line := trim raw
  if line.isEmpty || line.head? == some '#' then (s, 0)
  else if isEnd line then (s.close indent lineNo, 0)
  else if isSingletonHead line then (s.enter line (.singleton indent), 0)
  else match subjectHead? line with
    | some head => (s.declare head line indent lineNo, 0)
    | none =>
      match s.current? with
      | none => (s, 0)
      | some owner =>
        match methodHead? line with
        | some head => (s.define owner head lineNo, blockExtent raw rest)
        | none =>
          match constantHead? line with
          | some (name, text) =>
            let (full, skipped) := gather (trim text) rest
            let constant : Constant :=
              { name := String.ofList name, value := literalValue (String.ofList full),
                line := some lineNo }
            (s.update owner fun d => { d with constants := d.constants ++ [constant] }, skipped)
          | none =>
            match includedNames? line with
            | some names => (s.update owner fun d => { d with includes := d.includes ++ names }, 0)
            | none =>
              match declaration? line with
              | some (word, args) =>
                let names := declaredNames word args
                (s.update owner fun d =>
                  { d with members := names.foldl (Scan.addDeclared lineNo) d.members }, 0)
              | none => (s, 0)

/-- A scan takes its lines one after the other. -/
theorem scanLines_next (s : Scan) (n : Nat) (raw : List Char) (rest : List (List Char)) :
    scanLines s n (raw :: rest) =
      scanLines (s.next (n + 1) raw rest).1 (n + 1 + (s.next (n + 1) raw rest).2)
        (rest.drop (s.next (n + 1) raw rest).2) := by
  rw [scanLines, Scan.next]
  dsimp only
  split
  · rfl
  split
  · rfl
  split
  · rfl
  cases subjectHead? (trim raw) with
  | some head => rfl
  | none =>
    cases s.current? with
    | none => rfl
    | some owner =>
      cases methodHead? (trim raw) with
      | some head => rfl
      | none =>
        cases constantHead? (trim raw) with
        | some constant => rfl
        | none =>
          cases includedNames? (trim raw) with
          | some names => rfl
          | none => cases declaration? (trim raw) <;> rfl

/-- What becomes of a scan on a line is a step. -/
theorem step_next (s : Scan) (lineNo : Nat) (raw : List Char) (rest : List (List Char)) :
    Step s lineNo raw rest (s.next lineNo raw rest).1 (s.next lineNo raw rest).2 := by
  rw [Scan.next]
  dsimp only
  split
  · exact .pass
  split
  · next hend => exact .close hend
  split
  · next hsingle => exact .singleton hsingle
  split
  · next head hhead => exact .declare head hhead
  split
  · exact .pass
  · next owner howner =>
    split
    · next head hhead => exact .define owner head howner hhead
    · next hmethod =>
      split
      · next name text _ => exact .constant owner _ _ howner hmethod rfl
      · split
        · next names hnames => exact .mixIn owner names howner hnames
        · split
          · next word args hargs => exact .declareMembers owner word args howner hmethod hargs
          · exact .pass

/-! ## What a step does to the declarations -/

/-- What the line `raw` of number `lineNo` makes of the members of the declaration of number `i`: it leaves
them as they are, or it is the head of a method of the innermost open one, or it declares names there. -/
inductive Scan.Adds (s : Scan) (lineNo : Nat) (raw : List Char) (i : Nat) :
    (List Member → List Member) → Prop
  | nothing : s.Adds lineNo raw i id
  | method (head : MethodHead) : s.current? = some i → methodHead? (trim raw) = some head →
      head.name.toList.getLast? ≠ some '=' →
      s.Adds lineNo raw i fun members => upsertMember
        { name := head.name
          kind := if head.onSelf || s.inSingleton then MemberKind.onClass else .onInstance
          line := some lineNo } members
  | declared (word : String) (args : List Char) : s.current? = some i →
      declaration? (trim raw) = some (word, args) →
      s.Adds lineNo raw i fun members => (declaredNames word args).foldl (Scan.addDeclared lineNo) members

/-- What the line `raw` of number `lineNo` makes of the declarations found so far: it adds none, or a new
one without members, or it changes one of them, whose name and line stay. -/
inductive Scan.Finds (s : Scan) (lineNo : Nat) (raw : List Char) : List Declaration → Prop
  | same : s.Finds lineNo raw s.found
  | opened (head : SubjectHead) (d : Declaration) : subjectHead? (trim raw) = some head →
      d.name = s.qualify head.name → d.line = lineNo → d.members = [] →
      s.Finds lineNo raw (s.found ++ [d])
  | changed (i : Nat) (f : Declaration → Declaration) (g : List Member → List Member) :
      (∀ d, (f d).name = d.name ∧ (f d).line = d.line ∧ (f d).members = g d.members) →
      s.Adds lineNo raw i g → s.Finds lineNo raw (s.found.modify i f)

theorem Scan.found_enter (s : Scan) (line : List Char) (frame : Frame) :
    (s.enter line frame).found = s.found := by
  unfold enter
  split <;> rfl

theorem Scan.found_close (s : Scan) (indent lineNo : Nat) : (s.close indent lineNo).found = s.found ∨
    ∃ i, (s.close indent lineNo).found = s.found.modify i fun d => { d with endLine := lineNo } := by
  unfold close
  split
  · split
    · dsimp only
      split
      · exact .inr ⟨_, rfl⟩
      · exact .inl rfl
    · exact .inl rfl
  · exact .inl rfl

/-- What a step makes of the declarations, whatever it does to the open blocks. -/
theorem Step.finds {s s' : Scan} {lineNo skipped : Nat} {raw : List Char} {rest : List (List Char)}
    (h : Step s lineNo raw rest s' skipped) : s.Finds lineNo raw s'.found := by
  cases h with
  | pass => exact .same
  | close _ =>
    rcases s.found_close (indentation raw) lineNo with hfound | ⟨i, hfound⟩
    · rw [hfound]
      exact .same
    · rw [hfound]
      exact .changed i _ id (fun _ => ⟨rfl, rfl, rfl⟩) .nothing
  | singleton _ =>
    rw [Scan.found_enter]
    exact .same
  | declare head hhead =>
    rw [Scan.declare, Scan.found_enter]
    exact .opened head _ hhead rfl rfl rfl
  | define owner head howner hhead =>
    unfold Scan.define
    dsimp only
    split
    · exact .same
    · next hassigns =>
      exact .changed owner _ _ (fun _ => ⟨rfl, rfl, rfl⟩) (.method head howner hhead hassigns)
  | constant owner c _ _ _ _ => exact .changed owner _ id (fun _ => ⟨rfl, rfl, rfl⟩) .nothing
  | mixIn owner names _ _ => exact .changed owner _ id (fun _ => ⟨rfl, rfl, rfl⟩) .nothing
  | declareMembers owner word args howner _ hargs =>
    exact .changed owner _ _ (fun _ => ⟨rfl, rfl, rfl⟩) (.declared word args howner hargs)

/-! ## From line to line -/

theorem length_eq_of_drop {all rest : List (List Char)} {n : Nat} {raw : List Char}
    (h : all.drop n = raw :: rest) : all.length = n + 1 + rest.length := by
  have hlength := congrArg List.length h
  rw [List.length_drop, List.length_cons] at hlength
  omega

/-- What follows a line and some further ones. -/
theorem drop_behind {all rest : List (List Char)} {n : Nat} {raw : List Char}
    (h : all.drop n = raw :: rest) (k : Nat) : rest.drop k = all.drop (n + 1 + k) := by
  have htail : rest = all.drop (n + 1) := by
    rw [← List.tail_drop, h, List.tail_cons]
  rw [htail, List.drop_drop]

/-- What holds of a scan that has passed the first `n` lines, and goes on to hold line by line, holds when
all lines are passed. -/
theorem scanLines_induction (all : List (List Char)) {P : Scan → Nat → Prop}
    (hnext : ∀ s n raw rest, all.drop n = raw :: rest → P s n →
      P (s.next (n + 1) raw rest).1 (n + 1 + (s.next (n + 1) raw rest).2))
    (s : Scan) (n : Nat) (h : P s n) : ∃ last, P (scanLines s n (all.drop n)) last := by
  -- the lines that are left get fewer with each step
  generalize hleft : (all.drop n).length = left
  induction left using Nat.strongRecOn generalizing s n with
  | ind left ih =>
    cases hlines : all.drop n with
    | nil =>
      rw [scanLines]
      exact ⟨n, h⟩
    | cons raw rest =>
      rw [scanLines_next, drop_behind hlines]
      refine ih _ ?_ _ _ (hnext s n raw rest hlines h) rfl
      rw [← drop_behind hlines, List.length_drop, ← hleft, hlines, List.length_cons]
      omega

/-- What every step keeps, the scan of all lines keeps. The invariant speaks of a scan that has passed
the first `n` of these lines. -/
theorem scanLines_invariant (all : List (List Char)) {P : Scan → Nat → Prop}
    (hstep : ∀ s n raw rest s' skipped, all.drop n = raw :: rest →
      Step s (n + 1) raw rest s' skipped → P s n → P s' (n + 1 + skipped))
    (s : Scan) (n : Nat) (h : P s n) : ∃ last, P (scanLines s n (all.drop n)) last :=
  scanLines_induction all
    (fun s n raw rest hlines => hstep s n raw rest _ _ hlines (step_next s (n + 1) raw rest)) s n h

end DocWeave.Outline
