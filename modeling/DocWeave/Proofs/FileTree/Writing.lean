import DocWeave.FileTree
import DocWeave.Proofs.OrderedMap
import DocWeave.Proofs.Stateful

/-!
# What a write changes

A path that can be followed leads to a place that the path alone determines (`Path.destination?`). More
folders make more paths lead somewhere and change none of those that do already. A file that is written
is read back at its path; nothing changes at any other place, and no folder goes away (`write_spec`).
-/

namespace DocWeave

/-! ## Where a path leads -/

namespace Path

/-- Where one part of a path leads; nowhere above the top. -/
def step? (here : List String) (part : String) : Option (List String) :=
  if part == "" || part == "." then some here
  else if part == ".." then if here.isEmpty then none else some here.dropLast
  else some (here ++ [part])

/-- Where a path leads if all folders on the way are there. -/
def destination? (path : String) : Option (List String) :=
  if path.isEmpty || isAbsolute path then none else (parts path).foldlM step? []

end Path

namespace FileTree

variable {t u v : FileTree} {path text : String} {here there folder parts : List String}

/-- A part is followed from a folder. -/
theorem follow_cons_eq_ok_iff {part : String} :
    t.follow here (part :: parts) = .ok there ↔
      t.isFolder here = true ∧ ∃ next, Path.step? here part = some next ∧
        t.follow next parts = .ok there := by
  rw [FileTree.follow, Path.step?]
  by_cases hhere : t.isFolder here = true
  · rw [if_pos hhere]
    by_cases hstay : (part == "" || part == ".") = true
    · simp [hstay, hhere]
    · by_cases hback : (part == "..") = true
      · by_cases htop : here.isEmpty = true <;> simp [hstay, hback, htop, hhere]
      · simp [hstay, hback, hhere]
  · rw [if_neg hhere]
    refine iff_of_false ?_ fun h => hhere h.1
    split <;> simp

theorem follow_append {front back : List String} (hfront : t.follow here front = .ok folder)
    (hback : t.follow folder back = .ok there) : t.follow here (front ++ back) = .ok there := by
  induction front generalizing here with
  | nil =>
    cases hfront
    exact hback
  | cons part rest ih =>
    obtain ⟨hhere, next, hstep, hnext⟩ := follow_cons_eq_ok_iff.mp hfront
    exact follow_cons_eq_ok_iff.mpr ⟨hhere, next, hstep, ih hnext⟩

theorem foldlM_step?_of_follow (h : t.follow here parts = .ok there) :
    parts.foldlM Path.step? here = some there := by
  induction parts generalizing here with
  | nil =>
    cases h
    rfl
  | cons part rest ih =>
    obtain ⟨-, next, hstep, hnext⟩ := follow_cons_eq_ok_iff.mp h
    rw [List.foldlM_cons, hstep]
    exact ih hnext

theorem place_eq_ok_iff :
    t.place path = .ok there ↔
      (path.isEmpty || Path.isAbsolute path) = false ∧ t.follow [] (Path.parts path) = .ok there := by
  unfold FileTree.place
  cases path.isEmpty || Path.isAbsolute path <;> simp

/-- The place that a path leads to depends on the path alone. -/
theorem destination?_of_place (h : t.place path = .ok there) :
    Path.destination? path = some there := by
  obtain ⟨hpath, hfollow⟩ := place_eq_ok_iff.mp h
  rw [Path.destination?, hpath]
  exact foldlM_step?_of_follow hfollow

/-- A file is read where its path leads. -/
theorem read_of_place (h : t.place path = .ok there) (htext : t.files.get? there = some text) :
    t.read path = .ok text := by
  simp only [FileTree.read, h, bind, Except.bind, htext]

theorem place_of_read (h : t.read path = .ok text) :
    ∃ there, t.place path = .ok there ∧ t.files.get? there = some text := by
  obtain ⟨there, hplace, h⟩ := Stateful.bind_eq_ok h
  cases hfound : t.files.get? there with
  | none =>
    rw [hfound] at h
    cases h
  | some found =>
    rw [hfound] at h
    cases h
    exact ⟨there, hplace, hfound⟩

/-! ## More folders -/

/-- Every folder of one tree is one of the other. -/
def FoldersIn (t u : FileTree) : Prop := ∀ place, t.isFolder place = true → u.isFolder place = true

theorem FoldersIn.refl (t : FileTree) : t.FoldersIn t := fun _ h => h

theorem FoldersIn.trans (h : t.FoldersIn u) (h' : u.FoldersIn v) : t.FoldersIn v :=
  fun place hplace => h' place (h place hplace)

theorem FoldersIn.follow (h : t.FoldersIn u) (hfollow : t.follow here parts = .ok there) :
    u.follow here parts = .ok there := by
  induction parts generalizing here with
  | nil => exact hfollow
  | cons part rest ih =>
    obtain ⟨hhere, next, hstep, hnext⟩ := follow_cons_eq_ok_iff.mp hfollow
    exact follow_cons_eq_ok_iff.mpr ⟨h here hhere, next, hstep, ih hnext⟩

/-- A path that leads somewhere still leads there when there are more folders. -/
theorem FoldersIn.place (h : t.FoldersIn u) (hplace : t.place path = .ok there) :
    u.place path = .ok there := by
  obtain ⟨hpath, hfollow⟩ := place_eq_ok_iff.mp hplace
  exact place_eq_ok_iff.mpr ⟨hpath, h.follow hfollow⟩

/-! ## Making folders -/

/-- The place is a folder, and so are all places above it. -/
def Rooted (t : FileTree) (here : List String) : Prop :=
  ∀ above, above <+: here → t.isFolder above = true

theorem Rooted.isFolder (h : t.Rooted here) : t.isFolder here = true := h here List.prefix_rfl

theorem rooted_nil (t : FileTree) : t.Rooted [] := by
  intro above habove
  rw [List.prefix_nil.mp habove]
  rfl

theorem Rooted.dropLast (h : t.Rooted here) : t.Rooted here.dropLast :=
  fun above habove => h above (habove.trans (List.dropLast_prefix here))

theorem Rooted.concat {part : String} (h : t.Rooted here)
    (hpart : t.isFolder (here ++ [part]) = true) : t.Rooted (here ++ [part]) := by
  intro above habove
  rcases List.prefix_concat_iff.mp habove with rfl | habove
  · exact hpart
  · exact h above habove

theorem Rooted.mono (h : t.Rooted here) (hin : t.FoldersIn u) : u.Rooted here :=
  fun above habove => hin above (h above habove)

/-- The tree with one more folder. -/
def withFolder (t : FileTree) (place : List String) : FileTree :=
  { t with folders := t.folders ++ [place] }

theorem foldersIn_withFolder (t : FileTree) (place : List String) :
    t.FoldersIn (t.withFolder place) := by
  intro other hother
  simp only [FileTree.isFolder, withFolder, Bool.or_eq_true, List.contains_eq_mem,
    decide_eq_true_eq, List.mem_append] at hother ⊢
  exact hother.imp_right Or.inl

theorem isFolder_withFolder (t : FileTree) (place : List String) :
    (t.withFolder place).isFolder place = true := by
  simp [FileTree.isFolder, withFolder]

/-- What making the folders along some parts gives: the same files, no fewer folders, and parts that
lead to a folder. -/
structure Opens (t u : FileTree) (here parts folder : List String) : Prop where
  files : u.files = t.files
  folders : t.FoldersIn u
  follows : u.follow here parts = .ok folder
  rooted : u.Rooted folder

/-- One part more in front. -/
theorem Opens.cons {part : String} {next : List String} (h : u.Opens v next parts folder)
    (hfiles : u.files = t.files) (hin : t.FoldersIn u) (hhere : t.isFolder here = true)
    (hstep : Path.step? here part = some next) : t.Opens v here (part :: parts) folder where
  files := h.files.trans hfiles
  folders := hin.trans h.folders
  follows := follow_cons_eq_ok_iff.mpr ⟨h.folders here (hin here hhere), next, hstep, h.follows⟩
  rooted := h.rooted

theorem opens_makeFolders (hhere : Rooted t here)
    (h : t.makeFolders here parts = .ok (u, folder)) : t.Opens u here parts folder := by
  induction parts generalizing t here with
  | nil =>
    cases h
    exact ⟨rfl, .refl _, rfl, hhere⟩
  | cons part rest ih =>
    unfold makeFolders at h
    split at h
    · next hstay =>
      exact (ih hhere h).cons rfl (.refl t) hhere.isFolder (if_pos hstay)
    · next hstep =>
      split at h
      · next hback =>
        split at h
        · cases h
        · next hbelow =>
          refine (ih hhere.dropLast h).cons rfl (.refl t) hhere.isFolder ?_
          rw [Path.step?, if_neg hstep, if_pos hback, if_neg hbelow]
      · next hdown =>
        have hnext : Path.step? here part = some (here ++ [part]) := by
          rw [Path.step?, if_neg hstep, if_neg hdown]
        dsimp only at h
        split at h
        · cases h
        · split at h
          · next hthere =>
            exact (ih (hhere.concat hthere) h).cons rfl (.refl t) hhere.isFolder hnext
          · have hmore := foldersIn_withFolder t (here ++ [part])
            have hrooted := (hhere.mono hmore).concat (isFolder_withFolder t _)
            exact (ih hrooted h).cons rfl hmore hhere.isFolder hnext

/-! ## Writing -/

/-- One tree is the other with a text at a place. -/
structure Wrote (t u : FileTree) (there : List String) (text : String) : Prop where
  here : u.files.get? there = some text
  elsewhere : ∀ other, other ≠ there → u.files.get? other = t.files.get? other
  folders : t.FoldersIn u

/-- A file that is there already need not be written. -/
theorem Wrote.of_get? (h : t.files.get? there = some text) : t.Wrote t there text :=
  ⟨h, fun _ _ => rfl, .refl t⟩

/-- The name of a file leads from its folder to its place. -/
theorem follow_name {name : String} (hfolder : t.isFolder folder = true)
    (hname : (name == "" || name == "." || name == "..") = false) :
    t.follow folder [name] = .ok (folder ++ [name]) := by
  refine follow_cons_eq_ok_iff.mpr ⟨hfolder, _, ?_, rfl⟩
  obtain ⟨hstay, hback⟩ := Bool.or_eq_false_iff.mp hname
  simp [Path.step?, hstay, hback]

/-- The last part of a path stands behind the others. -/
theorem parts_eq_concat {name : String} (h : (Path.parts path).getLast?.getD "" = name)
    (hname : name ≠ "") : Path.parts path = (Path.parts path).dropLast ++ [name] := by
  cases hlast : (Path.parts path).getLast? with
  | none =>
    rw [hlast] at h
    exact absurd h.symm hname
  | some last =>
    rw [hlast] at h
    cases h
    obtain ⟨front, hfront⟩ := List.getLast?_eq_some_iff.mp hlast
    rw [hfront, List.dropLast_concat, Option.getD_some]

/-- A write sets the contents of one place, to which its path leads afterwards. -/
theorem write_spec (h : t.write path text = .ok u) :
    ∃ there, u.place path = .ok there ∧ t.Wrote u there text := by
  unfold FileTree.write at h
  dsimp only at h
  generalize hlast : (Path.parts path).getLast?.getD "" = name at h
  split at h
  · cases h
  · next hrelative =>
    obtain ⟨⟨v, folder⟩, hmake, h⟩ := Stateful.bind_eq_ok h
    dsimp only at h
    split at h
    · cases h
    · next hfree =>
      obtain ⟨hplain, -⟩ := Bool.or_eq_false_iff.mp (Bool.not_eq_true _ ▸ hfree)
      have hname : name ≠ "" := by
        rintro rfl
        simp at hplain
      have hpath : path.isEmpty = false := by
        rw [← Bool.not_eq_true, String.isEmpty_iff]
        rintro rfl
        exact hname (hlast.symm.trans (by cbv))
      have hopen := opens_makeFolders (rooted_nil t) hmake
      cases h
      -- a new file changes no folder
      have hsame : v.FoldersIn { v with files := v.files.insert (folder ++ [name]) text } :=
        fun _ hplace => hplace
      refine ⟨folder ++ [name], place_eq_ok_iff.mpr ⟨?_, ?_⟩, ?_⟩
      · simp [hpath, hrelative]
      · rw [parts_eq_concat hlast hname]
        exact hsame.follow
          (follow_append hopen.follows (follow_name hopen.rooted.isFolder hplain))
      · refine ⟨OrderedMap.get?_insert_self _ _ _, fun other hother => ?_, hopen.folders⟩
        rw [← hopen.files]
        exact OrderedMap.get?_insert_of_ne _ _ hother

end FileTree

end DocWeave
