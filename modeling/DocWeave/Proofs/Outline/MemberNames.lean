import DocWeave.Proofs.Outline.DeclaredMembers
import DocWeave.Proofs.Outline.Names
import DocWeave.Proofs.Reference.Grammar

/-!
# The names of members

A name that stands in the head of a method or in a symbol is an identifier, and the reference to a member
of such a name is read as this member as long as the name is ASCII. A delegation takes the pieces of its
argument text as names instead, whatever they hold. These are all ways to a name (`ofSource_memberNames`).
-/

namespace DocWeave.Outline

open DocWeave.Text

/-- A letter of ASCII or an underscore, word characters behind it, and at most one further mark. -/
def IsIdentifier (s : List Char) : Prop :=
  ∃ (c : Char) (more : List Char) (mark : Option Char), s = c :: (more ++ mark.toList) ∧
    isMemberStart c = true ∧ (∀ d ∈ more, isWordChar d = true) ∧ ∀ d ∈ mark, d = '?' ∨ d = '!'

theorem IsIdentifier.chars {s : List Char} (h : IsIdentifier s) :
    ∀ d ∈ s, isWordChar d = true ∨ d = '?' ∨ d = '!' := by
  obtain ⟨c, more, mark, rfl, hc, hmore, hmark⟩ := h
  intro d hd
  rcases List.mem_cons.mp hd with rfl | hd
  · exact .inl (isWordChar_of_isMemberStart hc)
  · exact (List.mem_append.mp hd).imp (hmore d) fun hd => hmark d (Option.mem_toList.mp hd)

/-- The identifiers of ASCII are those that can be written in references. -/
theorem IsIdentifier.referable_iff {name : String} (h : IsIdentifier name.toList) {kind : MemberKind}
    (hkind : kind ≠ .constant) : Reference.Referable name kind ↔ ∀ c ∈ name.toList, c.toNat < 128 := by
  refine ⟨Reference.Referable.ascii, fun hascii => ?_⟩
  have hne : name.toList ≠ [] := by
    obtain ⟨c, more, mark, hname, -⟩ := h
    exact hname ▸ List.cons_ne_nil _ _
  have hchars : ∀ d ∈ name.toList, Reference.WordChar d ∨ d = '!' ∨ d = '?' := fun d hd =>
    (h.chars d hd).imp
      (fun hword => Reference.wordChar_iff.mp (isWordChar_of_ascii (hascii d hd) ▸ hword)) Or.symm
  have hreferable := Reference.ReferredName.referable ⟨name.toList, hne, hchars⟩ hkind
  rwa [Reference.ReferredName.text, String.ofList_toList] at hreferable

/-! ## Names in lines -/

/-- What is cut off as a name is an identifier, unless it ends in another mark. -/
theorem takeMemberName?_identifier {marks s name rest : List Char}
    (h : takeMemberName? marks s = some (name, rest))
    (hmarks : ∀ d ∈ marks, name.getLast? = some d → d = '?' ∨ d = '!') : IsIdentifier name := by
  obtain ⟨-, c, more, mark, hname, hc, hmore, hmark, -⟩ := takeMemberName?_parts h
  refine ⟨c, more, mark, hname, hc, hmore, fun d hd => hmarks d (hmark d hd) ?_⟩
  rw [hname, hd, Option.toList_some, ← List.cons_append, List.getLast?_concat]

theorem methodHead?_identifier {line : List Char} {head : MethodHead} (h : methodHead? line = some head)
    (hassigns : head.name.toList.getLast? ≠ some '=') : IsIdentifier head.name.toList := by
  obtain ⟨_, _, htaken⟩ := exists_taken_of_methodHead? h
  refine takeMemberName?_identifier htaken fun d hd hlast => ?_
  simp only [List.mem_cons, List.not_mem_nil, or_false] at hd
  rcases hd with rfl | rfl | rfl
  · exact .inl rfl
  · exact .inr rfl
  · exact absurd hlast hassigns

/-- What is collected has been recognised somewhere. -/
theorem exists_of_mem_collect {α : Type} {find : Recogniser α} {prev : Option Char} {s : List Char}
    {a : α} (h : a ∈ collect find prev s) : ∃ before behind n, find before behind = some (n, a) := by
  fun_induction collect find prev s with
  | case1 prev => cases h
  | case2 prev c rest n found hfound ih =>
    rcases List.mem_cons.mp h with rfl | h
    · exact ⟨prev, c :: rest, n + 1, hfound⟩
    · exact ih h
  | case3 prev c rest _ ih => exact ih h

theorem memberSymbol_identifier {prev : Option Char} {s : List Char} {n : Nat} {name : String}
    (h : memberSymbol prev s = some (n, name)) : IsIdentifier name.toList := by
  unfold memberSymbol at h
  split at h
  · obtain ⟨⟨taken, rest⟩, htaken, hname⟩ := Option.map_eq_some_iff.mp h
    cases hname
    rw [String.toList_ofList]
    refine takeMemberName?_identifier htaken fun d hd _ => ?_
    simpa using hd
  · cases h

/-- The words that take pieces of their argument text as names. -/
def delegators : List String := ["def_delegators", "def_delegator"]

/-- The names that any other word declares are those of symbols. -/
theorem declaredNames_identifier {word : String} (hword : word ∉ delegators) {args : List Char}
    {name : String} (h : name ∈ declaredNames word args) : IsIdentifier name.toList := by
  have hsymbol : ∀ {listed : List Char}, name ∈ collect memberSymbol none listed →
      IsIdentifier name.toList := fun hname => by
    obtain ⟨_, _, _, hfound⟩ := exists_of_mem_collect hname
    exact memberSymbol_identifier hfound
  unfold declaredNames at h
  dsimp only at h
  split at h
  · cases h
  · exact hsymbol (List.mem_of_mem_take h)
  · exact absurd (by decide) hword
  · exact absurd (by decide) hword
  · exact hsymbol h

/-! ## Names of members -/

/-- The scan comes to a line that delegates the name, directly inside the declaration of number `owner` or
inside a block of its own members. -/
def Delegates (all : List (List Char)) (owner : Nat) (name : String) : Prop :=
  ∃ s n raw rest word args, Reaches all s n ∧ all.drop n = raw :: rest ∧ s.current? = some owner ∧
    declaration? (trim raw) = some (word, args) ∧ word ∈ delegators ∧ name ∈ declaredNames word args

variable {all : List (List Char)} {owner : Nat} {name : String}

/-- What is delegated is the name of a member in the end. -/
theorem Delegates.exists_member (h : Delegates all owner name) :
    ∃ d, (ofLines all)[owner]? = some d ∧ ∃ m ∈ d.members, m.name = name := by
  obtain ⟨s, n, raw, rest, word, args, hreach, hline, howner, hdecl, -, hname⟩ := h
  obtain ⟨d, hd⟩ := hreach.exists_current howner
  have hnext := hreach.next hline
  rw [Scan.next_declareMembers howner hdecl] at hnext
  obtain ⟨d', hd', hkeeps⟩ := hnext.keeps (Scan.getElem?_update_self hd)
  obtain ⟨kind, hkey⟩ : ∃ kind, (name, kind) ∈
      ((declaredNames word args).foldl (Scan.addDeclared (n + 1)) d.members).map Member.key := by
    by_cases hfree : ∀ x ∈ d.members, x.name ≠ name
    · exact ⟨.onInstance, (mem_keys_foldl_addDeclared _ _).mpr (.inr ⟨hname, hfree⟩)⟩
    · -- a member of the name is there already
      obtain ⟨x, hx, rfl⟩ : ∃ x ∈ d.members, x.name = name := by simpa using hfree
      exact ⟨x.kind, List.map_subset _ (subset_foldl_addDeclared _ _ _) (List.mem_map_of_mem hx)⟩
  obtain ⟨m, hm, hmkey⟩ := List.mem_map.mp (hkeeps.keys hkey)
  exact ⟨d', hd', m, hm, (Prod.mk.inj hmkey).1⟩

/-- Members whose names are not delegated have identifiers for names. -/
theorem identifier_of_member {d : Declaration} (hd : (ofLines all)[owner]? = some d) {m : Member}
    (hm : m ∈ d.members) : Delegates all owner m.name ∨ IsIdentifier m.name.toList := by
  obtain ⟨t, last, -, hknown, hfound⟩ := (Reaches.start : Reaches all {} 0).induction
    (P := fun s _ => ∀ i d, s.found[i]? = some d → ∀ key ∈ d.keys,
      Delegates all i key.1 ∨ IsIdentifier key.1.toList)
    (fun _ _ hd => by cases hd)
    fun s n raw rest hreach hline hknown i d' hd' key hkey => by
      obtain ⟨d, hd, hold | hbrought⟩ := (step_next s (n + 1) raw rest).mem_keys hd' hkey
      · exact hknown i d hd key hold
      · cases hbrought with
        | method head _ hhead hassigns => exact .inr (methodHead?_identifier hhead hassigns)
        | declared word args name howner hdecl hname _ =>
          by_cases hword : word ∈ delegators
          · exact .inl ⟨s, n, raw, rest, word, args, hreach, hline, howner, hdecl, hword, hname⟩
          · exact .inr (declaredNames_identifier hword hname)
  rw [hfound] at hd
  exact hknown owner d hd m.key (List.mem_map_of_mem hm)

/-- **Names of members.** The name of a member is one that is delegated inside its declaration, or it is
an identifier, and then references are read as this member if and only if the name is ASCII. Every name
that is delegated inside a declaration is the name of one of its members, whether it is an identifier or
not. -/
theorem ofSource_memberNames (source : String) :
    (∀ (owner : Nat) (d : Declaration), (ofSource source)[owner]? = some d → ∀ m ∈ d.members,
      Delegates (lines source.toList) owner m.name ∨
        IsIdentifier m.name.toList ∧
          (Reference.Referable m.name m.kind ↔ ∀ c ∈ m.name.toList, c.toNat < 128)) ∧
    ∀ (owner : Nat) (name : String), Delegates (lines source.toList) owner name →
      ∃ d, (ofSource source)[owner]? = some d ∧ ∃ m ∈ d.members, m.name = name := by
  constructor
  · intro owner d hd m hm
    refine (identifier_of_member hd hm).imp_right fun hname => ⟨hname, hname.referable_iff ?_⟩
    exact ofLines_kind (List.mem_of_getElem? hd) hm
  · intro owner name hdelegates
    exact hdelegates.exists_member

theorem exists_member_of_keys {found : List Declaration} {key : String × MemberKind}
    (h : found.map Declaration.keys = [[key]]) : ∃ d ∈ found, ∃ m ∈ d.members, m.name = key.1 := by
  obtain ⟨d, rfl, hd⟩ := List.map_eq_singleton_iff.mp h
  obtain ⟨m, hm, rfl⟩ := List.map_eq_singleton_iff.mp hd
  exact ⟨d, List.mem_singleton_self d, m, hm ▸ List.mem_singleton_self m, rfl⟩

/-- A comment behind a delegation becomes part of a name that is no identifier, and an identifier beyond
ASCII cannot be written in references. -/
theorem not_ofSource_memberNames :
    (∃ d ∈ ofSource "class A\n  def_delegators :owner, :name # of the owner\nend\n",
      ∃ m ∈ d.members, ¬IsIdentifier m.name.toList) ∧
    ∃ d ∈ ofSource "class A\n  def café\n  end\nend\n",
      ∃ m ∈ d.members, IsIdentifier m.name.toList ∧ ¬Reference.Referable m.name m.kind := by
  constructor
  · have hkeys : (ofSource "class A\n  def_delegators :owner, :name # of the owner\nend\n").map
        Declaration.keys = [[("name # of the owner", .onInstance)]] := by decide +kernel
    obtain ⟨d, hd, m, hm, hname⟩ := exists_member_of_keys hkeys
    refine ⟨d, hd, m, hm, fun hidentifier => ?_⟩
    rw [hname] at hidentifier
    exact absurd (hidentifier.chars ' ' (by decide)) (by decide)
  · have hkeys : (ofSource "class A\n  def café\n  end\nend\n").map Declaration.keys =
        [[("café", .onInstance)]] := by decide +kernel
    obtain ⟨d, hd, m, hm, hname⟩ := exists_member_of_keys hkeys
    refine ⟨d, hd, m, hm, ?_⟩
    rw [hname]
    have hword : ∀ c ∈ ['a', 'f', 'é'], isWordChar c = true := List.all_eq_true.mp rfl
    refine ⟨⟨'c', ['a', 'f', 'é'], none, by decide, by decide, hword, nofun⟩, fun hreferable => ?_⟩
    exact absurd (hreferable.ascii 'é' (by decide)) (by decide)

end DocWeave.Outline
