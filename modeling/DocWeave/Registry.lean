import DocWeave.Subject

/-!
# The registry of subjects

All subjects of a project by name. A name is looked up from inside another subject, so that the
enclosing namespaces need not be written out. Along the parents a subject has ancestors; together with
the modules they mix in they make up its lineage, in which members and constants are looked for. Parents
and mixins may form cycles: every walk goes through each subject at most once.
-/

namespace DocWeave

open DocWeave.Text

/-- The subjects of a project, of distinct names. -/
structure Registry where
  subjects : List Subject
deriving Inhabited

/-- The items whose keys have not been seen, and of those with equal keys only the first. -/
def distinctBy {α κ : Type} [BEq κ] (key : α → κ) (seen : List κ) : List α → List α
  | [] => []
  | a :: rest =>
    if seen.contains (key a) then distinctBy key seen rest
    else a :: distinctBy key (key a :: seen) rest

/-- The first name that occurs twice. -/
def firstDuplicate? (seen : List String) : List String → Option String
  | [] => none
  | name :: rest => if seen.contains name then some name else firstDuplicate? (name :: seen) rest

/-- Drops every `::` in front. -/
def dropScopes : List Char → List Char
  | ':' :: ':' :: s => dropScopes s
  | s => s

/-- A scope and the namespaces around it, the innermost first. -/
def scopes (s : List Char) : List (List Char) :=
  if s.isEmpty then []
  else
    match _h : splitLast? [':', ':'] s with
    | some (front, _) => s :: scopes front
    | none => [s]
termination_by s.length
decreasing_by
  have := congrArg List.length (eq_of_splitLast? _h)
  simp only [List.length_append, List.length_cons, List.length_nil] at this
  omega

namespace Registry

/-- The registry of the given subjects, unless two have the same name. -/
def make (subjects : List Subject) : Except Error Registry :=
  match firstDuplicate? [] (subjects.map (·.name)) with
  | some name => .error (.of (.config (.duplicateSubject name)))
  | none => .ok ⟨subjects⟩

/-- The subject of a full name, which may have `::` in front. -/
def get? (r : Registry) (name : String) : Option Subject :=
  let name := String.ofList (dropScopes name.toList)
  r.subjects.find? (·.name == name)

/-- The subject that a name means inside `context`: a full name, or else a name in the innermost of the
enclosing scopes that has it. -/
def resolve? (r : Registry) (name context : String) : Option Subject :=
  match r.get? name with
  | some s => some s
  | none =>
    if startsWith "::".toList name.toList then none
    else (scopes context.toList).findSome? fun scope => r.get? (String.ofList scope ++ "::" ++ name)

/-- The subject that a name means, or a complaint that there is none. -/
def resolve (r : Registry) (name context : String) : Except Error Subject :=
  match r.resolve? name context with
  | some s => .ok s
  | none => .error (.of (.unknownSubject name context))

/-- The owner of the member that a reference names. -/
def ownerOf (r : Registry) (reference : Reference) : Except Error Subject :=
  match reference.owner? with
  | some owner => r.resolve owner reference.origin
  | none => r.resolve reference.origin ""

/-! ## Ancestors and descendants -/

/-- The registered parent of a subject. -/
def parent? (r : Registry) (s : Subject) : Option Subject :=
  s.parent.bind fun parent => r.resolve? parent s.name

/-- The subjects without the one of this name. -/
def without (name : String) (subjects : List Subject) : List Subject :=
  subjects.filter (·.name != name)

/-- Taking out a subject that is there leaves fewer. -/
theorem length_without_lt {name : String} {subjects : List Subject}
    (h : subjects.any (·.name == name) = true) :
    (without name subjects).length < subjects.length := by
  induction subjects with
  | nil => simp at h
  | cons s rest ih =>
    simp only [List.any_cons, Bool.or_eq_true] at h
    simp only [without, List.filter_cons, List.length_cons]
    by_cases hs : s.name = name
    · have := List.length_filter_le (fun s : Subject => s.name != name) rest
      simp [hs]; omega
    · have hr : rest.any (·.name == name) = true := by
        rcases h with h | h
        · simp [hs] at h
        · exact h
      have := ih hr
      simp only [without] at this
      have hb : (s.name != name) = true := by simp [hs]
      rw [if_pos hb, List.length_cons]
      omega

/-- The class ancestors of a subject among those not yet passed, the nearest first. -/
def ancestorsFrom (r : Registry) (left : List Subject) (s : Subject) : List Subject :=
  match r.parent? s with
  | none => []
  | some p =>
    if _h : left.any (·.name == p.name) = true then
      if p.kind = .classDecl then p :: ancestorsFrom r (without p.name left) p else []
    else []
termination_by left.length
decreasing_by exact length_without_lt _h

/-- The registered class ancestors, the nearest first. -/
def ancestors (r : Registry) (name : String) : List Subject :=
  match r.get? name with
  | some s => r.ancestorsFrom (without name r.subjects) s
  | none => []

/-- The subject's parent is the one of this name. -/
def isChildOf (r : Registry) (parent : String) (s : Subject) : Bool :=
  (r.parent? s).any (·.name == parent)

/-- The children of a subject among some subjects. -/
def childrenIn (r : Registry) (parent : String) (subjects : List Subject) : List Subject :=
  subjects.filter (r.isChildOf parent)

/-- The subjects that are no children of a subject. -/
def othersIn (r : Registry) (parent : String) (subjects : List Subject) : List Subject :=
  subjects.filter fun s => !r.isChildOf parent s

/-- Taking out the children leaves fewer, if there are any. -/
theorem length_othersIn_lt {r : Registry} {parent : String} {subjects : List Subject}
    (h : subjects.any (r.isChildOf parent) = true) :
    (r.othersIn parent subjects).length < subjects.length := by
  obtain ⟨s, hs, hc⟩ := List.any_eq_true.1 h
  exact List.length_filter_lt_length_iff_exists.2 ⟨s, hs, by simp [hc]⟩

/-- The subjects that inherit from one of the names, among those not yet found. -/
def descendantsFrom (r : Registry) (left : List Subject) (names : List String) : List Subject :=
  match names with
  | [] => []
  | name :: rest =>
    if _h : left.any (r.isChildOf name) = true then
      r.childrenIn name left ++
        descendantsFrom r (r.othersIn name left) ((r.childrenIn name left).map (·.name) ++ rest)
    else descendantsFrom r left rest
termination_by (left.length, names.length)
decreasing_by
  · exact Prod.Lex.left _ _ (length_othersIn_lt _h)
  · apply Prod.Lex.right; simp

/-- What the names of the subjects that inherit from a subject mean, in the order of the names. A
subject whose own name has `::` in front is found under no name, so it is not among them. -/
def descendants (r : Registry) (name : String) : List Subject :=
  let found := r.descendantsFrom (without name r.subjects) [name]
  (found.mergeSort fun a b => a.name ≤ b.name).filterMap fun s => r.get? s.name

/-! ## Lineage -/

/-- The modules that a subject mixes in, as far as they are registered. -/
def mixins (r : Registry) (s : Subject) : List Subject :=
  s.includes.filterMap fun name => r.resolve? name s.name

/-- The subjects to visit and what they mix in, depth first, among those not yet passed. -/
def lineageFrom (r : Registry) (left : List Subject) (todo : List Subject) : List Subject :=
  match todo with
  | [] => []
  | s :: rest =>
    if _h : left.any (·.name == s.name) = true then
      s :: lineageFrom r (without s.name left) (r.mixins s ++ rest)
    else lineageFrom r left rest
termination_by (left.length, todo.length)
decreasing_by
  · exact Prod.Lex.left _ _ (length_without_lt _h)
  · apply Prod.Lex.right; simp

/-- The subject, its mixins, and then every ancestor followed by its mixins. -/
def lineage (r : Registry) (name : String) : List Subject :=
  match r.get? name with
  | some s => r.lineageFrom r.subjects (s :: r.ancestors name)
  | none => []

/-! ## Members and constants -/

/-- The first declaration of a member along the lineage. -/
def findMember? (r : Registry) (subject name : String) (kind : MemberKind) :
    Option (Subject × Member) :=
  (r.lineage subject).findSome? fun s => (s.member? name kind).map fun m => (s, m)

/-- The name is an instance member somewhere in the lineage. -/
def hasInstanceMember (r : Registry) (subject name : String) : Bool :=
  (r.findMember? subject name .onInstance).isSome

/-- The first constant of a name along the lineage. -/
def findConstant? (r : Registry) (subject name : String) : Option (Subject × Constant) :=
  (r.lineage subject).findSome? fun s => (s.constants.get? name).map fun c => (s, c)

/-- The constants of a subject, the nearest declaration of each. -/
def constants (r : Registry) (subject : String) : List (Subject × Constant) :=
  distinctBy (fun p => p.2.name) []
    ((r.lineage subject).flatMap fun s => s.constants.values.map fun c => (s, c))

/-- The constant that a path means inside a subject: one of its lineage, or one of the lineage of the
subject that the front of the path names. -/
def constantAt? (r : Registry) (subject path : String) : Option Constant :=
  match splitNamespace? path with
  | none => (r.findConstant? subject path).map Prod.snd
  | some (owner, name) =>
    (r.resolve? owner subject).bind fun s => (r.findConstant? s.name name).map Prod.snd

/-- A member with the subject that declares it. -/
structure Inhabitant where
  owner : Subject
  member : Member
  visibility : Visibility

/-- The members of one kind that some subjects declare, in order. -/
def declared (kind : MemberKind) (visibility : Visibility) (owners : List Subject) :
    List Inhabitant :=
  owners.flatMap fun s =>
    (s.members.filter (·.kind == kind)).map fun m => { owner := s, member := m, visibility }

/-- The members of a subject: first its own, then the inherited ones from the farthest to the nearest;
in both parts members of instances come before those of the subject itself. A member that is declared
several times counts with its nearest declaration. -/
def population (r : Registry) (name : String) : List Inhabitant :=
  match r.lineage name with
  | [] => []
  | subject :: ancestors =>
    let own (kind : MemberKind) : List Inhabitant :=
      distinctBy (·.member.name) [] (declared kind .native [subject])
    let inherited (kind : MemberKind) : List Inhabitant :=
      (distinctBy (·.member.name) ((own kind).map (·.member.name))
        (declared kind .inherited ancestors)).reverse
    own .onInstance ++ own .onClass ++ inherited .onInstance ++ inherited .onClass

end Registry

end DocWeave
