import DocWeave.Proofs.Expr.RoundTrip
import DocWeave.Proofs.Sandbox.Restarts

/-!
# Restarting refines direct evaluation

`Sandbox.evaluate` gives up a body at each name that is not bound, and begins it anew when the name is
bound. It gives a value only if the direct evaluation gives this value, and it gives whatever the direct
evaluation gives within the bounds: at most `depthLimit` levels below the first, and at most `nameLimit`
names asked for by each body. A body that asks for more is given up (`evaluate_exceeds`), also where the
name it asks for would have been refused. The names that one body has bound on demand are distinct.
-/

namespace DocWeave

namespace Sandbox

open DocWeave.Text Locator

/-! ## All levels -/

/-- Evaluation within some levels refines the direct evaluation within them. -/
theorem evaluateWithin_refines (root : String) (registry : Registry) (s : Subject) (σ : Session)
    (levels : Nat) (r : Reference) :
    Refines root σ (evaluateWithin root registry s levels r) (direct root registry s σ levels r) := by
  induction levels generalizing r with
  | zero =>
    refine ⟨fun τ hτ => hτ, fun τ v _ h => (nomatch h), fun τ _ o ho _ => ?_⟩
    cases o <;> cases ho
  | succ levels ih =>
    -- members below are evaluated within one level less, so the loop at this level refines
    have hloop := fun τ (hτ : Alike root σ τ) =>
      restart_matches registry s r ih nameLimit { bindings := startBindings s r.kind } hτ
    rw [direct, answerIn]
    refine ⟨fun τ hτ => (hloop τ hτ).keeps, fun τ v hτ => (hloop τ hτ).sound v, ?_⟩
    intro τ hτ o ho htallies
    refine (hloop τ hτ).complete o ho ?_ fun t ht => htallies t (List.mem_cons_of_mem _ ht)
    rw [Nat.zero_add]
    exact htallies _ List.mem_cons_self

/-! ## The names bound on demand -/

/-- One body binds some names on demand, one after the other, each when an evaluation has broken off at
it, and ends with a session and bindings. -/
inductive Stubs (root : String) (registry : Registry) (s : Subject) (r : Reference)
    (collaborate : Reference → RunM Value) :
    Session → Bindings → List String → Session → Bindings → Prop
  | start (σ : Session) (bindings : Bindings) :
    Stubs root registry s r collaborate σ bindings [] σ bindings
  | next {σ σ₁ σ₂ τ : Session} {bindings later : Bindings} {name : String} {names : List String}
      {other : Reference} {v : Value} :
    (invoke root registry s r bindings).run.run σ = (.error (.unbound name), σ₁) →
    collaborator? registry s name = some other →
    (collaborate other).run.run σ₁ = (.ok v, σ₂) →
    Stubs root registry s r collaborate σ₂ (bindings.insert name v) names τ later →
    Stubs root registry s r collaborate σ bindings (name :: names) τ later

section

variable {root : String} {registry : Registry} {s : Subject} {r : Reference}
  {collaborate : Reference → RunM Value} {σ τ : Session} {bindings later : Bindings}
  {names : List String}

/-- The loop of restarts goes through the names that are bound on demand. -/
theorem Stubs.restart_eq (h : Stubs root registry s r collaborate σ bindings names τ later)
    (left : Nat) :
    (restart root registry s r collaborate (names.length + left) bindings).run.run σ =
      (restart root registry s r collaborate left later).run.run τ := by
  induction h with
  | start σ bindings => rw [List.length_nil, Nat.zero_add]
  | next hinvoke hother hvalue _ ih =>
    rw [List.length_cons, Nat.add_right_comm, restart_run _ hinvoke, afterwards_member hother,
      Stateful.run_bind, hvalue]
    exact ih

/-- A name at which an evaluation breaks off is not bound. -/
theorem invoke_missing {σ₁ : Session} {name : String}
    (h : (invoke root registry s r bindings).run.run σ = (.error (.unbound name), σ₁)) :
    bindings.get? name = none := by
  obtain ⟨τ, hrun, -⟩ := invoke_run registry s (Alike.refl root σ) r bindings
  rw [h] at hrun
  have hx := congrArg Prod.fst hrun
  exact (resumes_member registry s r (fun _ => ⟨.error .tooDeep, []⟩) _).missing hx.symm

/-- No name is bound on demand that is bound already, and none twice. -/
theorem Stubs.fresh (h : Stubs root registry s r collaborate σ bindings names τ later) :
    names.Nodup ∧ ∀ name ∈ names, bindings.get? name = none := by
  induction h with
  | start σ bindings => exact ⟨List.nodup_nil, nofun⟩
  | @next σ σ₁ σ₂ τ bindings later name names other v hinvoke _ _ _ ih =>
    obtain ⟨hnodup, hfresh⟩ := ih
    have hname : bindings.get? name = none := invoke_missing hinvoke
    have hne : ∀ n ∈ names, n ≠ name := by
      rintro n hn rfl
      have hbound := hfresh n hn
      rw [OrderedMap.get?_insert_self] at hbound
      cases hbound
    refine ⟨List.nodup_cons.mpr ⟨fun hmem => hne name hmem rfl, hnodup⟩, ?_⟩
    intro n hn
    rcases List.mem_cons.mp hn with rfl | hn
    · exact hname
    · have hbound := hfresh n hn
      rwa [OrderedMap.get?_insert_of_ne _ _ (hne n hn)] at hbound

end

/-! ## The sandbox -/

/-- Evaluating a member with restarts refines evaluating it directly. A value of `evaluate` is the value
of the direct evaluation, whatever levels this is given beyond those of the sandbox. What the direct
evaluation gives within the levels of the sandbox, value or failure, is what `evaluate` gives, if no body
asks for more than `nameLimit` names. And in whatever loop of restarts the sandbox runs, the names that
are bound on demand are distinct. -/
theorem evaluate_refines_direct (root : String) (registry : Registry) (s : Subject) (r : Reference)
    (σ : Session) :
    (∀ v, ((evaluate root registry s r).run.run σ).1 = .ok v →
      ∀ levels, depthLimit < levels → (direct root registry s σ levels r).outcome = .ok v) ∧
    (∀ o : Except Error Value,
      (direct root registry s σ (depthLimit + 1) r).outcome = o.mapError .failed →
      (∀ t ∈ (direct root registry s σ (depthLimit + 1) r).tallies, t.asked ≤ nameLimit) →
      ((evaluate root registry s r).run.run σ).1 = o) ∧
    (∀ levels other τ names τ' later,
      Stubs root registry s other (evaluateWithin root registry s levels) τ
        (startBindings s other.kind) names τ' later →
      names.Nodup ∧ ∀ left,
        (restart root registry s other (evaluateWithin root registry s levels)
          (names.length + left) (startBindings s other.kind)).run.run τ =
        (restart root registry s other (evaluateWithin root registry s levels) left later).run.run τ') := by
  have hrefines := evaluateWithin_refines root registry s σ (depthLimit + 1) r
  refine ⟨?_, ?_, ?_⟩
  · intro v hv levels hlevels
    have hdirect : (direct root registry s σ (depthLimit + 1) r).outcome = .ok v :=
      hrefines.sound σ v (Alike.refl root σ) hv
    have hanswered : (direct root registry s σ (depthLimit + 1) r).outcome ≠ .error .tooDeep := by
      rw [hdirect]
      exact nofun
    rw [direct_stable hanswered hlevels, hdirect]
  · intro o ho htallies
    exact hrefines.complete σ (Alike.refl root σ) o ho htallies
  · intro levels other τ names τ' later h
    exact ⟨h.fresh.1, h.restart_eq⟩

/-- A body that asks for more names than may be bound is given up, if the inner evaluations stay within
the bounds. -/
theorem evaluate_exceeds {root : String} {registry : Registry} {s : Subject} {r : Reference}
    {σ : Session} {own : Tally} {inner : List Tally}
    (h : (direct root registry s σ (depthLimit + 1) r).tallies = own :: inner)
    (hown : nameLimit < own.asked) (hinner : ∀ t ∈ inner, t.asked ≤ nameLimit) :
    ((evaluate root registry s r).run.run σ).1 = .error (refusal r (.tooManyNames nameLimit)) := by
  have hloop := restart_matches registry s r (evaluateWithin_refines root registry s σ depthLimit)
    nameLimit { bindings := startBindings s r.kind } (Alike.refl root σ)
  rw [direct, answerIn] at h
  obtain ⟨rfl, rfl⟩ := List.cons.inj h
  refine hloop.exceeds ?_ hinner
  rw [Nat.zero_add]
  exact hown

/-! ## One name too many -/

/-- A member of the subject itself is found at the line that is recorded for it. -/
theorem siteIn_recorded {root file : String} {registry : Registry} {s : Subject} {σ : Session}
    {r : Reference} {others : List Subject} {line : Nat} {found : List (List Char)} {site : Site}
    (hlineage : registry.lineage s.name = s :: others) (hplace : r.line = none)
    (hkind : r.kind = .onClass) (hfile : s.file = some file)
    (hline : recordedLine? s r.name .onClass = some line)
    (hfound : linesIn root σ file = .ok found)
    (hsite : Site.ofLines? file found line .block = some site) :
    siteIn root registry s σ r = .ok site := by
  obtain ⟨τ, hrun, -⟩ := linesOf_spec root file σ
  rw [hfound] at hrun
  have hat : (siteAt root file line .block).run.run σ = (.ok site, τ) := by
    simp only [siteAt, Stateful.run_bind, hrun, hsite, Stateful.run_pure]
  have hfind : (findDefinition root r.name .onClass (s :: others)).run.run σ = (.ok (some site), τ) := by
    simp only [findDefinition, hfile, definitionLine, hline, Stateful.run_bind, Stateful.run_pure,
      shapeOf, hat]
  unfold siteIn locate
  rw [hlineage, hplace, hkind]
  simp only [Stateful.run_bind, hfind]
  cases hcomment : site.hasComment with
  | true =>
    rw [Option.filter_some, if_pos hcomment]
    rfl
  | false =>
    rw [Option.filter_some, hcomment]
    rfl

/-- As many names as may be bound on demand. -/
def crowd : List String :=
  ["a", "b", "c", "d"].flatMap fun front => ["0", "1", "2", "3", "4", "5", "6", "7"].map (front ++ ·)

/-- The array of these names and of one that stands for no member, as text. -/
def crowdLine : List Char :=
  Expr.printed ⟨false, false⟩ (.array ((crowd ++ ["zz"]).map Expr.var))

/-- The definition of a member with this body. -/
def crowdLines : List (List Char) := ["def self.all".toList, crowdLine, "end".toList]

/-- A subject with this member, and with a declared result for each of the names. -/
def crowdSubject : Subject where
  name := "A"
  file := some "a.rb"
  members :=
    { name := "all", kind := .onClass, line := some 1 } ::
      crowd.map fun name => { name, kind := .onInstance, returns := some .nil }

def crowdRegistry : Registry := ⟨[crowdSubject]⟩

def crowdSession : Session :=
  { files := { files := [(["a.rb"], String.ofList (joinLines crowdLines))] } }

def crowdSite : Site where
  file := "a.rb"
  line := 1
  comment := ""
  commentLine := 1
  body := String.ofList (joinLines crowdLines)

def crowdReference : Reference := .member "A" "all" .onClass .named

theorem lineage_crowd : crowdRegistry.lineage "A" = [crowdSubject] := by
  simp [Registry.lineage, Registry.lineageFrom, Registry.get?, crowdRegistry, crowdSubject,
    Registry.ancestors, Registry.ancestorsFrom, Registry.parent?, dropScopes, Registry.mixins]

theorem findMember?_crowd (name : String) (kind : MemberKind) :
    crowdRegistry.findMember? "A" name kind =
      (crowdSubject.member? name kind).map fun m => (crowdSubject, m) := by
  rw [Registry.findMember?, lineage_crowd, List.findSome?_singleton]

/-- Every name of the crowd stands for a member with a declared result. -/
theorem answer_crowd {name : String} (h : name ∈ crowd) (levels : Nat) :
    ∃ other v, collaborator? crowdRegistry crowdSubject name = some other ∧
      direct "." crowdRegistry crowdSubject crowdSession (levels + 1) other = ⟨.ok v, [{}]⟩ := by
  have hmember : ∀ name ∈ crowd, (crowdSubject.member? name .onInstance).isSome = true ∧
      ((crowdSubject.member? name .onInstance).bind (·.returns)).isSome = true ∧
      (Reference.member "A" name .onInstance .named).name = name := by
    decide +kernel
  obtain ⟨hsome, hreturns, hname⟩ := hmember name h
  obtain ⟨v, hv⟩ := Option.isSome_iff_exists.mp hreturns
  have hdeclared : declaredResult? crowdRegistry crowdSubject
      (Reference.member "A" name .onInstance .named) = some v := by
    show (crowdRegistry.findMember? "A" _ .onInstance).bind _ = _
    rw [hname, findMember?_crowd, Option.bind_map]
    exact hv
  refine ⟨Reference.member "A" name .onInstance .named, v, ?_, ?_⟩
  · have hfound : (crowdRegistry.findMember? "A" name .onInstance).isSome = true := by
      rw [findMember?_crowd, Option.isSome_map]
      exact hsome
    simp only [collaborator?, show crowdSubject.name = "A" from rfl, List.find?_cons, hfound]
    rfl
  · have hpure : ∀ answer site, directMember crowdRegistry crowdSubject
        (Reference.member "A" name .onInstance .named) answer site = pure v := by
      intro answer site
      unfold directMember
      rw [hdeclared]
    rw [direct, answerIn, hpure]
    rfl

theorem stranger_crowd : collaborator? crowdRegistry crowdSubject "zz" = none := by
  have hnone : ∀ kind ∈ [MemberKind.onInstance, .onClass],
      (crowdSubject.member? "zz" kind).isSome = false := by
    decide +kernel
  have hfind : List.find? (fun kind => (crowdRegistry.findMember? "A" "zz" kind).isSome)
      [MemberKind.onInstance, .onClass] = none := by
    rw [List.find?_eq_none]
    intro kind hkind
    rw [findMember?_crowd, Option.isSome_map, hnone kind hkind]
    exact Bool.false_ne_true
  show Option.map _ (List.find? _ [MemberKind.onInstance, .onClass]) = _
  rw [show crowdSubject.name = "A" from rfl, hfind]
  rfl

theorem lines_crowd : linesIn "." crowdSession "a.rb" = .ok crowdLines := by
  have hparts : Path.parts (Path.join "." "a.rb") = [".", "a.rb"] := by
    decide +kernel
  have hplace : crowdSession.files.place (Path.join "." "a.rb") = .ok ["a.rb"] := by
    rw [FileTree.place, hparts, if_neg (by decide +kernel)]
    rfl
  have hread : crowdSession.files.read (Path.join "." "a.rb") =
      .ok (String.ofList (joinLines crowdLines)) := by
    rw [FileTree.read, hplace]
    rfl
  have hlines : lines (joinLines crowdLines) = crowdLines := by
    decide +kernel
  unfold linesIn
  rw [hread]
  show Except.ok (lines (String.ofList (joinLines crowdLines)).toList) = _
  rw [String.toList_ofList, hlines]

theorem site_crowd :
    siteIn "." crowdRegistry crowdSubject crowdSession crowdReference = .ok crowdSite :=
  siteIn_recorded lineage_crowd rfl rfl rfl rfl lines_crowd rfl

/-- A name that is neither a local variable nor bound is asked for. -/
theorem eval_var_unbound {registry : Registry} {s : Subject} {r : Reference}
    {answer : Reference → Answer} {frame : Frame} {name : String}
    (h : frame.bindings.get? name = none) :
    (Expr.eval (directEnv registry s r answer) [] (.var name)).run.run frame =
      (demand registry s r answer name).run.run frame := by
  rw [Expr.eval]
  show ((directEnv registry s r answer).call name none).run.run frame = _
  rw [run_directEnv_call, call_unbound h]
  rfl

/-- Evaluating names of the crowd one after the other, and then the stranger. -/
theorem evalItems_crowd (levels : Nat) (names : List String) (hnames : ∀ n ∈ names, n ∈ crowd)
    (hnodup : names.Nodup) (frame : Frame) (hfresh : ∀ n ∈ names, frame.bindings.get? n = none)
    (hzz : frame.bindings.get? "zz" = none) :
    ∃ later, (Expr.evalItems (directEnv crowdRegistry crowdSubject crowdReference
        (direct "." crowdRegistry crowdSubject crowdSession (levels + 1))) []
        ((names ++ ["zz"]).map Expr.var)).run.run frame =
        (.error (.failed (refusal crowdReference (.unknownName "zz" "A"))), later) ∧
      later.tally = ⟨frame.tally.asked + names.length + 1, frame.tally.stored + names.length⟩ ∧
      later.inner = frame.inner ++ List.replicate names.length ⟨0, 0⟩ := by
  induction names generalizing frame with
  | nil =>
    refine ⟨frame.ask, ?_, rfl, (List.append_nil _).symm⟩
    rw [List.nil_append, List.map_singleton, Expr.evalItems, Stateful.run_bind,
      eval_var_unbound hzz, demand_unknown stranger_crowd]
    rfl
  | cons name names ih =>
    obtain ⟨other, v, hother, hanswer⟩ := answer_crowd (hnames name List.mem_cons_self) levels
    obtain ⟨hname, hnodup⟩ := List.nodup_cons.mp hnodup
    have hne : ∀ n ∈ names, n ≠ name := fun n hn he => hname (he ▸ hn)
    have hzzne : "zz" ≠ name := by
      rintro rfl
      exact absurd (hnames "zz" List.mem_cons_self) (by decide +kernel)
    have hvalue : (direct "." crowdRegistry crowdSubject crowdSession (levels + 1) other).outcome =
        .ok v := by
      rw [hanswer]
    obtain ⟨later, hrun, htally, hinner⟩ := ih (fun n hn => hnames n (List.mem_cons_of_mem _ hn)) hnodup
      ((frame.ask.record [⟨0, 0⟩]).store name v)
      (fun n hn => (OrderedMap.get?_insert_of_ne _ _ (hne n hn)).trans
        (hfresh n (List.mem_cons_of_mem _ hn)))
      ((OrderedMap.get?_insert_of_ne _ _ hzzne).trans hzz)
    refine ⟨later, ?_, ?_, ?_⟩
    · rw [List.cons_append, List.map_cons, Expr.evalItems, Stateful.run_bind,
        eval_var_unbound (hfresh name List.mem_cons_self), demand_stored hother hvalue, hanswer]
      simp only [Stateful.run_bind, hrun]
    · rw [htally]
      show Tally.mk (frame.tally.asked + 1 + names.length + 1) (frame.tally.stored + 1 + names.length) = _
      rw [List.length_cons, Nat.add_right_comm frame.tally.asked, Nat.add_right_comm frame.tally.stored]
      rfl
    · rw [hinner]
      show frame.inner ++ [⟨0, 0⟩] ++ List.replicate names.length ⟨0, 0⟩ = _
      rw [List.append_assoc]
      rfl

/-- A member whose body is an array is evaluated item by item, and ends where an item fails. -/
theorem directMember_array {registry : Registry} {s : Subject} {r : Reference}
    {answer : Reference → Answer} {site : Site} {items : List Expr} {frame later : Frame} {stop : Stop}
    (hdeclared : declaredResult? registry s r = none)
    (hbody : Program.parse (String.ofList (executableBody site.body.toList)) = .ok [.expr (.array items)])
    (hitems : (Expr.evalItems (directEnv registry s r answer) [] items).run.run frame =
      (.error stop, later)) :
    (directMember registry s r answer (.ok site)).run.run frame = (.error stop, later) := by
  unfold directMember
  rw [hdeclared]
  simp only [hbody]
  rw [Program.valueOf_expr, Stateful.run_bind, Expr.eval, Stateful.run_bind, hitems]

/-- The direct evaluation stores as many names as may be bound on demand, and is refused the next. -/
theorem direct_crowd :
    ∃ inner, direct "." crowdRegistry crowdSubject crowdSession (depthLimit + 1) crowdReference =
      ⟨.error (.failed (refusal crowdReference (.unknownName "zz" "A"))), ⟨33, 32⟩ :: inner⟩ ∧
      ∀ t ∈ inner, t = ⟨0, 0⟩ := by
  obtain ⟨later, hrun, htally, hinner⟩ := evalItems_crowd 7 crowd (fun _ h => h) (by decide +kernel)
    { bindings := startBindings crowdSubject crowdReference.kind } (fun _ _ => rfl) rfl
  have hdeclared : declaredResult? crowdRegistry crowdSubject crowdReference = none := by
    show (crowdRegistry.findMember? "A" _ .onClass).bind _ = none
    rw [findMember?_crowd]
    rfl
  have htext : executableBody (joinLines crowdLines) = crowdLine := by
    decide +kernel
  have hbody : Program.parse (String.ofList (executableBody crowdSite.body.toList)) =
      .ok [.expr (.array ((crowd ++ ["zz"]).map Expr.var))] := by
    rw [crowdSite, String.toList_ofList, htext]
    exact Expr.parse_print_array _ (by decide +kernel)
  refine ⟨later.inner, ?_, ?_⟩
  · rw [direct, answerIn, site_crowd, show depthLimit = 7 + 1 from rfl,
      directMember_array hdeclared hbody hrun]
    show Answer.mk _ (later.tally :: later.inner) = _
    rw [htally]
    rfl
  · intro t ht
    rw [hinner] at ht
    exact List.eq_of_mem_replicate ht

/-- Storing no more names than may be bound is not enough: the sandbox gives up at the next name before
it looks for the member of that name, and the direct evaluation is refused this name. -/
theorem not_evaluate_refines_stored :
    ¬∀ (root : String) (registry : Registry) (s : Subject) (r : Reference) (σ : Session)
      (o : Except Error Value),
      (direct root registry s σ (depthLimit + 1) r).outcome = o.mapError .failed →
      (∀ t ∈ (direct root registry s σ (depthLimit + 1) r).tallies, t.stored ≤ nameLimit) →
      ((evaluate root registry s r).run.run σ).1 = o := by
  intro h
  obtain ⟨inner, hdirect, hinner⟩ := direct_crowd
  have hrefused := h "." crowdRegistry crowdSubject crowdReference crowdSession
    (.error (refusal crowdReference (.unknownName "zz" "A"))) (by rw [hdirect]; rfl) (by
      rw [hdirect]
      intro t ht
      rcases List.mem_cons.mp ht with rfl | ht
      · exact Nat.le_refl 32
      · rw [hinner t ht]
        exact Nat.zero_le _)
  have hgivenUp : ((evaluate "." crowdRegistry crowdSubject crowdReference).run.run crowdSession).1 =
      .error (refusal crowdReference (.tooManyNames nameLimit)) :=
    evaluate_exceeds (congrArg Answer.tallies hdirect) (Nat.lt_succ_self 32) fun t ht => by
      rw [hinner t ht]
      exact Nat.zero_le _
  rw [hgivenUp] at hrefused
  have hmessage := congrArg Error.fault (Except.error.inj hrefused)
  exact absurd (Fault.invoke.inj hmessage).2 (by decide +kernel)

end Sandbox

end DocWeave
