import DocWeave.Proofs.Expr.Concatenation
import DocWeave.Proofs.Locator.Bodies
import DocWeave.Proofs.Outline.ShortMethods
import DocWeave.Proofs.Sandbox.Restarts

/-!
# Layouts of a method

A method of one expression may be a block, closed on its own line, or an equation. The lines of its
definition differ, but what is cut out of them to be evaluated does not (`executableBody_lines`): it is
the text of the expression, which is a program of one statement. So the site that is located for the
method leads to the same evaluation in each layout (`layouts_evaluate_alike`).
-/

namespace DocWeave

open DocWeave.Text

/-! ## What is cut out of a definition -/

namespace Outline.ShortMethod

open DocWeave.Sandbox (lineBody executableBody)

variable {m : ShortMethod}

theorem trim_blank_body : trim (' ' :: m.body) = m.body := by
  have hblank : ∀ c ∈ [' '], isBlank c = true := List.all_eq_true.mp (by decide)
  exact trim_blanks_append hblank m.solid_body.first m.solid_body.last

/-- Between the first semicolon and the `end` stands the body, whatever it ends in. -/
theorem lineBody_closed : lineBody (m.text (Form.behind (.closed : m.Form))) = m.body := by
  have hsplit : splitFirst? [';'] (m.text ("; ".toList ++ m.body)) = some (m.text [], ' ' :: m.body) := by
    rw [← List.nil_append ("; ".toList ++ m.body), text_append]
    exact splitFirst?_singleton (m.not_mem_text (.inr rfl) List.not_mem_nil) _
  have hend : before? ['e', 'n', 'd'] (m.text ("; ".toList ++ m.body) ++ "; end".toList) =
      some (m.text ("; ".toList ++ m.body) ++ "; ".toList) := by
    rw [← before?_append _ ['e', 'n', 'd']]
    simp
  rw [Form.text_closed, lineBody, hend]
  simp only [Option.bind_eq_bind, Option.bind_some, trimEnd_semicolon, before?_append, hsplit]
  exact trim_blank_body

/-- Without a semicolon the line is not closed by an `end`, even if the body ends in these letters. -/
theorem lineBody_equation : lineBody (m.text (Form.behind (.equation : m.Form))) = m.body := by
  have hnone : ∀ s, before? ['e', 'n', 'd'] (m.text (Form.behind (.equation : m.Form))) = some s →
      before? [';'] (trimEnd s) = none := by
    intro s hs
    by_contra hsome
    obtain ⟨front, hfront⟩ := Option.ne_none_iff_exists'.mp hsome
    have hmem : ';' ∈ s := mem_of_mem_trimEnd (by rw [eq_of_before? hfront]; simp)
    have hbehind : ';' ∉ Form.behind (.equation : m.Form) := by simp [Form.behind, m.unparted]
    refine m.not_mem_text (.inr rfl) hbehind ?_
    rw [eq_of_before? hs]
    exact List.mem_append_left _ hmem
  have hopen : (do
      let s ← before? ['e', 'n', 'd'] (m.text (Form.behind (.equation : m.Form)))
      let s ← before? [';'] (trimEnd s)
      splitFirst? [';'] s) = none := by
    cases hend : before? ['e', 'n', 'd'] (m.text (Form.behind (.equation : m.Form))) with
    | none => rfl
    | some s => simp [hnone s hend]
  rw [lineBody, hopen]
  dsimp only
  rw [Form.behind, equationText?_text, Option.getD_some, trim_blank_body]

theorem lines_form (form : m.Form) :
    (lines (joinLines form.lines)).map trim = form.lines.map trim := by
  rw [lines_joinLines form.newline_not_mem_lines]
  have hfirst : m.indent ++ m.text form.behind ≠ [] :=
    List.append_ne_nil_of_right_ne_nil _ (m.text_ne_nil _)
  cases form with
  | block inner blanks deeper => simp [Form.lines, Form.more, reread, trim_dropReturn]
  | closed => simp [Form.lines, Form.more, reread, hfirst]
  | equation => simp [Form.lines, Form.more, reread, hfirst]

/-- In every layout it is the body that is evaluated. -/
theorem executableBody_lines (form : m.Form) : executableBody (joinLines form.lines) = m.body := by
  rw [executableBody, lines_form]
  cases form with
  | block inner blanks deeper =>
    have hbody : trim (inner ++ m.body) = m.body :=
      trim_blanks_append blanks.blanks m.solid_body.first m.solid_body.last
    simp only [Form.lines, Form.more, List.map_cons, List.map_nil, hbody]
    exact List.intercalate_singleton
  | closed =>
    simp only [Form.lines, Form.more, List.map_cons, List.map_nil, Form.trim_first]
    exact lineBody_closed
  | equation =>
    simp only [Form.lines, Form.more, List.map_cons, List.map_nil, Form.trim_first]
    exact lineBody_equation

/-- The body is a program of one statement. -/
theorem exists_program (m : ShortMethod) : ∃ e, Expr.parse (String.ofList m.body) = .ok e ∧
    Program.parse (String.ofList m.body) = .ok [.expr e] := by
  obtain ⟨e, he⟩ : ∃ e, Expr.parse (String.ofList m.body) = .ok e := by
    have haccepted := m.accepted
    cases hparse : Expr.parse (String.ofList m.body) with
    | ok e => exact ⟨e, rfl⟩
    | error fault =>
      rw [hparse] at haccepted
      cases haccepted
  exact ⟨e, he, Expr.parseProgram_eq_ok_iff.mpr (Expr.parse_eq_ok_iff.mp he)⟩

end Outline.ShortMethod

/-! ## A file that defines the method -/

namespace Locator

open DocWeave.Manifest (declarationsIn HasMemberAt)
open Outline (ShortMethod Reaches)

/-- The file has the method in this layout between the other lines. It stands where the scan of the file
comes to, inside a declaration of the subject, which is registered from this file and has no other
definition of this name and kind there. -/
structure Defines {m : ShortMethod} (form : m.Form) (files : FileTree) (root file : String)
    (front back : List (List Char)) (S : Subject) (kind : MemberKind) : Prop where
  read : ∃ text, files.read (Path.join root file) = .ok text ∧
    lines text.toList = front ++ (form.lines ++ back)
  scanned : ∃ s owner d, Reaches (front ++ (form.lines ++ back)) s front.length ∧
    s.current? = some owner ∧ s.found[owner]? = some d ∧ d.name = S.name ∧
    m.key s = (m.head.name, kind)
  registered : RegisteredFrom files root file S
  once : ∀ line, HasMemberAt (declarationsIn files root file) S.name m.head.name kind line →
    line = front.length + 1

/-- No declarative line is taken in place of the definition below these lines: the definition has a
comment, or the member is not one of the instances, or no declarative line with a comment names it. -/
def Kept (root : String) (σ : Session) (front : List (List Char)) (r : Reference)
    (lineage : List Subject) : Prop :=
  isBlankText ((Site.commentAbove front).flatMap Site.commentText) = false ∨ r.kind ≠ .onInstance ∨
    outcome σ (findDeclarative root r.name lineage) = .ok none

variable {m : ShortMethod} {form : m.Form} {files : FileTree} {root file : String}
  {front back : List (List Char)} {S : Subject} {kind : MemberKind} {σ : Session}
  {registry : Registry} {r : Reference}

/-- The line of the head is recorded for the method. -/
theorem Defines.memberLine?_eq (h : Defines form files root file front back S kind) :
    S.memberLine? m.head.name kind = some (front.length + 1) := by
  obtain ⟨text, hread, hlines⟩ := h.read
  obtain ⟨s, owner, d, hreach, howner, hd, hname, hkey⟩ := h.scanned
  obtain ⟨d', hd', hname', hmember⟩ := form.declares hreach howner hd
  rw [← hlines, ← Manifest.declarationsIn_of_read hread] at hd'
  obtain ⟨x, hx, hxkey⟩ := List.mem_map.mp hmember
  obtain ⟨hxname, hxkind⟩ := Prod.mk.inj (hxkey.trans hkey)
  obtain ⟨line, hrecorded, hat⟩ := h.registered.lines d' hd' (hname'.trans hname) x hx
  rw [hxname, hxkind] at hrecorded hat
  rw [hrecorded, h.once line hat]

/-- What is cut out at the line of the head: the method, with the comment above it. -/
theorem exists_site (file : String) (form : m.Form) (front back : List (List Char)) :
    ∃ site, Site.ofLines? file (front ++ (form.lines ++ back)) (front.length + 1) .block = some site ∧
      site.file = file ∧ site.line = front.length + 1 ∧ site.body = String.ofList (joinLines form.lines) ∧
      site.comment = String.ofList ((Site.commentAbove front).flatMap Site.commentText) := by
  have hlt : front.length < (front ++ (form.lines ++ back)).length := by
    simp only [List.length_append, Outline.ShortMethod.Form.lines, List.length_cons]
    omega
  have hlast : Shape.lastLine .block (front ++ (form.lines ++ back)) front.length - front.length + 1 =
      form.lines.length := by
    rw [Shape.lastLine, Outline.blockEnd, form.drop_front]
    dsimp only
    rw [form.blockExtent_eq, Nat.add_sub_cancel_left]
    rfl
  rw [Site.ofLines?, if_pos hlt]
  refine ⟨_, rfl, rfl, rfl, ?_, ?_⟩
  · dsimp only
    rw [hlast, List.drop_left, List.take_left]
  · dsimp only
    rw [List.take_left]

theorem Defines.exists_locate (h : Defines form files root file front back S kind)
    (hσ : Alike root { files } σ) (hget : registry.get? S.name = some S) (hline : r.line = none)
    (hname : r.name = m.head.name) (hkind : r.kind = kind)
    (hkept : Kept root σ front r (registry.lineage S.name)) :
    ∃ site, outcome σ (locate root registry r S) = .ok site ∧ site.file = file ∧
      site.line = front.length + 1 ∧ site.body = String.ofList (joinLines form.lines) := by
  obtain ⟨text, hread, hlines⟩ := h.read
  obtain ⟨site, hcut, hfile, hplace, hbody, hcomment⟩ := exists_site file form front back
  obtain ⟨s, _, _, _, _, _, _, hkey⟩ := h.scanned
  have hmember : kind ≠ .constant := by
    rw [← (Prod.mk.inj hkey).2]
    split <;> decide
  have hshape : shapeOf kind = .block := by
    cases kind with
    | constant => exact absurd rfl hmember
    | onInstance => rfl
    | onClass => rfl
  have hsite : outcome σ (siteAt root file (front.length + 1) (shapeOf kind)) = .ok site := by
    rw [hshape]
    exact outcome_siteAt.mpr ⟨_, linesIn_of_read hσ hread, hlines ▸ hcut⟩
  have hdefined : definedLine root σ S file m.head.name kind = some (front.length + 1) := by
    rw [definedLine, recordedLine?_eq_memberLine? S _ hmember, h.memberLine?_eq]
    rfl
  -- the subject is the first of its lineage, so the search ends with it
  have hdefinition : outcome σ (findDefinition root r.name r.kind (registry.lineage S.name)) =
      .ok (some site) := by
    obtain ⟨rest, hlineage⟩ := Registry.lineage_cons hget
    rw [hname, hkind, hlineage, outcome_findDefinition_cons, h.registered.inFile]
    dsimp only
    rw [hdefined]
    dsimp only
    rw [hsite]
    rfl
  refine ⟨site, outcome_locate_definition hline hdefinition (hkept.imp_left fun hnot => ?_), hfile,
    hplace, hbody⟩
  rw [Site.hasComment, hcomment, String.toList_ofList, hnot]
  rfl

end Locator

/-! ## The same evaluation -/

namespace Sandbox

open Locator
open Outline (ShortMethod)

/-- What evaluating a member gives that is declared with a result, or else has one expression for a
body. -/
def expressionValue (registry : Registry) (S : Subject) (r : Reference) (bindings : Bindings) (e : Expr) :
    Except Halt Value :=
  match declaredResult? registry S r with
  | some v => .ok v
  | none => ((Program.run (bodyEnv registry S bindings) .nil [.expr e]).run []).1

theorem outcome_invoke {root : String} {σ : Session} {registry : Registry} {S : Subject} {r : Reference}
    {site : Site} {e : Expr} (hlocate : outcome σ (locate root registry r S) = .ok site)
    (hparse : Program.parse (String.ofList (executableBody site.body.toList)) = .ok [.expr e])
    (bindings : Bindings) :
    outcome σ (invoke root registry S r bindings) = expressionValue registry S r bindings e := by
  obtain ⟨τ, hrun, -⟩ := invoke_run registry S (Alike.refl root σ) r bindings
  have hsite : siteIn root registry S σ r = .ok site := hlocate
  rw [outcome, hrun, hsite, fixedMember, expressionValue]
  cases declaredResult? registry S r with
  | some v => rfl
  | none =>
    dsimp only
    rw [← runBody_fixed, runBody, hparse]

/-- **Layouts of a method.** The body of a method of one expression is a program of one statement, and
it is evaluated in whatever layout a file defines the method: the definition is located at its head, what
is cut out of it is the body, and the evaluation gives the same for every layout. -/
theorem layouts_evaluate_alike (m : ShortMethod) : ∃ e, Expr.parse (String.ofList m.body) = .ok e ∧
    Program.parse (String.ofList m.body) = .ok [.expr e] ∧
    ∀ {form : m.Form} {files : FileTree} {root file : String} {front back : List (List Char)}
      {S : Subject} {kind : MemberKind} {σ : Session} {registry : Registry} {r : Reference},
      Defines form files root file front back S kind → Alike root { files } σ →
      registry.get? S.name = some S → r.line = none → r.name = m.head.name → r.kind = kind →
      Kept root σ front r (registry.lineage S.name) →
      ∃ site, outcome σ (locate root registry r S) = .ok site ∧ site.file = file ∧
        site.line = front.length + 1 ∧ executableBody site.body.toList = m.body ∧
        ∀ bindings, outcome σ (invoke root registry S r bindings) =
          expressionValue registry S r bindings e := by
  obtain ⟨e, hexpr, hprogram⟩ := m.exists_program
  refine ⟨e, hexpr, hprogram, ?_⟩
  intro form files root file front back S kind σ registry r hdefines hσ hget hline hname hkind hkept
  obtain ⟨site, hlocate, hfile, hplace, hbody⟩ :=
    hdefines.exists_locate hσ hget hline hname hkind hkept
  have hcut : executableBody site.body.toList = m.body := by
    rw [hbody, String.toList_ofList, ShortMethod.executableBody_lines]
  exact ⟨site, hlocate, hfile, hplace, hcut, outcome_invoke hlocate (hcut ▸ hprogram)⟩

/-! ## A body with the marks of every layout in it -/

theorem parse_label : Expr.parse "label \"x(=)\", the_end" =
    .ok (.call "label" [.positional (.lit (.str "x(=)")), .positional (.var "the_end")]) := by
  have hlex : Expr.lex "label \"x(=)\", the_end" = .ok [⟨.ident "label", false, 0⟩,
      ⟨.str "x(=)", true, 6⟩, ⟨.mark .comma, false, 12⟩, ⟨.ident "the_end", true, 14⟩] :=
    Expr.lex_eq_ok_iff.mpr ⟨_, .word rfl rfl (.blank (.inl rfl) (.word rfl rfl (.word rfl rfl
      (.blank (.inl rfl) (.word rfl rfl .nil))))), rfl⟩
  refine Expr.parse_eq_ok_iff.mpr ⟨_, hlex, .cons (.expr rfl ?_) rfl (@Expr.DerivesProgram.nil [] rfl)⟩
  have hend : Expr.Derives (.arg (.positional (.var "the_end"))) [⟨.ident "the_end", true, 14⟩] [] :=
    .positional rfl rfl (.of_signed (.operand (.var (by decide) rfl rfl) (.suffixesEnd rfl)) fun _ => rfl)
  have hquote {tail : List Expr.Placed} : Expr.Derives (.arg (.positional (.lit (.str "x(=)"))))
      (⟨.str "x(=)", true, 6⟩ :: ⟨.mark .comma, false, 12⟩ :: tail) (⟨.mark .comma, false, 12⟩ :: tail) :=
    .positional rfl rfl (.of_signed (.operand (.literal rfl) (.suffixesEnd rfl))
      (Expr.endsOperators_closing (by simp)))
  exact .of_signed (.operand (.command (by decide) rfl rfl (.commandArg hquote (.lastCommandArg hend rfl)))
    (.suffixesEnd rfl)) fun _ => rfl

/-- A method whose body ends in the letters of `end`, and has an `=` and parentheses in quotes. -/
def labelMethod : ShortMethod where
  indent := "  ".toList
  onSelf := false
  name := ⟨'t', "otal".toList, none, by decide, List.all_eq_true.mp (by decide),
    Outline.Layout.MethodName.marked_none⟩
  body := "label \"x(=)\", the_end".toList
  indented := by decide
  trimmed := by decide
  nonempty := by decide
  single := by decide
  unparted := by decide
  accepted := by rw [String.ofList_toList, parse_label]; rfl

def labelForms : List labelMethod.Form := [.block "    ".toList (by decide) (by decide), .closed, .equation]

/-- The lines before and behind the method. -/
def labelFront : List (List Char) := ["class A", "  # The total."].map String.toList

def labelBack : List (List Char) := ["end".toList]

/-- A file with the method in a class. -/
def labelFile (form : labelMethod.Form) : FileTree :=
  { files := [(["a.rb"], String.ofList (joinLines (labelFront ++ (form.lines ++ labelBack))))] }

/-- What the file is read, discovered and outlined as. -/
theorem reading_label : ∀ form ∈ labelForms,
    (linesIn "." { files := labelFile form } "a.rb").toOption =
      some (labelFront ++ (form.lines ++ labelBack)) ∧
    (Manifest.filesOf (labelFile form) "." "a.rb").toOption = some ["a.rb"] ∧
    (Manifest.discoverFile (labelFile form) "." [] "a.rb").toOption.map
      (fun found => (OrderedMap.values found).map (sketch "total" .onInstance)) =
        some [{ name := "A", file := some "a.rb", line := some 3 }] ∧
    ∀ d ∈ Manifest.declarationsIn (labelFile form) "." "a.rb", ∀ x ∈ d.members, x.line = some 3 := by
  decide +kernel

/-- The scan comes to the method directly inside the class. -/
theorem reaches_label (rest : List (List Char)) : ∃ s d,
    Outline.Reaches (labelFront ++ rest) s labelFront.length ∧ s.stack = [.declaration 0 0] ∧
      s.found = [d] ∧ d.name = "A" := by
  have hclass (rest : List (List Char)) : Outline.Scan.next {} 1 "class A".toList rest =
      ((Outline.Scan.next {} 1 "class A".toList []).1, 0) := rfl
  have hname : (Outline.Scan.next {} 1 "class A".toList []).1.found.map (·.name) = ["A"] := by
    decide +kernel
  obtain ⟨d, hd, hdname⟩ := List.map_eq_singleton_iff.mp hname
  have hreach := Outline.Reaches.start.next
    (rfl : (labelFront ++ rest).drop 0 = "class A".toList :: ("  # The total.".toList :: rest))
  rw [hclass] at hreach
  exact ⟨_, d, hreach.next rfl, rfl, hd, hdname⟩

theorem collect_label {form : labelMethod.Form} (hform : form ∈ labelForms) :
    ∃ a : Subject, oneFile.collect (labelFile form) = .ok [a] ∧
      sketch "total" .onInstance a = { name := "A", file := some "a.rb", line := some 3 } ∧
      Defines form (labelFile form) "." "a.rb" labelFront labelBack a .onInstance := by
  obtain ⟨hlines, hfile, hfound, honce⟩ := reading_label form hform
  obtain ⟨subjects, hrun, hsketch⟩ := exists_sketched (labelFile form) "total" .onInstance _ hfile hfound
  obtain ⟨a, rest, rfl, ha, hrest⟩ := List.map_eq_cons_iff.mp hsketch
  obtain rfl := List.map_eq_nil_iff.mp hrest
  have hname : a.name = "A" := congrArg Sketch.name ha
  obtain ⟨text, hread, htext⟩ := read_of_linesIn (Alike.refl _ _) (Stateful.eq_ok_of_toOption hlines)
  obtain ⟨s, d, hreach, hstack, hd, hdname⟩ := reaches_label (form.lines ++ labelBack)
  have hscanned : s.current? = some 0 ∧ s.found[0]? = some d ∧ s.inSingleton = false := by
    rw [Outline.Scan.current?, Outline.Scan.inSingleton, hstack, hd]
    exact ⟨rfl, rfl, rfl⟩
  obtain ⟨howner, hfirst, hsingle⟩ := hscanned
  have hkey : labelMethod.key s = (labelMethod.head.name, .onInstance) := by
    rw [Outline.ShortMethod.key, hsingle]
    rfl
  refine ⟨a, hrun, ha, ⟨text, hread, htext.symm⟩,
    ⟨s, 0, d, hreach, howner, hfirst, hdname.trans hname.symm, hkey⟩, ?_, ?_⟩
  · exact registeredFrom_of_collect (m := oneFile) rfl hrun List.mem_cons_self (congrArg Sketch.file ha)
  · rintro line ⟨d, hd, -, x, hx, -, hline⟩
    exact (Option.some.inj ((honce d hd x hx).symm.trans hline)).symm

/-- In each of the three layouts the method is located, and its body is cut out and evaluated. -/
theorem layouts_evaluate_alike_label : ∀ form ∈ labelForms, ∃ (a : Subject) (site : Site),
    oneFile.collect (labelFile form) = .ok [a] ∧
    outcome { files := labelFile form } (locate "." ⟨[a]⟩ (.member "A" "total" .onInstance .named) a) =
      .ok site ∧
    site.line = 3 ∧ String.ofList (executableBody site.body.toList) = "label \"x(=)\", the_end" ∧
    ∀ bindings, outcome { files := labelFile form }
      (invoke "." ⟨[a]⟩ a (.member "A" "total" .onInstance .named) bindings) =
        expressionValue ⟨[a]⟩ a (.member "A" "total" .onInstance .named) bindings
          (.call "label" [.positional (.lit (.str "x(=)")), .positional (.var "the_end")]) := by
  intro form hform
  obtain ⟨e, hparse, -, hsame⟩ := layouts_evaluate_alike labelMethod
  obtain rfl : .call "label" [.positional (.lit (.str "x(=)")), .positional (.var "the_end")] = e :=
    Except.ok.inj (parse_label.symm.trans hparse)
  obtain ⟨a, hrun, ha, hdefines⟩ := collect_label hform
  have hget : Registry.get? ⟨[a]⟩ a.name = some a := by
    rw [show a.name = "A" from congrArg Sketch.name ha]
    exact get?_sketched [] ha
  obtain ⟨site, hlocate, -, hline, hcut, hinvoke⟩ := hsame hdefines (Alike.refl _ _) hget
    (r := .member "A" "total" .onInstance .named) rfl (by decide) rfl (.inl (by decide +kernel))
  refine ⟨a, site, hrun, hlocate, hline, ?_, hinvoke⟩
  rw [hcut]
  exact String.ofList_toList

end Sandbox

end DocWeave
