import DocWeave.Directive.Basic
import DocWeave.Prose.Pretty
import DocWeave.Prose.Number
import DocWeave.Prose.Operator
import DocWeave.Prose.Statement
import DocWeave.Prose.Word
import DocWeave.Table

/-!
# The standard directives

Directives that show sources and comments, make links, turn code into prose and lay out tables.
-/

namespace DocWeave.Directive

open DocWeave.Text

/-! ## Arguments -/

/-- A text argument that must be there. -/
def textArg (args : Args) (i : Nat) (callee : String) : RunM String := RunM.ofEval (args.text i callee)

/-- An option that must be there, as text. -/
def requiredOption (args : Args) (callee key : String) : RunM String :=
  match args.option? key with
  | some v => pure v.display
  | none => throw (.ofEval (.missingKeyword callee key))

/-- The names in the option that narrows a directive down; without it all names are meant. -/
def includedNames (args : Args) : Option (List String) :=
  match args.option? "include" with
  | none | some .nil => none
  | some (.array items) => some (items.map Value.display)
  | some v => some [v.display]

/-- A text result. -/
def ofChars (s : List Char) : Value := .str (String.ofList s)

/-- A directive that turns its text argument into another text. -/
def textPass (callee : String) (pass : List Char → List Char) : Directive := fun _ args => do
  return ofChars (pass (← textArg args 0 callee).toList)

/-! ## Sources and comments -/

/-- The source of a member. -/
def memberSource : Directive := fun ctx args => do
  return .str (← ctx.sourceOf (← ctx.referenceIn args "print_method_source"))

/-- The comment of a member as it stands. -/
def rawComment : Directive := fun ctx args => do
  let site ← ctx.workspace.locate (← ctx.referenceIn args "print_raw_comment")
  return .str site.comment

/-- The doc block of another member. -/
def docBlockOf : Directive := fun ctx args => do
  let r ← ctx.reference (← textArg args 0 "print_mark_doc_from")
  return .str (← ctx.blockOf r)

/-- The value of a member. -/
def memberValue : Directive := fun ctx args => do
  ctx.workspace.evaluate (← ctx.referenceIn args "eval_method")

/-! ## Links -/

/-- A markdown link. -/
def markdownLink (title target : String) : String := "[" ++ title ++ "](" ++ target ++ ")"

/-- A link with a given title. -/
def linkTo : Directive := fun _ args => do
  let target ← textArg args 0 "link_to_markdown"
  let title ← requiredOption args "link_to_markdown" "title"
  return .str (markdownLink title target)

/-- A link whose heading is brought into the form of an anchor. -/
def formattedLink : Directive := fun _ args => do
  let title ← textArg args 0 "format_link"
  let link ← textArg args 1 "format_link"
  let target := match splitFirst? ['#'] link.toList with
    | some (path, heading) =>
      String.ofList (path ++ '#' :: (Inflection.dasherized heading).filter (· != '?'))
    | none => link
  return .str (markdownLink title target)

/-- A title made of the last part of a link, and the link. -/
def titleFromLink : Directive := fun _ args => do
  let link ← textArg args 0 "title_from_link"
  let last := afterLast ['#'] (afterLast ['/'] link.toList)
  return .array [ofChars (Inflection.humanized last true), .str link]

/-- The address of a member's definition. -/
def memberSourceUrl : Directive := fun ctx args => do
  let site ← ctx.workspace.locate (← ctx.referenceIn args "git_hub_method_url")
  return .str (ctx.workspace.links.lineUrl site.file site.line)

/-- The first member of a subject's instances that can be located. -/
def firstLocated (w : Workspace) (s : Subject) : List Member → RunM (Option Site)
  | [] => return none
  | m :: rest => do
    let r := Reference.member s.name m.name m.kind .named
    match ← (Locator.locate w.root w.registry r s).run with
    | .ok site => return some site
    | .error _ => firstLocated w s rest

/-- The address of a file given by its path, or of a subject: of its first located member, or else of
its declaration. -/
def fileUrl : Directive := fun ctx args => do
  let target ← textArg args 0 "git_hub_file_url"
  let w := ctx.workspace
  if target.toList.contains '/' then return .str (w.links.fileUrl target)
  let s ← RunM.ofExcept (w.registry.resolve target ctx.subject.name)
  let site ← match ← firstLocated w s (s.members.filter (·.kind == .onInstance)) with
    | some site => pure site
    | none => LocateM.orMissing s.name (Locator.locateSubject w.root s)
  return .str (w.links.lineUrl site.file site.line)

/-- The address of a member's heading. -/
def memberPageUrl : Directive := fun ctx args => do
  let r ← ctx.referenceIn args "method_page_url"
  let owner ← ctx.workspace.ownerOf r
  return .str (ctx.workspace.memberUrl owner.name r.name)

/-- A link to a member's heading. -/
def linkToMember : Directive := fun ctx args => do
  let r ← ctx.referenceIn args "link_to_method"
  let owner ← ctx.workspace.ownerOf r
  let title := match args.option? "title" with
    | none | some .nil => Inflection.titleize r.name
    | some title => title.display
  return .str (markdownLink title (ctx.workspace.memberUrl owner.name r.name))

/-! ## Prose -/

/-- How links to members are titled. -/
inductive LinkTitle where
  /-- A marker that is filled in later. -/
  | marker
  /-- The bare name. -/
  | raw
  /-- The name in words. -/
  | humanized
deriving DecidableEq, Repr

/-- The titles that options ask for. -/
def LinkTitle.ofOptions (options : Bindings) : LinkTitle :=
  match options.get? "call_on_title" with
  | some (.bool false) | some .nil => .raw
  | some v => if v.text? == some "humanize" then .humanized else .marker
  | none => .marker

/-- The marker of a member. -/
def memberMarker (name : String) : String := "^\x60" ++ name ++ "\x60"

/-- A link to a member of the subject. -/
def LinkTitle.link (title : LinkTitle) (ctx : Context) (name : String) : String :=
  let url := ctx.workspace.memberUrl ctx.subject.name name
  match title with
  | .marker => memberMarker name
  | .raw => markdownLink name url
  | .humanized => markdownLink (Inflection.humanize name true) url

/-- Makes links of the members of the subject. -/
def linkMembers (ctx : Context) (names : Option (List String)) (title : LinkTitle)
    (s : List Char) : List Char :=
  Prose.membersAsLinks (fun name => names.all (·.contains name) && ctx.isMember name)
    (title.link ctx) s

/-- Makes links of the members named in a text. -/
def membersAsLinks : Directive := fun ctx args => do
  let s ← textArg args 0 "methods_as_local_links"
  return ofChars (linkMembers ctx (includedNames args) (.ofOptions args.options) s.toList)

/-- Makes markers of quoted names. -/
def quotedAsMarkers : Directive := fun _ args => do
  let s ← textArg args 0 "quoted_strings_as_local_links"
  return ofChars (Prose.quotedAsMarkers (includedNames args) s.toList)

/-- Makes markers of the members that a prose text speaks of. -/
def phrasesAsMarkers : Directive := fun ctx args => do
  let s ← textArg args 0 "link_local_methods_from_pretty_code"
  return ofChars (Prose.phrasesAsLinks (includedNames args) ctx.isMember memberMarker s.toList)

/-- Makes links of the constants named in a text or in the source of the documented member. -/
def constantsAsLinks : Directive := fun ctx args => do
  let callee := "constants_with_name_and_value"
  let s ← if args.positional.isEmpty then do ctx.sourceOf (← ctx.currentMember callee)
    else textArg args 0 callee
  return ofChars (Prose.constantsAsLinks ctx.constant? s.toList)

/-- Code in readable words. -/
def prettyCode : Directive := fun _ args => do
  let s ← textArg args 0 "pretty_code"
  return ofChars (Prose.prettyCode (args.flag "humanize" true) s.toList)

/-- The passes that turn a source into prose, in order, by the options that switch them off. -/
def prosePasses (ctx : Context) (options : Bindings) : List (String × (List Char → List Char)) :=
  let title := match options.get? "methods_as_local_links" with
    | some (.hash inner) => LinkTitle.ofOptions inner
    | _ => .marker
  [("readable_ruby_numbers", Prose.readableNumbers),
    ("pretty_early_return", Prose.prettyEarlyReturn),
    ("convert_early_return_to_if_else", Prose.convertEarlyReturn),
    ("ternary_to_if_else", Prose.ternaryToIfElse),
    ("ruby_if_statement_to_md", Prose.ifToBullets),
    ("ruby_case_statement_to_md", Prose.caseToBullets),
    ("remove_end_keyword", Prose.removeEnds),
    ("comment_to_markdown", Prose.commentsToProse),
    ("ruby_operators_to_english", Prose.operatorsToWords),
    ("constants_with_name_and_value", Prose.constantsAsLinks ctx.constant?),
    ("methods_as_local_links", linkMembers ctx none title)]

/-- The option is set to false. -/
def isSwitchedOff (options : Bindings) (name : String) : Bool :=
  match options.get? name with
  | some (.bool false) => true
  | _ => false

/-- A text, or the source of a member, as prose. -/
def sourceAsProse : Directive := fun ctx args => do
  let options := args.options
  let source ← match args.text? 0, options.get? "method_reference" with
    | some s, _ => pure s
    | none, some v => do ctx.sourceOf (← ctx.reference v.display)
    | none, none => do ctx.sourceOf (← ctx.currentMember "ruby_to_markdown")
  let passes := (prosePasses ctx options).filter fun (name, _) => !isSwitchedOff options name
  return ofChars (passes.foldl (fun s (_, pass) => pass s) source.toList)

/-! ## Tables -/

/-- A refusal of the first argument. -/
def refuse {α : Type} (callee complaint : String) : RunM α :=
  throw (.ofEval (.wrongArgument callee complaint))

/-- A table of the entries of a hash. -/
def hashTable : Directive := fun _ args => do
  let callee := "hash_to_markdown_table"
  match args.positional.head? with
  | some (.hash rows) =>
    let keyName ← requiredOption args callee "key_name"
    let valueName ← requiredOption args callee "value_name"
    return .str (Table.ofHash rows keyName valueName)
  | _ => refuse callee "expected a hash"

/-- A table of the items of an array. -/
def arrayTable : Directive := fun _ args => do
  let callee := "array_to_markdown_table"
  match args.positional.head? with
  | some (.array items) =>
    let keyName ← requiredOption args callee "key_name"
    return .str (Table.ofArray items keyName)
  | _ => refuse callee "expected an array"

/-- A column: a title, or a title and a width; a negative width counts as none. -/
def column (callee : String) : Value → RunM (String × Nat)
  | .array [title] => return (title.display, 0)
  | .array (title :: .int width :: _) => return (title.display, width.toInt.toNat)
  | .array _ => refuse callee "malformed column"
  | title => return (title.display, 0)

/-- The head of a table. -/
def tableHeader : Directive := fun _ args => do
  let callee := "markdown_table_header"
  match args.positional.head? with
  | some (.array columns) => return .str (Table.ofColumns (← columns.mapM (column callee)))
  | _ => refuse callee "expected an array of [title, width] pairs"

/-! ## The catalogue -/

/-- All standard directives. -/
def standard : Catalogue :=
  [("print_method_source", memberSource),
    ("print_raw_comment", rawComment),
    ("print_mark_doc_from", docBlockOf),
    ("eval_method", memberValue),
    ("link_to_markdown", linkTo),
    ("format_link", formattedLink),
    ("title_from_link", titleFromLink),
    ("git_hub_method_url", memberSourceUrl),
    ("git_hub_file_url", fileUrl),
    ("method_page_url", memberPageUrl),
    ("link_to_method", linkToMember),
    ("ruby_to_markdown", sourceAsProse),
    ("pretty_code", prettyCode),
    ("readable_ruby_numbers", textPass "readable_ruby_numbers" Prose.readableNumbers),
    ("pretty_early_return", textPass "pretty_early_return" Prose.prettyEarlyReturn),
    ("convert_early_return_to_if_else",
      textPass "convert_early_return_to_if_else" Prose.convertEarlyReturn),
    ("ternary_to_if_else", textPass "ternary_to_if_else" Prose.ternaryToIfElse),
    ("methods_as_local_links", membersAsLinks),
    ("variables_as_local_links", membersAsLinks),
    ("quoted_strings_as_local_links", quotedAsMarkers),
    ("link_local_methods_from_pretty_code", phrasesAsMarkers),
    ("constants_with_name_and_value", constantsAsLinks),
    ("hash_to_markdown_table", hashTable),
    ("array_to_markdown_table", arrayTable),
    ("markdown_table_header", tableHeader)]

end DocWeave.Directive
