import DocWeave.Proofs.Template.Tags
import DocWeave.Proofs.Text.Layout
import Mathlib.Data.List.Chain

/-!
# Printed templates

Segments are written as a template by putting an opening mark in a text as the literal mark and a code
between marks, with a blank on both sides of it. The scanner reads them back, each tag with the number of
line ends printed before it (`scan_printed`). That needs texts that the scanner could have made, neither
empty nor side by side, and codes in which it finds no closing mark (`isTagCode`).

The scanner takes a template from mark to mark, so the argument goes mark by mark as well: an escaped text
moves to the text that no segment has taken yet (`scanFrom_escape`), and a printed tag puts this text and
itself in front of what is scanned later (`scanFrom_tagText`).
-/

namespace DocWeave.Template

open DocWeave.Text

/-! ## Writing segments -/

/-- The text with every opening mark written as a literal one. -/
def escape (s : List Char) : List Char := replace ['<', '%'] ['<', '%', '%'] s

/-- A code with a blank on both sides, and the closing mark. -/
def closed (code : List Char) : List Char := ' ' :: code ++ [' ', '%', '>']

namespace Segment

/-- The segment as it is written in a template. -/
def print : Segment → List Char
  | .text s => escape s.toList
  | .output code _ => ['<', '%', '='] ++ closed code.toList
  | .exec code _ => ['<', '%'] ++ closed code.toList

/-- The segment, on this line of a template if it is a tag. -/
def onLine (line : Nat) : Segment → Segment
  | .text s => .text s
  | .output code _ => .output code line
  | .exec code _ => .exec code line

def isText : Segment → Bool
  | .text _ => true
  | _ => false

end Segment

/-- The segments as a template, one behind the other. -/
def printed (segments : List Segment) : List Char := segments.flatMap Segment.print

/-- The code of a tag ends nowhere before its end: with `quote` open at its beginning, it leaves no quote
open and has no closing mark outside quotes. In quotes a backslash takes the next character with it. -/
def isTagCode (quote : Option Char) : List Char → Bool
  | [] => quote.isNone
  | c :: s =>
    match quote with
    | some q =>
      if c = '\\' then
        match s with
        | [] => false
        | _ :: s => isTagCode (some q) s
      else isTagCode (if c = q then none else some q) s
    | none =>
      if c = '%' ∧ s.head? = some '>' then false
      else isTagCode (if c = '"' ∨ c = '\'' then some c else none) s

/-- A text that is not empty, or a code without blanks around it that can stand in a tag. -/
def Segment.isPrintable : Segment → Bool
  | .text s => !s.isEmpty
  | .output code _ => trim code.toList == code.toList && isTagCode none code.toList
  | .exec code _ => trim code.toList == code.toList && isTagCode none code.toList

/-- Segments that a template can be made of. -/
structure Printable (segments : List Segment) : Prop where
  each : ∀ s ∈ segments, s.isPrintable = true
  /-- No two texts stand side by side. -/
  apart : segments.IsChain fun s t => ¬(s.isText = true ∧ t.isText = true)

theorem Printable.tail {s : Segment} {segments : List Segment} (h : Printable (s :: segments)) :
    Printable segments :=
  ⟨fun t ht => h.each t (List.mem_cons_of_mem _ ht), h.apart.tail⟩

theorem countChar_escape (s : List Char) : countChar '\n' (escape s) = countChar '\n' s :=
  countChar_replace (by decide) '\n' (by decide) s

/-! ## Texts -/

section

variable {line : Nat} {text rest : List Char}

/-- A mark is found behind a text without one, unless one arises where they meet. -/
theorem splitFirst?_mark_append {s : List Char} (hs : splitFirst? ['<', '%'] s = none)
    (hrest : rest.head? ≠ some '%') :
    splitFirst? ['<', '%'] (s ++ rest) =
      (splitFirst? ['<', '%'] rest).map fun cut => (s ++ cut.1, cut.2) := by
  induction s with
  | nil => simp
  | cons c s ih =>
    rw [splitFirst?_eq_none_iff, List.infix_cons_iff, not_or] at hs
    obtain ⟨hhere, hlater⟩ := hs
    have hmark : after? ['<', '%'] (c :: s ++ rest) = none := by
      rw [after?_eq_none_iff]
      rintro ⟨behind, hbehind⟩
      obtain ⟨rfl, hnext⟩ := List.cons.inj hbehind
      -- the percent sign is in `s`, or it is the first character of `rest`
      cases s with
      | nil =>
        have hpercent : '%' :: behind = rest := hnext
        exact hrest (hpercent ▸ rfl)
      | cons d s =>
        obtain ⟨rfl, -⟩ := List.cons.inj hnext
        exact hhere ⟨s, rfl⟩
    rw [List.cons_append, splitFirst?, ← List.cons_append, hmark]
    simp only
    rw [ih (splitFirst?_eq_none_iff.mpr hlater), Option.map_map]
    rfl

/-- A text without an opening mark goes to the text before the next tag. -/
theorem scanFrom_plain {s : List Char} (hs : splitFirst? ['<', '%'] s = none)
    (hrest : rest.head? ≠ some '%') :
    scanFrom line text (s ++ rest) = scanFrom (line + countChar '\n' s) (text ++ s) rest := by
  have hcut := splitFirst?_mark_append hs hrest
  cases hr : splitFirst? ['<', '%'] rest with
  | none =>
    rw [hr] at hcut
    rw [scanFrom_none hcut, scanFrom_none hr, List.append_assoc]
  | some cut =>
    obtain ⟨before, after⟩ := cut
    rw [hr] at hcut
    have hcount : line + countChar '\n' (s ++ before) =
        line + countChar '\n' s + countChar '\n' before := by
      rw [countChar_append, Nat.add_assoc]
    by_cases hliteral : ∃ behind, after = '%' :: behind
    · obtain ⟨behind, rfl⟩ := hliteral
      rw [scanFrom_literal hcut, scanFrom_literal hr, hcount, List.append_assoc text s]
    · have hne : ∀ behind, after ≠ '%' :: behind := fun behind heq => hliteral ⟨behind, heq⟩
      cases htag : cutWholeTag? after with
      | none => rw [scanFrom_open hcut hne htag, scanFrom_open hr hne htag, hcount]
      | some tag =>
        rw [scanFrom_tag hcut hne htag, scanFrom_tag hr hne htag, hcount, List.append_assoc text]

/-- An escaped text goes to the text before the next tag as it was before it was escaped. -/
theorem scanFrom_escape (line : Nat) (text rest s : List Char) (hrest : rest.head? ≠ some '%') :
    scanFrom line text (escape s ++ rest) = scanFrom (line + countChar '\n' s) (text ++ s) rest := by
  have hsep : ['<', '%'] ≠ [] := by decide
  induction s using separator_induction hsep generalizing line text with
  | none s hs => rw [escape, replace_of_none _ hs, scanFrom_plain hs hrest]
  | some front behind hs ih =>
    have hescaped : escape (front ++ ['<', '%'] ++ behind) ++ rest =
        front ++ ['<', '%'] ++ '%' :: (escape behind ++ rest) := by
      rw [escape, replace_of_some hsep _ hs]
      simp [escape]
    have hcount : countChar '\n' (front ++ ['<', '%'] ++ behind) =
        countChar '\n' front + countChar '\n' behind := by
      rw [countChar_append, countChar_append]
      rfl
    rw [hescaped, scanFrom_literal (splitFirst?_append _ hs), ih, hcount, Nat.add_assoc]
    simp only [List.append_assoc]

end

/-! ## Tags -/

section

variable {q c d : Char} {code s rest : List Char}

theorem cutTag_escaped : cutTag (some q) ('\\' :: d :: s) =
    (cutTag (some q) s).map fun cut => ('\\' :: d :: cut.1, cut.2) := by
  rw [cutTag]
  rfl

theorem cutTag_quoted (hc : c ≠ '\\') (hs : s ≠ []) : cutTag (some q) (c :: s) =
    (cutTag (if c = q then none else some q) s).map fun cut => (c :: cut.1, cut.2) := by
  obtain ⟨d, t, rfl⟩ := List.exists_cons_of_ne_nil hs
  rw [cutTag]
  simp only [hc, if_false]

theorem cutTag_plain (hmark : ¬(c = '%' ∧ s.head? = some '>')) (hs : s ≠ []) :
    cutTag none (c :: s) =
      (cutTag (if c = '"' ∨ c = '\'' then some c else none) s).map fun cut => (c :: cut.1, cut.2) := by
  obtain ⟨d, t, rfl⟩ := List.exists_cons_of_ne_nil hs
  rw [List.head?_cons, Option.some.injEq] at hmark
  rw [cutTag]
  simp only [hmark, if_false]

/-- What is cut behind the code of a tag is cut with the code in front of it. -/
theorem cutTag_isTagCode {quote : Option Char} (h : isTagCode quote code = true) {tail pad : List Char}
    (htail : cutTag none tail = some (pad, rest)) (hmark : tail.head? ≠ some '>') :
    cutTag quote (code ++ tail) = some (code ++ pad, rest) := by
  have hne : tail ≠ [] := by
    rintro rfl
    cases htail
  fun_induction isTagCode quote code with
  | case1 quote =>
    obtain rfl := Option.isNone_iff_eq_none.mp h
    exact htail
  | case2 => cases h
  | case3 q d s ih =>
    rw [List.cons_append, List.cons_append, cutTag_escaped, ih h]
    rfl
  | case4 c s q hc ih =>
    rw [List.cons_append, cutTag_quoted hc (by simp [hne]), ih h]
    rfl
  | case5 => cases h
  | case6 c s hplain ih =>
    -- a percent sign that ends the code is not followed by the rest of a mark
    have hplain' : ¬(c = '%' ∧ (s ++ tail).head? = some '>') := by
      rintro ⟨rfl, hhead⟩
      cases s with
      | nil => exact hmark hhead
      | cons d s => exact hplain ⟨rfl, hhead⟩
    rw [List.cons_append, cutTag_plain hplain' (by simp [hne]), ih h]
    rfl

/-- A code that ends in a blank has no dash at its end. -/
theorem cutDash_blank (s : List Char) : cutDash (s ++ [' ']) = (s ++ [' '], false) := by
  have hnone : before? ['-'] (s ++ [' ']) = none := by
    rw [before?, List.reverse_append]
    rfl
  rw [cutDash, hnone]

/-- A printed tag, cut off what follows its opening mark: `lead` is empty or the sign of an output. -/
theorem cutWholeTag?_closed {lead : List Char} (hlead : lead = [] ∨ lead = ['='])
    (h : isTagCode none code = true) :
    cutWholeTag? (lead ++ closed code ++ rest) = some
      { code := lead ++ ' ' :: code ++ [' '], trimsLeft := false, lineEnds := countChar '\n' code, rest } := by
  have hcode : isTagCode none (lead ++ ' ' :: code) = true := by
    rcases hlead with rfl | rfl <;> exact h
  have hcount : countChar '\n' (lead ++ ' ' :: code ++ [' ']) = countChar '\n' code := by
    rcases hlead with rfl | rfl <;> simp [countChar]
  have hopen : cutOpeningDash (lead ++ closed code ++ rest) = (lead ++ closed code ++ rest, false) := by
    rcases hlead with rfl | rfl <;> rfl
  have hcut : cutTag none (lead ++ closed code ++ rest) = some (lead ++ ' ' :: code ++ [' '], rest) := by
    have htail : cutTag none (' ' :: '%' :: '>' :: rest) = some ([' '], rest) := rfl
    rw [← cutTag_isTagCode hcode htail (by simp)]
    simp [closed]
  rw [cutWholeTag?, hopen]
  simp only [hcut, Option.map_some, cutDash_blank, cutLineEnd, hcount, Bool.false_eq_true, if_false,
    Nat.add_zero]

theorem trim_blank_cons (s : List Char) : trim (' ' :: s) = trim s := rfl

/-- The segment of a tag with a code that has blanks on both sides. -/
theorem trim_closed (h : trim code = code) : trim (' ' :: code ++ [' ']) = code := by
  rw [List.cons_append, trim_blank_cons, trim_append_blank _ (by decide), h]

end

/-! ## Whole templates -/

section

variable {line : Nat} {text rest : List Char}

/-- A code behind an opening mark ends the text before it. -/
theorem scanFrom_closed (line : Nat) (text rest : List Char) {lead code : List Char}
    (hlead : lead = [] ∨ lead = ['=']) (h : isTagCode none code = true) :
    scanFrom line text ('<' :: '%' :: (lead ++ closed code ++ rest)) =
      (scanFrom (line + countChar '\n' code) [] rest).map fun later =>
        textSegment text ++ tagSegment (lead ++ ' ' :: code ++ [' ']) line ++ later := by
  have hmark : splitFirst? ['<', '%'] ('<' :: '%' :: (lead ++ closed code ++ rest)) =
      some ([], lead ++ closed code ++ rest) := rfl
  have hne : ∀ behind, lead ++ closed code ++ rest ≠ '%' :: behind := by
    rintro behind heq
    rcases hlead with rfl | rfl <;> exact absurd (List.cons.inj heq).1 (by decide)
  rw [scanFrom_tag hmark hne (cutWholeTag?_closed hlead h)]
  simp only [Bool.false_eq_true, if_false, List.append_nil]
  rfl

/-- A printed tag ends the text before it, and its line is the one on which it begins. -/
theorem scanFrom_tagText {s : Segment} (htag : s.isText = false) (h : s.isPrintable = true) :
    scanFrom line text (s.print ++ rest) =
      (scanFrom (line + countChar '\n' s.print) [] rest).map fun later =>
        textSegment text ++ s.onLine line :: later := by
  cases s with
  | text t => cases htag
  | output code _ =>
    obtain ⟨htrim, hcode⟩ := Bool.and_eq_true_iff.mp h
    have hcount : countChar '\n' (Segment.output code 0).print = countChar '\n' code.toList := by
      simp [Segment.print, closed, countChar]
    have hsegment : tagSegment (['='] ++ ' ' :: code.toList ++ [' ']) line = [.output code line] := by
      show [Segment.output (String.ofList (trim (' ' :: code.toList ++ [' ']))) line] = _
      rw [trim_closed (beq_iff_eq.mp htrim), String.ofList_toList]
    have hscan := scanFrom_closed line text rest (.inr rfl) hcode
    rw [hsegment, ← hcount] at hscan
    simpa [Segment.print, Segment.onLine] using hscan
  | exec code _ =>
    obtain ⟨htrim, hcode⟩ := Bool.and_eq_true_iff.mp h
    have hcount : countChar '\n' (Segment.exec code 0).print = countChar '\n' code.toList := by
      simp [Segment.print, closed, countChar]
    have hsegment : tagSegment ([] ++ ' ' :: code.toList ++ [' ']) line = [.exec code line] := by
      show [Segment.exec (String.ofList (trim (' ' :: code.toList ++ [' ']))) line] = _
      rw [trim_closed (beq_iff_eq.mp htrim), String.ofList_toList]
    have hscan := scanFrom_closed line text rest (.inl rfl) hcode
    rw [hsegment, ← hcount] at hscan
    simpa [Segment.print, Segment.onLine] using hscan

end

/-- The segments, each tag with the number of line ends that are printed before it, counted on from
`line`. -/
def numberedFrom (line : Nat) (segments : List Segment) : List Segment :=
  segments.mapIdx fun i s => s.onLine (line + countChar '\n' (printed (segments.take i)))

theorem numberedFrom_cons (line : Nat) (s : Segment) (segments : List Segment) :
    numberedFrom line (s :: segments) =
      s.onLine line :: numberedFrom (line + countChar '\n' s.print) segments := by
  rw [numberedFrom, List.mapIdx_cons, numberedFrom]
  congr 2
  funext i t
  rw [List.take_succ_cons, printed, List.flatMap_cons, countChar_append, Nat.add_assoc]
  rfl

/-- Where no text comes first, what is printed does not begin with a percent sign. -/
theorem head?_printed {segments : List Segment} (h : ∀ s ∈ segments.head?, s.isText = false) :
    (printed segments).head? ≠ some '%' := by
  cases segments with
  | nil => decide
  | cons s rest =>
    have htag : s.isText = false := h s rfl
    cases s with
    | text t => cases htag
    | output code line => exact fun hc => absurd (Option.some.inj hc) (by decide)
    | exec code line => exact fun hc => absurd (Option.some.inj hc) (by decide)

/-- Printed segments are read back behind a text that no segment has taken yet, unless they begin with a
text as well. -/
theorem scanFrom_printed {segments : List Segment} (h : Printable segments) (line : Nat)
    (text : List Char) (hfirst : text = [] ∨ ∀ s ∈ segments.head?, s.isText = false) :
    scanFrom line text (printed segments) = .ok (textSegment text ++ numberedFrom line segments) := by
  induction segments generalizing line text with
  | nil =>
    rw [printed, List.flatMap_nil, scanFrom_none rfl, List.append_nil]
    exact congrArg Except.ok (List.append_nil _).symm
  | cons s rest ih =>
    have hs : s.isPrintable = true := h.each s List.mem_cons_self
    have hcons : printed (s :: rest) = s.print ++ printed rest := List.flatMap_cons ..
    rw [hcons, numberedFrom_cons]
    cases htext : s.isText with
    | false =>
      rw [scanFrom_tagText htext hs, ih h.tail _ _ (.inl rfl)]
      rfl
    | true =>
      obtain ⟨t, rfl⟩ : ∃ t, s = .text t := by
        cases s with
        | text t => exact ⟨t, rfl⟩
        | output _ _ => cases htext
        | exec _ _ => cases htext
      -- the scanner holds the text back until the next tag, so no other may be waiting
      obtain rfl : text = [] := hfirst.resolve_right fun hnone => by simpa [htext] using hnone _ rfl
      have hnext : ∀ s ∈ rest.head?, s.isText = false := by
        intro s hs
        obtain ⟨more, rfl⟩ := List.head?_eq_some_iff.mp hs
        simpa [htext] using (List.isChain_cons_cons.mp h.apart).1
      have hne : t.toList.isEmpty = false := by
        simpa [Segment.isPrintable] using hs
      have hsegment : textSegment t.toList = [.text t] := by
        rw [textSegment, hne, String.ofList_toList]
        rfl
      show scanFrom line [] (escape t.toList ++ printed rest) = _
      rw [scanFrom_escape _ _ _ _ (head?_printed hnext), List.nil_append, ih h.tail _ _ (.inr hnext),
        hsegment, ← countChar_escape]
      rfl

/-- The scanner reads back what is printed: the segments of a printed template are those it was printed
from, each tag on the line that the line ends printed before it make, and an escaped text is that text and
nothing else. -/
theorem scan_printed :
    (∀ segments : List Segment, Printable segments →
      scan (String.ofList (printed segments)) = .ok (segments.mapIdx fun i s =>
        s.onLine (countChar '\n' (printed (segments.take i))))) ∧
    ∀ text : String, scan (String.ofList (escape text.toList)) =
      .ok (if text = "" then [] else [.text text]) := by
  constructor
  · intro segments h
    have hscan := scanFrom_printed h 0 [] (.inl rfl)
    simp only [numberedFrom, Nat.zero_add] at hscan
    rw [scan, String.toList_ofList]
    exact hscan
  · intro text
    have hnone : splitFirst? ['<', '%'] [] = none := rfl
    have hscan := scanFrom_escape 0 [] [] text.toList (by decide)
    rw [scanFrom_none hnone, List.append_nil, List.append_nil, List.nil_append] at hscan
    rw [scan, String.toList_ofList, hscan, textSegment, String.ofList_toList]
    simp

/-! ## A template with every difficulty -/

/-- A text with a literal mark that ends like half a mark, a code with closing marks in its quotes over
two lines, an empty code, and a text that begins with a line end. -/
def trickySegments : List Segment :=
  [.text "a\n<%% '<", .output "f('%>\\'', \"\n%>\")" 0, .exec "" 0, .text "\n-%> <%"]

theorem scan_printed_tricky : Printable trickySegments ∧
    scan "a\n<%%% '<<%= f('%>\\'', \"\n%>\") %><%  %>\n-%> <%%" =
      .ok [.text "a\n<%% '<", .output "f('%>\\'', \"\n%>\")" 1, .exec "" 2, .text "\n-%> <%"] := by
  have hprintable : Printable trickySegments :=
    ⟨by decide +kernel, by simp [trickySegments, Segment.isText]⟩
  have hprinted : printed trickySegments =
      "a\n<%%% '<<%= f('%>\\'', \"\n%>\") %><%  %>\n-%> <%%".toList := by decide +kernel
  have hscan := scan_printed.1 trickySegments hprintable
  rw [hprinted, String.ofList_toList] at hscan
  refine ⟨hprintable, hscan.trans (congrArg Except.ok ?_)⟩
  decide +kernel

end DocWeave.Template
