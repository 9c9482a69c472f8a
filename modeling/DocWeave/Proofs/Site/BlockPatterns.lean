import DocWeave.DocBlock
import DocWeave.Proofs.Text.Occurrences

/-!
# Doc blocks by patterns and by plain search

A doc block can be described by two patterns that are tried in turn: the start token with the end of its
line, any text, and the end token; or the same without an end token (`byPatterns`). Tokens are escaped in
the patterns. A pattern is matched at the first place where it can be, and takes as much text as it can.
`bySearch` knows nothing of patterns: it looks for the first place of the start token and for the last
place of the end token behind it. The main statement is that both give the block that `extract` gives,
whatever the tokens are (`extract_eq_bySearch`).
-/

namespace DocWeave.DocBlock

open DocWeave.Text

/-! ## Patterns -/

/-- An item of a pattern: a character that stands for itself, or any text, which is captured. -/
inductive Item where
  | char (c : Char)
  | anything
deriving DecidableEq, Repr

/-- Text captured by a match, with the place where it begins. -/
abbrev Capture := Nat × List Char

/-- Matches a pattern against the beginning of a text that begins at the place `start`. Of the texts that
an item can take, the longest one that lets the rest of the pattern match is taken. -/
def matchHere : List Item → (start : Nat) → List Char → Option (List Capture)
  | [], _, _ => some []
  | .char _ :: _, _, [] => none
  | .char c :: items, start, d :: s => if c = d then matchHere items (start + 1) s else none
  | .anything :: items, start, s =>
    (List.range (s.length + 1)).reverse.findSome? fun n =>
      (matchHere items (start + n) (s.drop n)).map ((start, s.take n) :: ·)

/-- The leftmost match of a pattern. -/
def matchFirst (pattern : List Item) (s : List Char) : Option (List Capture) :=
  (List.range (s.length + 1)).findSome? fun i => matchHere pattern i (s.drop i)

/-- A character with a meaning of its own in the text of a pattern. -/
def isMeta (c : Char) : Bool := "\\.+*?()|[]\x7b\x7d^$#&-~".toList.contains c

/-- The text of a pattern that stands for a given text. -/
def escape (t : List Char) : List Char := t.flatMap fun c => if isMeta c then ['\\', c] else [c]

/-- Reads the items of a pattern: plain characters, escaped ones, line feeds, and any text. -/
def readItems : List Char → Option (List Item)
  | [] => some []
  | '\\' :: 'n' :: text => (readItems text).map (.char '\n' :: ·)
  | '\\' :: c :: text => if isMeta c then (readItems text).map (.char c :: ·) else none
  | '(' :: '.' :: '*' :: ')' :: text => (readItems text).map (.anything :: ·)
  | c :: text => if isMeta c then none else (readItems text).map (.char c :: ·)

/-- Reads a pattern whose flag says that any text may have line feeds in it. -/
def readPattern (text : List Char) : Option (List Item) :=
  (after? "(?s)".toList text).bind readItems

/-- The pattern of a block from a start token on. -/
def openPattern (tokens : BlockTokens) : List Char :=
  "(?s)".toList ++ escape tokens.start.toList ++ "\\n(.*)".toList

/-- The pattern of a block between two tokens. -/
def boundedPattern (tokens : BlockTokens) : List Char :=
  openPattern tokens ++ escape tokens.stop.toList

/-- The block that the two patterns find, if they can be read. -/
def byPatterns (tokens : BlockTokens) (comment : String) (firstLine : Nat) : Option DocBlock := do
  let bounded ← readPattern (boundedPattern tokens)
  let unbounded ← readPattern (openPattern tokens)
  let s := comment.toList
  let lineAt (place : Nat) : Nat := firstLine + countChar '\n' (s.take place)
  match (matchFirst bounded s).bind List.head? with
  | some (place, text) => return ⟨String.ofList text, lineAt place⟩
  | none =>
    match (matchFirst unbounded s).bind List.head? with
    | some (place, text) => return ⟨String.ofList text ++ noEndMarker, lineAt place⟩
    | none => return ⟨"", firstLine⟩

/-! ## Plain search -/

/-- The block from behind the first start token that ends its line to the last end token from there on,
or to the end of the comment. -/
def bySearch (tokens : BlockTokens) (comment : String) (firstLine : Nat) : DocBlock :=
  let s := comment.toList
  let opening := tokens.start.toList ++ ['\n']
  match (places opening s).head? with
  | none => ⟨"", firstLine⟩
  | some i =>
    let p := i + opening.length
    let line := firstLine + countChar '\n' (s.take p)
    match ((places tokens.stop.toList s).filter (p ≤ ·)).getLast? with
    | some j => ⟨String.ofList ((s.take j).drop p), line⟩
    | none => ⟨String.ofList (s.drop p) ++ noEndMarker, line⟩

/-! ## Reading the patterns -/

theorem isMeta_backslash : isMeta '\\' = true := by decide

theorem isMeta_paren : isMeta '(' = true := by decide

/-- An escaped text stands for itself, whatever characters it has. -/
theorem readItems_escape (t text : List Char) :
    readItems (escape t ++ text) = (readItems text).map (t.map Item.char ++ ·) := by
  induction t with
  | nil => simp [escape]
  | cons c t ih =>
    have hstep : readItems (escape (c :: t) ++ text) =
        (readItems (escape t ++ text)).map (.char c :: ·) := by
      rw [escape, List.flatMap_cons, ← escape, List.append_assoc]
      by_cases hmeta : isMeta c = true
      · rw [if_pos hmeta]
        show readItems ('\\' :: c :: (escape t ++ text)) = _
        have hn : c ≠ 'n' := by
          rintro rfl
          exact absurd hmeta (by decide)
        rw [readItems, if_pos hmeta]
        exact hn
      · rw [if_neg hmeta]
        have hslash : c ≠ '\\' := by
          rintro rfl
          exact hmeta isMeta_backslash
        have hparen : c ≠ '(' := by
          rintro rfl
          exact hmeta isMeta_paren
        simp [readItems, hslash, hparen, hmeta]
    rw [hstep, ih, Option.map_map]
    rfl

/-- A start token with the end of its line. -/
def opening (tokens : BlockTokens) : List Char := tokens.start.toList ++ ['\n']

theorem readPattern_open (tokens : BlockTokens) (text : List Char) :
    readPattern (openPattern tokens ++ text) =
      (readItems text).map fun items => (opening tokens).map .char ++ .anything :: items := by
  rw [readPattern, openPattern, List.append_assoc, List.append_assoc, after?_append, Option.bind_some,
    readItems_escape]
  have hline : readItems ("\\n(.*)".toList ++ text) =
      (readItems text).map fun items => .char '\n' :: .anything :: items := by
    show readItems ('\\' :: 'n' :: '(' :: '.' :: '*' :: ')' :: text) = _
    simp [readItems, Function.comp_def]
  rw [hline]
  simp [opening, Function.comp_def]

theorem readPattern_openPattern (tokens : BlockTokens) :
    readPattern (openPattern tokens) = some ((opening tokens).map .char ++ [.anything]) := by
  have h := readPattern_open tokens []
  rwa [List.append_nil] at h

theorem readPattern_boundedPattern (tokens : BlockTokens) :
    readPattern (boundedPattern tokens) =
      some ((opening tokens).map .char ++ .anything :: tokens.stop.toList.map .char) := by
  have hstop := readItems_escape tokens.stop.toList []
  rw [List.append_nil] at hstop
  rw [boundedPattern, readPattern_open, hstop]
  simp [readItems]

/-! ## Matching the patterns -/

/-- The first result of a function on the members that pass a test. -/
theorem findSome?_ite {α β : Type} (p : α → Bool) (f : α → Option β) (xs : List α) :
    xs.findSome? (fun x => if p x then f x else none) = (xs.filter p).findSome? f := by
  induction xs with
  | nil => rfl
  | cons x xs ih =>
    rw [List.findSome?_cons, List.filter_cons, ih]
    by_cases hx : p x = true
    · rw [if_pos hx, if_pos hx, List.findSome?_cons]
    · rw [if_neg hx, if_neg hx]

/-- Characters match the text they stand for. -/
theorem matchHere_chars (t : List Char) (items : List Item) (start : Nat) (s : List Char) :
    matchHere (t.map .char ++ items) start s =
      (after? t s).bind (matchHere items (start + t.length)) := by
  induction t generalizing start s with
  | nil => rfl
  | cons c t ih =>
    cases s with
    | nil => rfl
    | cons d s =>
      rw [List.map_cons, List.cons_append, matchHere, after?]
      split
      · rw [ih, List.length_cons, Nat.add_assoc, Nat.add_comm 1]
      · rfl

/-- Any text with nothing behind it takes everything. -/
theorem matchHere_rest (start : Nat) (s : List Char) :
    matchHere [.anything] start s = some [(start, s)] := by
  rw [matchHere, List.range_succ, List.reverse_append]
  simp [matchHere]

/-- Any text with characters behind it goes on to their last place. -/
theorem matchHere_until (t : List Char) (start : Nat) (s : List Char) :
    matchHere (.anything :: t.map .char) start s =
      (places t s).getLast?.map fun n => [(start, s.take n)] := by
  have hchars : ∀ n, (matchHere (t.map Item.char) (start + n) (s.drop n)).map
      ((start, s.take n) :: ·) =
        if t.isPrefixOf (s.drop n) then some [(start, s.take n)] else none := by
    intro n
    have hmatch := matchHere_chars t [] (start + n) (s.drop n)
    rw [List.append_nil] at hmatch
    rw [hmatch, after?_eq]
    split <;> rfl
  rw [matchHere]
  simp only [hchars]
  rw [findSome?_ite (fun n => t.isPrefixOf (s.drop n)), List.filter_reverse, ← places]
  rw [← List.head?_reverse]
  cases (places t s).reverse <;> rfl

/-- A pattern that begins with characters is tried at each of their places. -/
theorem matchFirst_chars (t : List Char) (items : List Item) (s : List Char) :
    matchFirst (t.map .char ++ items) s = (places t s).findSome? fun i =>
      matchHere items (i + t.length) (s.drop (i + t.length)) := by
  have hhere : ∀ i, matchHere (t.map .char ++ items) i (s.drop i) =
      if t.isPrefixOf (s.drop i) then matchHere items (i + t.length) (s.drop (i + t.length))
      else none := by
    intro i
    rw [matchHere_chars, after?_eq, List.drop_drop]
    split <;> rfl
  simp only [matchFirst, hhere]
  exact findSome?_ite (fun i => t.isPrefixOf (s.drop i)) _ _

theorem matchFirst_open (t s : List Char) :
    matchFirst (t.map .char ++ [.anything]) s =
      (places t s).head?.map fun i => [(i + t.length, s.drop (i + t.length))] := by
  rw [matchFirst_chars]
  simp only [matchHere_rest]
  cases places t s <;> rfl

/-- Both tokens are found from the first place of the first one on, or not at all: a place of the second
token behind a later place of the first is a place behind the first place as well. -/
theorem matchFirst_bounded (t stop s : List Char) :
    matchFirst (t.map .char ++ .anything :: stop.map .char) s =
      (places t s).head?.bind fun i => (places stop (s.drop (i + t.length))).getLast?.map fun n =>
        [(i + t.length, (s.drop (i + t.length)).take n)] := by
  rw [matchFirst_chars]
  simp only [matchHere_until]
  have hascending := pairwise_places t s
  cases hplaces : places t s with
  | nil => rfl
  | cons i later =>
    rw [hplaces] at hascending
    rw [List.findSome?_cons, List.head?_cons, Option.bind_some]
    cases hlast : (places stop (s.drop (i + t.length))).getLast? with
    | some n => rfl
    | none =>
      have hnot : ¬stop <:+: s.drop (i + t.length) :=
        places_eq_nil_iff.mp (List.getLast?_eq_none_iff.mp hlast)
      rw [Option.map_none]
      refine List.findSome?_eq_none_iff.mpr fun j hj => ?_
      have hlater : i + t.length ≤ j + t.length := by
        have := (List.pairwise_cons.mp hascending).1 j hj
        omega
      have hnone : places stop (s.drop (j + t.length)) = [] := by
        refine places_eq_nil_iff.mpr fun hin => hnot (hin.trans ?_)
        obtain ⟨gap, hgap⟩ := Nat.exists_eq_add_of_le hlater
        rw [hgap, ← List.drop_drop]
        exact (List.drop_suffix _ _).isInfix
      rw [hnone]
      rfl

/-! ## One block -/

/-- A block that begins at the place `p` of a comment, as far as the end token goes on. -/
def blockAt (tokens : BlockTokens) (comment : String) (firstLine p : Nat) : DocBlock :=
  let s := comment.toList
  let line := firstLine + countChar '\n' (s.take p)
  match (places tokens.stop.toList (s.drop p)).getLast? with
  | some n => ⟨String.ofList ((s.drop p).take n), line⟩
  | none => ⟨String.ofList (s.drop p) ++ noEndMarker, line⟩

/-- The places of the end token that count are those in what is behind the start token. -/
theorem bySearch_eq (tokens : BlockTokens) (comment : String) (firstLine : Nat) :
    bySearch tokens comment firstLine =
      ((places (opening tokens) comment.toList).head?.map fun i =>
        blockAt tokens comment firstLine (i + (opening tokens).length)).getD ⟨"", firstLine⟩ := by
  unfold bySearch
  dsimp only
  rw [← opening]
  cases hstart : (places (opening tokens) comment.toList).head? with
  | none => rfl
  | some i =>
    have hp : i + (opening tokens).length ≤ comment.toList.length := by
      obtain ⟨hi, hprefix⟩ := mem_places.mp (List.mem_of_head? hstart)
      have hlength := hprefix.length_le
      rw [List.length_drop] at hlength
      omega
    rw [Option.map_some, Option.getD_some, blockAt]
    dsimp only
    rw [filter_places _ _ hp, List.getLast?_map]
    cases (places tokens.stop.toList (comment.toList.drop (i + (opening tokens).length))).getLast? with
    | none => rfl
    | some n => simp [List.drop_take]

theorem byPatterns_eq (tokens : BlockTokens) (comment : String) (firstLine : Nat) :
    byPatterns tokens comment firstLine = some (bySearch tokens comment firstLine) := by
  rw [byPatterns, readPattern_boundedPattern, readPattern_openPattern, bySearch_eq]
  simp only [Option.bind_eq_bind, Option.bind_some, matchFirst_open, matchFirst_bounded]
  cases (places (opening tokens) comment.toList).head? with
  | none => rfl
  | some i =>
    rw [Option.map_some, Option.map_some, Option.getD_some, Option.bind_some, blockAt]
    cases (places tokens.stop.toList (comment.toList.drop (i + (opening tokens).length))).getLast? with
    | none => rfl
    | some n => rfl

theorem extract_eq (tokens : BlockTokens) (comment : String) (firstLine : Nat) :
    extract tokens comment firstLine = bySearch tokens comment firstLine := by
  rw [extract, bySearch_eq]
  dsimp only
  rw [← opening, splitFirst?_eq_places]
  cases hstart : (places (opening tokens) comment.toList).head? with
  | none => rfl
  | some i =>
    -- what is before the block is the beginning of the comment up to its place
    have hbefore : comment.toList.take i ++ opening tokens =
        comment.toList.take (i + (opening tokens).length) := by
      have hprefix := (mem_places.mp (List.mem_of_head? hstart)).2
      rw [List.take_add, ← List.prefix_iff_eq_take.mp hprefix]
    rw [Option.map_some, Option.map_some, Option.getD_some, blockAt]
    dsimp only
    rw [hbefore, splitLast?_eq_places]
    cases (places tokens.stop.toList (comment.toList.drop (i + (opening tokens).length))).getLast? with
    | none => rfl
    | some n => rfl

/-- **Blocks by patterns and by plain search.** Whatever characters the tokens have, their patterns can
be read, and patterns and plain search find the block that is extracted. -/
theorem extract_eq_bySearch (tokens : BlockTokens) (comment : String) (firstLine : Nat) :
    extract tokens comment firstLine = bySearch tokens comment firstLine ∧
      byPatterns tokens comment firstLine = some (extract tokens comment firstLine) := by
  rw [byPatterns_eq, extract_eq]
  exact ⟨rfl, rfl⟩

/-- Tokens with characters of patterns in them, a start token inside another one, and end tokens on both
sides of the block. -/
example : extract ⟨"(*(*", "(*"⟩ "(*(*(*\nx (*(* y" 3 = ⟨"x (*", 4⟩ := by decide +kernel

end DocWeave.DocBlock
