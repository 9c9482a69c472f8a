import DocWeave.Link.Marker
import DocWeave.Proofs.Inflection.BackTicks

/-!
# One pass fills in all markers

`Marks` says what a marker and its name are without saying how they are found, and a text is *unmarked*
when no marker begins anywhere in it. The link that replaces a marker has no back-tick, and it begins
and ends with characters that stand neither inside nor before the name of a marker. So a marker in the
result would have been copied character by character (`copied_of_substitute`), and then it was a marker
of the given text as well. Hence nothing is left to fill in (`fillMarkers_settles`).
-/

namespace DocWeave.Link

open DocWeave.Text

/-! ## Markers -/

/-- The text begins with a marker of a name: a caret, and between back-ticks some marker characters and
one more character, which is no back-tick and no line end. -/
def Marks (token s : List Char) : Prop :=
  ∃ name last rest, (∀ c ∈ name, isMarkerChar c = true) ∧ last ≠ '\x60' ∧ last ≠ '\n' ∧
    token = name ++ [last] ∧ s = '^' :: '\x60' :: (token ++ '\x60' :: rest)

/-- No marker begins anywhere in the text. -/
def Unmarked (s : List Char) : Prop := ∀ back, back <:+ s → ∀ token, ¬ Marks token back

theorem isMarkerChar_backTick : isMarkerChar '\x60' = false := by decide

theorem isMarkerChar_lineEnd : isMarkerChar '\n' = false := by decide

theorem isMarkerChar_bracket : isMarkerChar '[' = false := by decide

/-- A character of a class is none outside of it. -/
theorem ne_of_class {p : Char → Bool} {c d : Char} (h : p c = true) (hd : p d = false) : c ≠ d := by
  rintro rfl
  exact Bool.false_ne_true (hd.symm.trans h)

/-- The name of a marker has no back-tick. -/
theorem Marks.not_mem {token s : List Char} (h : Marks token s) : '\x60' ∉ token := by
  obtain ⟨name, last, rest, hname, hlast, -, rfl, -⟩ := h
  intro hmem
  rcases List.mem_append.mp hmem with hmem | hmem
  · exact ne_of_class (hname _ hmem) isMarkerChar_backTick rfl
  · exact hlast (List.mem_singleton.mp hmem).symm

/-- Every marker is found. -/
theorem Marks.markerName?_eq {token s : List Char} (h : Marks token s) :
    markerName? s = some token := by
  obtain ⟨name, last, rest, hname, hlast, hend, rfl, rfl⟩ := h
  have hafter : after? ['^', '\x60'] ('^' :: '\x60' :: (name ++ [last] ++ '\x60' :: rest)) =
      some (name ++ [last] ++ '\x60' :: rest) := rfl
  rw [markerName?, hafter, Option.bind_some, List.append_assoc, List.takeWhile_append_of_pos hname,
    List.dropWhile_append_of_pos hname]
  cases hmarker : isMarkerChar last with
  | true => simp [hmarker, isMarkerChar_backTick]
  | false => simp [hmarker, hend]

/-- What is found is a marker. -/
theorem marks_of_markerName? {token s : List Char} (h : markerName? s = some token) :
    Marks token s := by
  obtain ⟨t, ht, htoken⟩ := Option.bind_eq_some_iff.mp h
  obtain rfl := after?_eq_some_iff.mp ht
  have hname : ∀ c ∈ t.takeWhile isMarkerChar, isMarkerChar c = true :=
    List.all_eq_true.mp List.all_takeWhile
  have hsplit := List.takeWhile_append_dropWhile (p := isMarkerChar) (l := t)
  dsimp only at htoken
  split at htoken
  · -- only marker characters: the last of them is the one more character
    next rest hdrop =>
    split at htoken
    · cases htoken
    · next hne =>
      obtain rfl := Option.some.inj htoken
      have hne : t.takeWhile isMarkerChar ≠ [] := by simpa using hne
      have hlast := hname _ (List.getLast_mem hne)
      rw [hdrop] at hsplit
      refine ⟨_, _, rest, fun c hc => hname c (List.dropLast_subset _ hc), ?_, ?_,
        (List.dropLast_concat_getLast hne).symm, by rw [hsplit]; rfl⟩
      · exact ne_of_class hlast isMarkerChar_backTick
      · exact ne_of_class hlast isMarkerChar_lineEnd
  · next last rest hother hdrop =>
    split at htoken
    · cases htoken
    · next hend =>
      obtain rfl := Option.some.inj htoken
      rw [hdrop] at hsplit
      refine ⟨_, last, rest, hname, hother, by simpa using hend, rfl, ?_⟩
      rw [List.append_assoc, List.singleton_append, hsplit]
      rfl
  · cases htoken

/-! ## Links -/

/-- What is put in place of a marker: a text without back-ticks between `[` and `)`. -/
structure Shielded (out : List Char) : Prop where
  not_mem : '\x60' ∉ out
  framed : ∃ inner, inner ≠ [] ∧ out = '[' :: (inner ++ [')'])

theorem shielded_markdown {title target : List Char} (htitle : '\x60' ∉ title)
    (htarget : '\x60' ∉ target) : Shielded (markdown title target) := by
  refine ⟨?_, title ++ ']' :: '(' :: target, by simp, by simp [markdown]⟩
  simp [markdown, htitle, htarget]

/-- A link whose name and whose root path have no back-tick. -/
theorem shielded_resolveMarker {page : MarkerPage} (hroot : '\x60' ∉ page.rootPath.toList)
    {token : List Char} (htoken : '\x60' ∉ token) : Shielded (resolveMarker page token) := by
  unfold resolveMarker
  dsimp only
  split
  · next owner name hsplit =>
    -- owner and name are parts of the token
    obtain ⟨⟨front, back⟩, hfirst, hparts⟩ := Option.bind_eq_some_iff.mp hsplit
    have htoken' := eq_of_splitFirst? hfirst
    dsimp only at hparts
    split at hparts
    · cases hparts
      rw [htoken'] at htoken
      simp only [List.mem_append, not_or] at htoken
      have hanchor := Inflection.not_mem_anchored htoken.2
      refine shielded_markdown (Inflection.not_mem_titleized htoken.2) ?_
      split
      · simp [hanchor]
      · simp [hroot, Inflection.not_mem_pageKey htoken.1.1, hanchor]
    · cases hparts
  · split
    · refine shielded_markdown (Inflection.not_mem_titleized ?_) ?_
      · exact not_mem_replace (by decide) (by decide) htoken
      · simp [hroot, Inflection.not_mem_pageKey htoken]
    · refine shielded_markdown (Inflection.not_mem_titleized htoken) ?_
      simp [Inflection.not_mem_anchored htoken]

/-- A piece is taken only where a marker begins, and a link is put in its place. -/
theorem marker_eq_some {page : MarkerPage} (hroot : '\x60' ∉ page.rootPath.toList)
    {prev : Option Char} {s out : List Char} {n : Nat} (h : marker page prev s = some (n, out)) :
    Shielded out := by
  obtain ⟨token, htoken, heq⟩ := Option.map_eq_some_iff.mp h
  cases heq
  exact shielded_resolveMarker hroot (marks_of_markerName? htoken).not_mem

theorem marker_eq_none_iff {page : MarkerPage} {prev : Option Char} {s : List Char} :
    marker page prev s = none ↔ ∀ token, ¬ Marks token s := by
  rw [marker, Option.map_eq_none_iff, Option.eq_none_iff_forall_ne_some]
  exact forall_congr' fun token =>
    not_congr ⟨marks_of_markerName?, Marks.markerName?_eq⟩

/-! ## What is left -/

section

variable {find : Recogniser (List Char)} {prev : Option Char} {s more : List Char}

/-- Links are put in place of what is taken. -/
def Shields (find : Recogniser (List Char)) : Prop :=
  ∀ prev s n out, find prev s = some (n, out) → Shielded out

/-- The result begins with a link, or as the text does. -/
theorem head_of_substitute (hfind : Shields find) {c : Char} (h : substitute find prev s = c :: more) :
    (∃ out behind, Shielded out ∧ c :: more = out ++ behind) ∨
      ∃ rest, s = c :: rest ∧ substitute find (some c) rest = more := by
  cases s with
  | nil =>
    rw [substitute] at h
    cases h
  | cons d rest =>
    rcases substitute_cons find prev d rest with ⟨n, out, htaken, heq⟩ | ⟨-, heq⟩
    · exact .inl ⟨out, _, hfind _ _ _ _ htaken, h.symm.trans heq⟩
    · obtain ⟨rfl, htail⟩ := List.cons.inj (heq.symm.trans h)
      exact .inr ⟨rest, rfl, htail⟩

/-- A back-tick at the beginning of the result stands at the beginning of the text. -/
theorem copied_backTick (hfind : Shields find) (h : substitute find prev s = '\x60' :: more) :
    ∃ rest, s = '\x60' :: rest ∧ substitute find (some '\x60') rest = more := by
  rcases head_of_substitute hfind h with ⟨out, behind, hshield, hlink⟩ | hcopied
  · obtain ⟨inner, -, rfl⟩ := hshield.framed
    cases hlink
  · exact hcopied

/-- What looks like the name of a marker in the result, with a back-tick behind it, stands in the text:
no part of a link is in it. -/
theorem copied_of_substitute (hfind : Shields find) {name : List Char} {last : Char}
    (hname : ∀ c ∈ name, isMarkerChar c = true)
    (h : substitute find prev s = name ++ last :: '\x60' :: more) :
    ∃ rest, s = name ++ last :: '\x60' :: rest := by
  induction name generalizing prev s with
  | nil =>
    rcases head_of_substitute hfind h with ⟨out, behind, hshield, hlink⟩ | ⟨rest, rfl, htail⟩
    · -- the second character of a link is no back-tick
      obtain ⟨inner, hne, rfl⟩ := hshield.framed
      obtain ⟨d, inner, rfl⟩ := List.exists_cons_of_ne_nil hne
      obtain ⟨-, rfl, -⟩ := List.cons.inj hlink |>.imp id List.cons.inj
      exact absurd hshield.not_mem (by simp)
    · obtain ⟨rest, rfl, -⟩ := copied_backTick hfind htail
      exact ⟨rest, rfl⟩
  | cons d name ih =>
    rcases head_of_substitute hfind h with ⟨out, behind, hshield, hlink⟩ | ⟨rest, rfl, htail⟩
    · -- a link does not begin with a marker character
      obtain ⟨inner, -, rfl⟩ := hshield.framed
      obtain ⟨rfl, -⟩ := List.cons.inj hlink
      exact absurd rfl (ne_of_class (hname '[' List.mem_cons_self) isMarkerChar_bracket)
    · obtain ⟨rest, rfl⟩ := ih (fun c hc => hname c (List.mem_cons_of_mem _ hc)) htail
      exact ⟨rest, rfl⟩

theorem unmarked_nil : Unmarked [] := by
  rintro back hback token ⟨_, _, _, _, _, _, _, rfl⟩
  cases List.suffix_nil.mp hback

theorem unmarked_cons {c : Char} (h : ∀ token, ¬ Marks token (c :: s)) (hs : Unmarked s) :
    Unmarked (c :: s) := by
  intro back hback
  rcases List.suffix_cons_iff.mp hback with rfl | hback
  · exact h
  · exact hs back hback

/-- A link in front of an unmarked text makes no marker. -/
theorem unmarked_append {out : List Char} (hout : Shielded out) (hs : Unmarked s) :
    Unmarked (out ++ s) := by
  obtain ⟨htick, inner, -, rfl⟩ := hout
  -- every beginning in the link has either a character behind it that is no back-tick, or is `)`
  have hinner : ∀ part, '\x60' ∉ part → Unmarked (part ++ (')' :: s)) := by
    intro part hpart
    induction part with
    | nil =>
      refine unmarked_cons ?_ hs
      rintro token ⟨_, _, _, _, _, _, _, heq⟩
      cases heq
    | cons c part ih =>
      rw [List.mem_cons, not_or] at hpart
      refine unmarked_cons ?_ (ih hpart.2)
      rintro token ⟨_, _, _, _, _, _, _, heq⟩
      cases part with
      | nil => cases heq
      | cons d part =>
        obtain ⟨-, rfl, -⟩ := List.cons.inj heq |>.imp id List.cons.inj
        exact hpart.2 List.mem_cons_self
  have hpart := hinner ('[' :: inner) (by simpa using htick)
  simpa using hpart

end

variable {page : MarkerPage}

/-- Filling in leaves no marker. -/
theorem unmarked_substitute (hroot : '\x60' ∉ page.rootPath.toList) (prev : Option Char)
    (s : List Char) : Unmarked (substitute (marker page) prev s) := by
  have hfind : Shields (marker page) := fun _ _ _ _ => marker_eq_some hroot
  -- The induction is on the length: a step goes on behind all that is taken.
  induction hlength : s.length using Nat.strongRecOn generalizing prev s with
  | ind length ih =>
    subst hlength
    cases s with
    | nil =>
      rw [substitute]
      exact unmarked_nil
    | cons c rest =>
      rcases substitute_cons (marker page) prev c rest with ⟨n, out, htaken, heq⟩ | ⟨hnone, heq⟩
      · rw [heq]
        refine unmarked_append (hfind _ _ _ _ htaken) (ih _ ?_ _ _ rfl)
        rw [List.length_drop, List.length_cons]
        omega
      · rw [heq]
        refine unmarked_cons ?_ (ih _ (by simp) _ _ rfl)
        -- a marker that begins with this character was there before
        rintro token ⟨name, last, more, hname, hlast, hend, rfl, hmarks⟩
        obtain ⟨rfl, htail⟩ := List.cons.inj hmarks
        obtain ⟨rest, rfl, hcopied⟩ := copied_backTick hfind htail
        rw [List.append_assoc] at hcopied
        obtain ⟨rest, rfl⟩ := copied_of_substitute hfind hname hcopied
        have hmarked : Marks (name ++ [last]) ('^' :: '\x60' :: (name ++ last :: '\x60' :: rest)) :=
          ⟨name, last, rest, hname, hlast, hend, rfl, by simp⟩
        exact hnone _ _ (by rw [marker, hmarked.markerName?_eq]; rfl)

/-- A text without markers stays as it is. -/
theorem substitute_of_unmarked {s : List Char} (h : Unmarked s) (prev : Option Char) :
    substitute (marker page) prev s = s := by
  induction s generalizing prev with
  | nil => rw [substitute]
  | cons c rest ih =>
    have hnone : marker page prev (c :: rest) = none :=
      marker_eq_none_iff.mpr (h _ (List.suffix_refl _))
    rw [substitute, hnone]
    dsimp only
    rw [ih fun back hback => h back (hback.trans (List.suffix_cons _ _))]

/-- **One pass fills in all markers.** On a page whose root path has no back-tick no marker is left in
the result, so that filling in once more changes nothing; and a text without markers is not changed. -/
theorem fillMarkers_settles (page : MarkerPage) (hroot : '\x60' ∉ page.rootPath.toList)
    (text : String) :
    Unmarked (fillMarkers page text).toList ∧
      fillMarkers page (fillMarkers page text) = fillMarkers page text ∧
      (Unmarked text.toList → fillMarkers page text = text) := by
  have hstays : ∀ t : String, Unmarked t.toList → fillMarkers page t = t := by
    intro t ht
    rw [fillMarkers, substitute_of_unmarked ht, String.ofList_toList]
  have hleft : Unmarked (fillMarkers page text).toList := by
    rw [fillMarkers, String.toList_ofList]
    exact unmarked_substitute hroot none text.toList
  exact ⟨hleft, hstays _ hleft, hstays text⟩

/-- Markers that end in a caret, touch stray back-ticks, or are no markers. -/
theorem fillMarkers_settles_strays : '\x60' ∉ "./".toList ∧
    fillMarkers ⟨"billing-invoice", "./"⟩ "^^\x60a^\x60b\x60 ^\x60Billing::Customer#d\x60\x60 ^\x60\x60" =
      "^[A^](#a^)b\x60 [D](./billing-customer#d)\x60 ^\x60\x60" ∧
    Unmarked "^[A^](#a^)b\x60 [D](./billing-customer#d)\x60 ^\x60\x60".toList := by
  have hfilled : fillMarkers ⟨"billing-invoice", "./"⟩
      "^^\x60a^\x60b\x60 ^\x60Billing::Customer#d\x60\x60 ^\x60\x60" =
        "^[A^](#a^)b\x60 [D](./billing-customer#d)\x60 ^\x60\x60" := by decide +kernel
  refine ⟨by decide, hfilled, ?_⟩
  rw [← hfilled]
  exact (fillMarkers_settles ⟨"billing-invoice", "./"⟩ (by decide) _).1

end DocWeave.Link
