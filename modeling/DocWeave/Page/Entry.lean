import DocWeave.OrderedMap
import DocWeave.Reference

/-!
# Entries of a page

The rendered documentation of one member, and the collection of them for a page. An entry is identified
by kind and name, so `#build` and `.build` are different entries.
-/

namespace DocWeave

open DocWeave.Text

/-- The documentation of a member. -/
structure Entry where
  text : String
  reference : Reference
deriving Inhabited

/-- Nothing but blanks. -/
def Entry.isBlank (e : Entry) : Bool := isBlankText e.text.toList

/-- What identifies an entry on its page. -/
structure EntryKey where
  kind : MemberKind
  name : String
deriving DecidableEq, Repr, Inhabited

/-- The key of the member that a reference names. -/
def EntryKey.of (r : Reference) : EntryKey := ⟨r.kind, r.name⟩

/-- The entries of a page, in the order in which they were made. -/
abbrev Entries := OrderedMap EntryKey Entry

end DocWeave
