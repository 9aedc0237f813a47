import Mathlib.Data.List.Basic
import Runbook.Mode.Permission

/-! # What a mode grants

Two questions can be asked of a table of modes: which tools a mode has, and whether a call of a tool is allowed in
it. The answers agree: a call is turned down exactly if the mode does not have the tool. A tool that it has is
allowed whatever the parameters are, unless the first grant that has it is that of the edit group with a pattern.
Then the files that the call names are tried in order, and the first that does not match is named in the refusal;
a pattern that cannot be tried, or a path that has no text, is a fault of another kind.
-/

namespace Runbook

/-- A table is never replaced by the empty one. -/
theorem Value.orElse_dict (entries : Entries) : (Value.dict entries).orElse (.dict []) = .dict entries := by
  cases entries <;> rfl

namespace Mode

variable {mode : Mode} {tool pattern slug : String} {description : Option String} {entries : Entries}
  {grants : List Grant} {fault : Fault}

/-! ## A table through its changes -/

namespace Table

/-- What changes a table. -/
inductive Change where
  /-- A mode is registered. -/
  | register (mode : Mode)
  /-- Another mode is to be the active one. -/
  | activate (slug : String)

/-- A table with a change made to it. When no mode has the slug that is to be active, it stays as it is. -/
def change (t : Table) : Change → Table
  | .register mode => t.register mode
  | .activate slug => (t.activate slug).toOption.getD t

/-- A table after changes. -/
def after (t : Table) (changes : List Change) : Table := changes.foldl change t

end Table

/-! ## The files that have to match -/

/-- The fault that a call comes to whose files have to match a pattern. -/
inductive Refuses (mode : Mode) (pattern : String) (description : Option String) (tool : String)
    (entries : Entries) : Fault → Prop
  /-- The path has no text. -/
  | unwritable (textless : pathUnwritable entries = true) :
      Refuses mode pattern description tool entries .integerUnwritable
  /-- There is a file to be tried, but the pattern cannot be tried. -/
  | strained {fault : Fault} (written : pathUnwritable entries = false) (any : checkedPaths entries ≠ [])
      (strain : Pattern.strain? pattern = some fault) : Refuses mode pattern description tool entries fault
  /-- A file does not match, and all files before it do. -/
  | unmatched {before after : List String} {path : String} (written : pathUnwritable entries = false)
      (sound : Pattern.strain? pattern = none) (checked : checkedPaths entries = before ++ path :: after)
      (matching : ∀ p ∈ before, Pattern.matchesText p pattern = true)
      (stray : Pattern.matchesText path pattern = false) :
      Refuses mode pattern description tool entries (.fileRestricted (.text mode.name) (.text pattern)
        (Value.ofText? description) (.text path) (.text tool))

/-- The grant that decides about a tool: the first whose group has it. -/
def decisive? (grants : List Grant) (tool : String) : Option Grant :=
  grants.find? fun grant => (toolsOfGroup grant.group).contains tool

/-- The grant that decides about a tool is that of the edit group, with a pattern that the files have to match. -/
structure EditsBy (mode : Mode) (tool pattern : String) (description : Option String) : Prop where
  decides : decisive? mode.grants tool = some { group := "edit", restriction := some ⟨some pattern, description⟩ }
  nonempty : pattern ≠ ""

namespace Table

variable {t : Table}

/-- The mode with a slug lets its edit tools change matching files only, when the tool is one of them. -/
def Restricts (t : Table) (slug tool : String) (mode : Mode) (pattern : String) (description : Option String) : Prop :=
  t.find? slug = some mode ∧ EditsBy mode tool pattern description

/-- What is said of a call, by whether the mode has the tool and whether the files have to match. -/
inductive Verdict (t : Table) (slug tool : String) (entries : Entries) : Except Fault Bool → Prop
  | missing (lacks : tool ∉ t.toolsFor slug) : Verdict t slug tool entries (.ok false)
  | free (has : tool ∈ t.toolsFor slug)
      (unrestricted : ∀ mode pattern description, ¬t.Restricts slug tool mode pattern description) :
      Verdict t slug tool entries (.ok true)
  | bound {mode : Mode} {pattern : String} {description : Option String}
      (restricts : t.Restricts slug tool mode pattern description) :
      Verdict t slug tool entries ((restrict mode pattern description tool entries).map fun _ => true)

/-- The grant that decides about a tool is one, and so are the files that have to match. -/
theorem Restricts.unique {mode' : Mode} {pattern' : String} {description' : Option String}
    (restricts : t.Restricts slug tool mode pattern description)
    (restricts' : t.Restricts slug tool mode' pattern' description') :
    mode = mode' ∧ pattern = pattern' ∧ description = description' := by
  obtain rfl := Option.some.inj (restricts.1.symm.trans restricts'.1)
  have same := Option.some.inj (restricts.2.decides.symm.trans restricts'.2.decides)
  simpa using same

end Table

end Mode

end Runbook
