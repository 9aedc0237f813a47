import Runbook.Lookup
import Runbook.Proofs.Keys
import Runbook.Proofs.Numerals

/-! # Parts of documents under their addresses

An address leads from a document to a part of it, from link to link: a key of a table, or an index of a list. It is
written as a path, with points between the links. The part at an address is found under its path, and where an address
leads out of the document nothing is found. So each output that a step declares gets the part of the raw result at the
address that it gives.
-/

namespace Runbook

/-! ## Paths cut into links -/

namespace Text

variable {separator : Char} {cs : List Char} {pieces : List (List Char)}

theorem splitAt_of_not_mem (absent : separator ∉ cs) : splitAt separator cs = [cs] := by
  induction cs with
  | nil => rfl
  | cons c rest ih =>
    rw [List.mem_cons, not_or] at absent
    rw [splitAt, if_neg (by simpa using Ne.symm absent.1), ih absent.2]

/-- A text with a separator in it is cut there into two, and each of these on its own. -/
theorem splitAt_append (separator : Char) (cs rest : List Char) :
    splitAt separator (cs ++ separator :: rest) = splitAt separator cs ++ splitAt separator rest := by
  induction cs with
  | nil => simp [splitAt]
  | cons c cs ih =>
    rw [List.cons_append, splitAt, splitAt, ih]
    split
    · rfl
    · cases pieces : splitAt separator cs with
      | nil => exact absurd pieces (splitAt_ne_nil separator cs)
      | cons piece more => rfl

/-- Pieces without the separator are what the text is cut into that has them with separators between them. -/
theorem splitAt_intercalate (some : pieces ≠ []) (apart : ∀ piece ∈ pieces, separator ∉ piece) :
    splitAt separator ([separator].intercalate pieces) = pieces := by
  induction pieces with
  | nil => exact absurd rfl some
  | cons piece rest ih =>
    rw [List.forall_mem_cons] at apart
    cases rest with
    | nil => simpa using splitAt_of_not_mem apart.1
    | cons next rest =>
      rw [List.intercalate_cons_cons, List.append_assoc, List.singleton_append, splitAt_append,
        splitAt_of_not_mem apart.1, ih (List.cons_ne_nil next rest) apart.2, List.singleton_append]

theorem split_intercalate {joint : String} {pieces : List String} (single : joint.toList = [separator])
    (some : pieces ≠ []) (apart : ∀ piece ∈ pieces, separator ∉ piece.toList) :
    split separator (joint.intercalate pieces) = pieces := by
  rw [split, String.toList_intercalate, single, splitAt_intercalate (by simpa using some) (by simpa using apart),
    List.map_map]
  simp [Function.comp_def]

end Text

/-! ## Indices as texts -/

namespace Number

theorem not_isPadding_of_isDigit {c : Char} (digit : c.isDigit = true) : isPadding c = false := by
  obtain ⟨low, high⟩ := toNat_of_isDigit digit
  rw [isPadding, not_isBlank (by omega) (by omega), Bool.false_and]

theorem unpadded_of_digits {cs : List Char} (digits : ∀ c ∈ cs, c.isDigit = true) :
    unpadded (String.ofList cs) = cs := by
  have kept {l : List Char} (digits : ∀ c ∈ l, c.isDigit = true) : l.dropWhile isPadding = l := by
    cases l with
    | nil => rfl
    | cons c rest => rw [List.dropWhile_cons_of_neg (by simp [not_isPadding_of_isDigit (digits c List.mem_cons_self)])]
  have back : ∀ c ∈ cs.reverse, c.isDigit = true := fun c member => digits c (List.mem_reverse.mp member)
  rw [unpadded, String.toList_ofList, kept digits, kept back, List.reverse_reverse]

/-- A text of digits alone is read as the number that they write, unless there are too many of them. -/
theorem readInt_intText (n : Nat) :
    readInt (intText n) = if n < 10 ^ digitLimit then .ok n else .error (.tooLong (digitsOf n).length) := by
  have digits : ∀ c ∈ digitsOf n, c.isDigit = true := fun c => isDigit_of_mem_digitsOf
  have unsigned : splitSign (digitsOf n) = (false, digitsOf n) := by
    unfold splitSign
    split
    · next rest minus => exact absurd (digits '-' (minus ▸ List.mem_cons_self)) (by decide)
    · next rest plus => exact absurd (digits '+' (plus ▸ List.mem_cons_self)) (by decide)
    · rfl
  have short : (digitsOf n).length ≤ digitLimit ↔ n < 10 ^ digitLimit :=
    Nat.length_toDigits_le_iff (by decide) (by decide)
  have value := ofDigits_digitsOf n
  have some : (digitsOf n).map (·.toNat - 48) ≠ [] := mt List.map_eq_nil_iff.mp Nat.toDigits_ne_nil
  have length : ((digitsOf n).map (·.toNat - 48)).length = (digitsOf n).length := List.length_map _
  change readInt (String.ofList (digitsOf n)) = _
  rw [readInt, unpadded_of_digits digits, unsigned]
  simp only [spanDigits_of_digits digits]
  rw [← length] at short ⊢
  generalize (digitsOf n).map (·.toNat - 48) = ds at value some short
  cases ds with
  | nil => exact absurd rfl some
  | cons d ds =>
    simp only [value, Bool.false_eq_true, if_false]
    by_cases few : n < 10 ^ digitLimit
    · rw [if_pos few, if_neg (by omega)]
    · rw [if_neg few, if_pos (by omega)]

end Number

namespace Value

/-! ## Documents -/

/-- The most items that a list can hold. -/
def capacity : Nat := 2 ^ 63 - 1

/-- A value of the usual interchange format: the keys of its tables are texts. -/
inductive IsDocument : Value → Prop
  | null : IsDocument .null
  | bool (b : Bool) : IsDocument (.bool b)
  | int (n : Int) : IsDocument (.int n)
  | float (x : Float) : IsDocument (.float x)
  | text (s : String) : IsDocument (.text s)
  | list {items : List Value} (held : items.length ≤ capacity) (each : ∀ v ∈ items, IsDocument v) :
      IsDocument (.list items)
  | dict {entries : Entries} (named : entries.Named) (once : entries.keys.Nodup)
      (each : ∀ e ∈ entries, IsDocument e.2) : IsDocument (.dict entries)

theorem isDocument_record {fields : List (String × Value)} (once : (fields.map (·.1)).Nodup)
    (each : ∀ field ∈ fields, field.2.IsDocument) : (record fields).IsDocument := by
  apply IsDocument.dict (Entries.named_map (·.1) (·.2) fields) (Entries.nodup_keys_map once (·.2))
  intro e member
  obtain ⟨field, listed, rfl⟩ := List.mem_map.mp member
  exact each field listed

/-! ## Addresses -/

/-- A link of an address. -/
inductive Link where
  | key (name : String)
  | index (n : Nat)

/-- A link as it is written in a path. -/
def Link.text : Link → String
  | key name => name
  | index n => Number.intText n

/-- The path that an address is written as. -/
def path (address : List Link) : String := ".".intercalate (address.map Link.text)

/-- There is an address, and no point in it but those between its links. -/
def Writable (address : List Link) : Prop := address ≠ [] ∧ ∀ name, .key name ∈ address → '.' ∉ name.toList

/-- The part of a value at an address. -/
inductive Addresses : Value → List Link → Value → Prop
  | here (v : Value) : Addresses v [] v
  | entry {entries : Entries} {link : Link} {rest : List Link} {v part : Value}
      (member : (.text link.text, v) ∈ entries) (within : Addresses v rest part) :
      Addresses (.dict entries) (link :: rest) part
  | item {items : List Value} {n : Nat} {rest : List Link} {v part : Value} (member : items[n]? = some v)
      (within : Addresses v rest part) : Addresses (.list items) (.index n :: rest) part

/-- An address leads out of a value: below null, to a key that is missing, to an index beyond the end of a list, or to
an item of a list by a word that is no number. -/
inductive Leaves : Value → List Link → Prop
  | beneath (link : Link) (rest : List Link) : Leaves .null (link :: rest)
  | missing {entries : Entries} {link : Link} {rest : List Link} (absent : .text link.text ∉ entries.keys) :
      Leaves (.dict entries) (link :: rest)
  | beyond {items : List Value} {n : Nat} {rest : List Link} (outside : items.length ≤ n) :
      Leaves (.list items) (.index n :: rest)
  | word {items : List Value} {name : String} {rest : List Link} (other : ∀ n, Number.readInt name ≠ .ok n) :
      Leaves (.list items) (.key name :: rest)
  | entry {entries : Entries} {link : Link} {rest : List Link} {v : Value} (member : (.text link.text, v) ∈ entries)
      (within : Leaves v rest) : Leaves (.dict entries) (link :: rest)
  | item {items : List Value} {n : Nat} {rest : List Link} {v : Value} (member : items[n]? = some v)
      (within : Leaves v rest) : Leaves (.list items) (.index n :: rest)

variable {v part : Value} {address : List Link} {entries : Entries} {items : List Value} {name : String} {n : Nat}

/-- A path is cut into the links of the address that it writes. -/
theorem split_path (writable : Writable address) : Text.split '.' (path address) = address.map Link.text := by
  apply Text.split_intercalate
  · rfl
  · simpa using writable.1
  · intro piece member
    obtain ⟨link, listed, rfl⟩ := List.mem_map.mp member
    cases link with
    | key name => exact writable.2 name listed
    | index n =>
      intro point
      change '.' ∈ (String.ofList (Number.digitsOf n)).toList at point
      rw [String.toList_ofList] at point
      have digit := Number.isDigit_of_mem_digitsOf point
      exact absurd digit (by decide)

/-! ## One link -/

theorem follow_entry (named : entries.Named) (once : entries.keys.Nodup) (member : (.text name, v) ∈ entries) :
    (dict entries).follow name = v := by
  rw [follow, Entries.getD, named.get?_of_mem once member, Option.getD_some]

theorem follow_missing (named : entries.Named) (absent : .text name ∉ entries.keys) :
    (dict entries).follow name = null := by
  rw [follow, Entries.getD, named.get?_of_not_mem absent, Option.getD_none]

theorem item?_natCast (items : List Value) (n : Nat) : item? items n = items[n]? := by
  rw [item?, if_neg (by omega), Int.toNat_natCast]

theorem capacity_lt : capacity < 10 ^ Number.digitLimit := by
  calc capacity < 10 ^ 19 := by decide
    _ ≤ 10 ^ Number.digitLimit := Nat.pow_le_pow_right (by decide) (by decide)

/-- An index of a list that can be held is read as the number that it is. -/
theorem follow_item (held : items.length ≤ capacity) (member : items[n]? = some v) :
    (list items).follow (Number.intText n) = v := by
  have inside : n < items.length := (List.getElem?_eq_some_iff.mp member).1
  have short : n < 10 ^ Number.digitLimit := (inside.trans_le held).trans capacity_lt
  rw [follow, Number.readInt_intText, if_pos short]
  simp only [item?_natCast, member, Option.getD_some]

/-- Nothing is found beyond the end of a list, though the index have too many digits to be read. -/
theorem follow_beyond (outside : items.length ≤ n) : (list items).follow (Number.intText n) = null := by
  rw [follow, Number.readInt_intText]
  by_cases short : n < 10 ^ Number.digitLimit
  · rw [if_pos short]
    simp only [item?_natCast, List.getElem?_eq_none outside, Option.getD_none]
  · rw [if_neg short]

theorem follow_word (other : ∀ n, Number.readInt name ≠ .ok n) : (list items).follow name = null := by
  rw [follow]
  cases read : Number.readInt name with
  | ok n => exact absurd read (other n)
  | error => rfl

/-! ## Whole addresses -/

/-- Nothing is found below null. -/
theorem foldl_follow_null (segments : List String) : segments.foldl follow null = null := by
  induction segments with
  | nil => rfl
  | cons segment rest ih => exact ih

theorem foldl_follow_of_addresses (document : v.IsDocument) (addresses : v.Addresses address part) :
    (address.map Link.text).foldl follow v = part := by
  induction addresses with
  | here => rfl
  | entry member _ ih =>
    cases document with
    | dict named once each => rw [List.map_cons, List.foldl_cons, follow_entry named once member, ih (each _ member)]
  | item member _ ih =>
    cases document with
    | list held each =>
      rw [List.map_cons, List.foldl_cons, Link.text, follow_item held member, ih (each _ (List.mem_of_getElem? member))]

theorem foldl_follow_of_leaves (document : v.IsDocument) (leaves : v.Leaves address) :
    (address.map Link.text).foldl follow v = null := by
  induction leaves with
  | beneath => exact foldl_follow_null _
  | missing absent =>
    cases document with
    | dict named => rw [List.map_cons, List.foldl_cons, follow_missing named absent, foldl_follow_null]
  | beyond outside => rw [List.map_cons, List.foldl_cons, Link.text, follow_beyond outside, foldl_follow_null]
  | word other => rw [List.map_cons, List.foldl_cons, Link.text, follow_word other, foldl_follow_null]
  | entry member _ ih =>
    cases document with
    | dict named once each => rw [List.map_cons, List.foldl_cons, follow_entry named once member, ih (each _ member)]
  | item member _ ih =>
    cases document with
    | list held each =>
      rw [List.map_cons, List.foldl_cons, Link.text, follow_item held member, ih (each _ (List.mem_of_getElem? member))]

/-- The part at an address is found under its path. -/
theorem nested_of_addresses (document : v.IsDocument) (writable : Writable address)
    (addresses : v.Addresses address part) : v.nested (path address) = part := by
  rw [nested, split_path writable, foldl_follow_of_addresses document addresses]

/-- Nothing is found under a path whose address leads out of the document. -/
theorem nested_of_leaves (document : v.IsDocument) (writable : Writable address) (leaves : v.Leaves address) :
    v.nested (path address) = null := by
  rw [nested, split_path writable, foldl_follow_of_leaves document leaves]

/-! ## Declared outputs -/

/-- Names with the addresses that are declared for them, as a table. -/
def declaration (declared : List (String × List Link)) : Entries :=
  declared.map fun d => (text d.1, text (path d.2))

theorem extractEach_declaration (raw : Value) (declared : List (String × List Link)) :
    raw.extractEach (declaration declared) = .ok (declared.map fun d => (text d.1, raw.nested (path d.2))) := by
  induction declared with
  | nil => rfl
  | cons d rest ih =>
    change (do
      let part ← raw.nestedAt (text (path d.2))
      let parts ← raw.extractEach (declaration rest)
      return (text d.1, part) :: parts) = _
    rw [ih]
    rfl

/-- From a result that is not null, what is declared is taken. -/
theorem extract_declaration {raw : Value} (some : raw ≠ .null) (declared : List (String × List Link)) :
    extract (dict (declaration declared)) raw = .ok (declared.map fun d => (text d.1, raw.nested (path d.2))) := by
  have there : raw.isNull = false := by
    cases raw with
    | null => exact absurd rfl some
    | _ => rfl
  cases declared with
  | nil => rfl
  | cons d rest =>
    rw [extract, there]
    exact extractEach_declaration raw (d :: rest)

/-- What is taken for a name is found under the path that is declared for it. -/
theorem get?_declared {raw : Value} {declared : List (String × List Link)} (once : (declared.map (·.1)).Nodup)
    (member : (name, address) ∈ declared) :
    Entries.get? (declared.map fun d => (text d.1, raw.nested (path d.2))) name = some (raw.nested (path address)) := by
  apply Entries.Named.get?_of_mem (Entries.named_map (·.1) _ declared) (Entries.nodup_keys_map once _)
  exact List.mem_map.mpr ⟨(name, address), member, rfl⟩

/-- Each part of a document is found under the path of its address, and nothing is found where an address leads out of
the document. What a step takes from a result that is not null has the declared names for its keys, and no others;
under each of them there is the part at the declared address, or null where the address leads out. -/
theorem parts_addressed (document : v.IsDocument) :
    (∀ address, Writable address →
      (∀ part, v.Addresses address part → v.nested (path address) = part) ∧
      (v.Leaves address → v.nested (path address) = null)) ∧
    (v ≠ null → ∀ declared : List (String × List Link), (declared.map (·.1)).Nodup →
      ∃ parts, extract (dict (declaration declared)) v = .ok parts ∧ parts.keys = (declared.map (·.1)).map text ∧
        ∀ d ∈ declared, Writable d.2 →
          (∀ part, v.Addresses d.2 part → parts.get? d.1 = some part) ∧
          (v.Leaves d.2 → parts.get? d.1 = some null)) := by
  constructor
  · intro address writable
    exact ⟨fun part => nested_of_addresses document writable, nested_of_leaves document writable⟩
  · intro there declared once
    refine ⟨_, extract_declaration there declared, Entries.keys_map (·.1) _ declared, ?_⟩
    rintro ⟨name, address⟩ member writable
    rw [get?_declared once member]
    constructor
    · intro part addresses
      rw [nested_of_addresses document writable addresses]
    · intro leaves
      rw [nested_of_leaves document writable leaves]

/-- A result with a list of tables in it, and with a key that looks like an index. -/
def rawResult : Value :=
  record [("data", record [("items", list [record [("name", text "x")]]), ("0", null)]), ("success", bool true)]

/-- The name of the first item is taken, and nothing for an item that is not there; below null there is nothing. -/
theorem rawResult_addressed :
    rawResult.nested "data.items.0.name" = text "x" ∧ rawResult.nested "data.items.1" = null ∧
    rawResult.nested "data.0.real" = null ∧ ∃ parts,
      extract (record [("first", text "data.items.0.name"), ("second", text "data.items.1")]) rawResult = .ok parts ∧
      parts.keys = [text "first", text "second"] ∧ parts.get? "first" = some (text "x") ∧
      parts.get? "second" = some null := by
  have item : (record [("name", text "x")]).IsDocument := isDocument_record (by simp) (by simp [IsDocument.text])
  have items : (list [record [("name", text "x")]]).IsDocument := .list (by decide) (by simpa using item)
  have document : rawResult.IsDocument :=
    isDocument_record (by simp) (List.forall_mem_cons.mpr
      ⟨isDocument_record (by simp) (by simp [items, IsDocument.null]), by simp [IsDocument.bool]⟩)
  obtain ⟨found, taken⟩ := parts_addressed document
  have first : rawResult.Addresses [.key "data", .key "items", .index 0, .key "name"] (text "x") :=
    .entry (.head _) (.entry (.head _) (.item rfl (.entry (.head _) (.here _))))
  have second : rawResult.Leaves [.key "data", .key "items", .index 1] :=
    .entry (.head _) (.entry (.head _) (.beyond (by decide)))
  have third : rawResult.Leaves [.key "data", .index 0, .key "real"] :=
    .entry (.head _) (.entry (.tail _ (.head _)) (.beneath _ _))
  have writable₁ : Writable [.key "data", .key "items", .index 0, .key "name"] := ⟨by simp, by simp⟩
  have writable₂ : Writable [.key "data", .key "items", .index 1] := ⟨by simp, by simp⟩
  have writable₃ : Writable [.key "data", .index 0, .key "real"] := ⟨by simp, by simp⟩
  obtain ⟨parts, extracted, keys, each⟩ := taken (by simp [rawResult, record])
    [("first", [.key "data", .key "items", .index 0, .key "name"]), ("second", [.key "data", .key "items", .index 1])]
    (by simp)
  exact ⟨(found _ writable₁).1 _ first, (found _ writable₂).2 second, (found _ writable₃).2 third, parts, extracted,
    keys, (each _ (.head _) writable₁).1 _ first, (each _ (.tail _ (.head _)) writable₂).2 second⟩

end Value

end Runbook
