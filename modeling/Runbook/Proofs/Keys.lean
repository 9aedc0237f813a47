import Runbook.Value.Entries

/-! # The keys of tables

The keys of a table in their order. Putting a value under a key, and so overlaying a table with another
one, takes no key away and moves none: the keys that were there are a prefix of those that are there
afterwards. A key that equals one of the table as a value is not put in again. If none does, the second table simply
follows the first, and in a table whose keys are texts, each a single time, every value is found under its key.
-/

namespace Runbook

namespace Entries

variable {base later es : Entries} {key k v : Value} {name : String}

/-- The keys, in the order in which they were put in. -/
def keys (es : Entries) : List Value := es.map (·.1)

@[simp] theorem keys_nil : keys [] = [] := rfl

@[simp] theorem keys_cons (e : Value × Value) (rest : Entries) : keys (e :: rest) = e.1 :: keys rest := rfl

@[simp] theorem merge_nil (base : Entries) : base.merge [] = base := rfl

theorem merge_cons (base : Entries) (e : Value × Value) (rest : Entries) :
    base.merge (e :: rest) = (base.put e.1 e.2).merge rest := rfl

/-- A key is already there, or it goes to the end. -/
theorem keys_put (es : Entries) (key v : Value) :
    (∃ k ∈ es.keys, k.equal key = true) ∧ (es.put key v).keys = es.keys ∨
      (es.put key v).keys = es.keys ++ [key] := by
  induction es with
  | nil => exact .inr rfl
  | cons e rest ih =>
    obtain ⟨k, old⟩ := e
    rw [put]
    split
    · next same => exact .inl ⟨⟨k, List.mem_cons_self, same⟩, rfl⟩
    · rcases ih with ⟨⟨k', member, same⟩, keys⟩ | keys
      · exact .inl ⟨⟨k', List.mem_cons_of_mem k member, same⟩, congrArg (k :: ·) keys⟩
      · exact .inr (congrArg (k :: ·) keys)

theorem keys_prefix_put (es : Entries) (key v : Value) : es.keys <+: (es.put key v).keys := by
  rcases keys_put es key v with ⟨_, keys⟩ | keys
  · exact keys ▸ List.prefix_rfl
  · exact keys ▸ List.prefix_append es.keys [key]

/-- No key is lost when a table is overlaid with another one. -/
theorem keys_prefix_merge (base later : Entries) : base.keys <+: (base.merge later).keys := by
  induction later generalizing base with
  | nil => exact List.prefix_rfl
  | cons e rest ih => exact (keys_prefix_put base e.1 e.2).trans (ih (base.put e.1 e.2))

/-- No key is invented. -/
theorem mem_keys_merge (member : key ∈ (base.merge later).keys) : key ∈ base.keys ∨ key ∈ later.keys := by
  induction later generalizing base with
  | nil => exact .inl member
  | cons e rest ih =>
    rcases (ih member : key ∈ (base.put e.1 e.2).keys ∨ key ∈ keys rest) with put | rest
    · rcases keys_put base e.1 e.2 with ⟨_, keys⟩ | keys
      · exact .inl (keys ▸ put)
      · rw [keys, List.mem_append, List.mem_singleton] at put
        refine put.imp_right ?_
        rintro rfl
        exact List.mem_cons_self
    · exact .inr (List.mem_cons_of_mem e.1 rest)

/-- Each key of the second table is there afterwards, though perhaps as another one that equals it. -/
theorem keys_of_later (base : Entries) (member : key ∈ later.keys) :
    ∃ k ∈ (base.merge later).keys, k = key ∨ k.equal key = true := by
  induction later generalizing base with
  | nil => cases member
  | cons e rest ih =>
    rcases List.mem_cons.mp member with rfl | member
    · have keep := (keys_prefix_merge (base.put e.1 e.2) rest).subset
      rcases keys_put base e.1 e.2 with ⟨⟨k, known, same⟩, _⟩ | keys
      · exact ⟨k, keep ((keys_prefix_put base e.1 e.2).subset known), .inr same⟩
      · exact ⟨e.1, keep (keys ▸ List.mem_append_right base.keys List.mem_cons_self), .inl rfl⟩
    · exact ih (base.put e.1 e.2) member

/-! ## Keys that are new -/

/-- No key equals one that stands before it. -/
def Apart (es : Entries) : Prop := es.Pairwise fun e f => e.1.equal f.1 = false

theorem put_of_new (new : ∀ e ∈ es, e.1.equal key = false) (v : Value) : es.put key v = es ++ [(key, v)] := by
  induction es with
  | nil => rfl
  | cons e rest ih =>
    rw [List.forall_mem_cons] at new
    rw [put, new.1, ih new.2]
    rfl

/-- New entries follow those that are there. -/
theorem merge_of_apart (apart : Apart (base ++ later)) : base.merge later = base ++ later := by
  induction later generalizing base with
  | nil => rw [merge_nil, List.append_nil]
  | cons e rest ih =>
    have new : ∀ old ∈ base, old.1.equal e.1 = false := fun old member =>
      (List.pairwise_append.mp apart).2.2 old member e List.mem_cons_self
    rw [merge_cons, put_of_new new, ih, List.append_assoc, List.singleton_append]
    rwa [List.append_assoc, List.singleton_append]

/-- Entries whose keys are apart make up the table that they are given for. -/
theorem ofList_of_apart (apart : es.Apart) : ofList es = es := merge_of_apart apart

/-! ## Keys that are texts -/

theorem equal_text (s t : String) : (Value.text s).equal (.text t) = (s == t) := by
  simp [Value.equal, Value.equalScalar]

theorem get?_cons (e : Value × Value) (rest : Entries) (name : String) :
    get? (e :: rest) name = if e.1.equal (.text name) then some e.2 else rest.get? name := by
  rw [get?, lookup?, List.find?_cons]
  split <;> simp_all [get?, lookup?]

/-- All keys are texts. -/
def Named (es : Entries) : Prop := ∀ key ∈ es.keys, ∃ name, key = .text name

theorem named_cons {e : Value × Value} : Named (e :: es) ↔ (∃ name, e.1 = .text name) ∧ es.Named := List.forall_mem_cons

theorem keys_map {α : Type} (title : α → String) (content : α → Value) (xs : List α) :
    keys (xs.map fun x => (.text (title x), content x)) = (xs.map title).map .text := by
  rw [keys, List.map_map, List.map_map]
  rfl

theorem named_map {α : Type} (title : α → String) (content : α → Value) (xs : List α) :
    Named (xs.map fun x => (.text (title x), content x)) := by
  intro key listed
  rw [keys_map] at listed
  obtain ⟨name, _, rfl⟩ := List.mem_map.mp listed
  exact ⟨name, rfl⟩

theorem nodup_keys_map {α : Type} {title : α → String} {xs : List α} (once : (xs.map title).Nodup)
    (content : α → Value) : (keys (xs.map fun x => (.text (title x), content x))).Nodup := by
  rw [keys_map]
  exact List.pairwise_map.mpr (List.Pairwise.imp (fun different same => different (Value.text.inj same)) once)

/-- A value is found under its name if no other has the same. -/
theorem Named.get?_of_mem (named : es.Named) (once : es.keys.Nodup) (member : (.text name, v) ∈ es) :
    es.get? name = some v := by
  induction es with
  | nil => cases member
  | cons e rest ih =>
    obtain ⟨⟨other, key⟩, later⟩ := named_cons.mp named
    rw [keys_cons, List.nodup_cons] at once
    rw [get?_cons, key, equal_text]
    rcases List.mem_cons.mp member with rfl | member
    · cases key
      simp
    · have different : other ≠ name := by
        rintro rfl
        exact once.1 (key ▸ List.mem_map_of_mem (f := (·.1)) member)
      rw [if_neg (by simpa using different), ih later once.2 member]

/-- Nothing is found under a name that is no key. -/
theorem Named.get?_of_not_mem (named : es.Named) (absent : .text name ∉ es.keys) : es.get? name = none := by
  induction es with
  | nil => rfl
  | cons e rest ih =>
    obtain ⟨⟨other, key⟩, later⟩ := named_cons.mp named
    rw [keys_cons, List.mem_cons, not_or, key] at absent
    have different : other ≠ name := by
      rintro rfl
      exact absent.1 rfl
    rw [get?_cons, key, equal_text, if_neg (by simpa using different), ih later absent.2]

/-- Different names are apart. -/
theorem Named.apart (named : es.Named) (once : es.keys.Nodup) : es.Apart := by
  induction es with
  | nil => exact .nil
  | cons e rest ih =>
    obtain ⟨⟨name, key⟩, later⟩ := named_cons.mp named
    rw [keys_cons, List.nodup_cons] at once
    refine List.pairwise_cons.mpr ⟨fun f member => ?_, ih later once.2⟩
    obtain ⟨other, key'⟩ := later f.1 (List.mem_map_of_mem member)
    have different : name ≠ other := by
      rintro rfl
      exact once.1 (key.trans key'.symm ▸ List.mem_map_of_mem member)
    rw [key, key', equal_text]
    simpa using different

end Entries

end Runbook
