import Mathlib.Data.List.Basic
import Runbook.Text.Bytes

/-! # Texts kept as bytes

The bytes of a text stand for that text again. There are as many of them as characters only if all characters are
among the first 128. What is read from a file is the text that its bytes stand for with line feeds for all line
ends, so it is the text that was stored only if that has no carriage return.
-/

namespace Runbook.Text

variable {c : Char} {cs : List Char} {p : Beginning} {byte : UInt8} {rest : Bytes}

/-! ## One byte after the other -/

theorem decodeFrom_whole (one : lead byte = .whole c) :
    decodeFrom none (byte :: rest) = c :: decodeFrom none rest := by
  simp only [decodeFrom, one]

theorem decodeFrom_begins (more : lead byte = .begins p) :
    decodeFrom none (byte :: rest) = decodeFrom (some p) rest := by
  simp only [decodeFrom, more]

theorem toNat_continuation (n : Nat) : (continuation n).toNat = 0x80 + n % 0x40 := by
  rw [continuation, UInt8.toNat_ofNat']
  omega

/-- A continuation byte between the bounds adds its six bits. -/
theorem next_continuation {n : Nat} (low : p.low ≤ 0x80 + n % 0x40) (high : 0x80 + n % 0x40 ≤ p.high) :
    p.next (continuation n) = some (if p.left ≤ 1 then .whole (Char.ofNat (p.code * 0x40 + n % 0x40))
      else .begins ⟨p.left - 1, 0x80, 0xbf, p.code * 0x40 + n % 0x40⟩) := by
  have bits : 0x80 + n % 0x40 - 0x80 = n % 0x40 := Nat.add_sub_cancel_left ..
  simp [Beginning.next, toNat_continuation, low, high, bits]

/-- The last byte of a character. -/
theorem decodeFrom_ends {code n : Nat} :
    decodeFrom (some ⟨1, 0x80, 0xbf, code⟩) (continuation n :: rest) =
      Char.ofNat (code * 0x40 + n % 0x40) :: decodeFrom none rest := by
  have next := @next_continuation ⟨1, 0x80, 0xbf, code⟩ n (Nat.le_add_right ..) (by simp only; omega)
  simp only [decodeFrom, next, Nat.le_refl, if_true]

/-- A byte of a character that is not the last one. -/
theorem decodeFrom_goes_on {low high code left n : Nat} (above : low ≤ 0x80 + n % 0x40)
    (below : 0x80 + n % 0x40 ≤ high) :
    decodeFrom (some ⟨left + 2, low, high, code⟩) (continuation n :: rest) =
      decodeFrom (some ⟨left + 1, 0x80, 0xbf, code * 0x40 + n % 0x40⟩) rest := by
  have next := @next_continuation ⟨left + 2, low, high, code⟩ n above below
  have later : ¬left + 2 ≤ 1 := by omega
  simp only [decodeFrom, next, later, if_false]
  rfl

theorem lead_one {n : Nat} (small : n < 0x80) : lead (UInt8.ofNat n) = .whole (Char.ofNat n) := by
  have value : (UInt8.ofNat n).toNat = n := by
    rw [UInt8.toNat_ofNat']
    omega
  simp [lead, value, small]

theorem lead_two {n : Nat} (low : 2 ≤ n) (high : n < 0x20) :
    lead (UInt8.ofNat (0xc0 + n)) = .begins ⟨1, 0x80, 0xbf, n⟩ := by
  have value : (UInt8.ofNat (0xc0 + n)).toNat = 0xc0 + n := by
    rw [UInt8.toNat_ofNat']
    omega
  have bounds : ¬0xc0 + n < 0x80 ∧ ¬0xc0 + n < 0xc2 ∧ 0xc0 + n < 0xe0 := by omega
  simp only [lead, value, bounds, if_false, if_true, Nat.add_sub_cancel_left]

theorem lead_three {n : Nat} (high : n < 0x10) : lead (UInt8.ofNat (0xe0 + n)) =
    .begins ⟨2, if n = 0 then 0xa0 else 0x80, if n = 0xd then 0x9f else 0xbf, n⟩ := by
  have value : (UInt8.ofNat (0xe0 + n)).toNat = 0xe0 + n := by
    rw [UInt8.toNat_ofNat']
    omega
  have bounds : ¬0xe0 + n < 0x80 ∧ ¬0xe0 + n < 0xc2 ∧ ¬0xe0 + n < 0xe0 ∧ 0xe0 + n < 0xf0 := by omega
  simp only [lead, value, bounds, if_false, if_true, Nat.add_sub_cancel_left]
  have bounds : (0xe0 + n == 0xe0) = decide (n = 0) ∧ (0xe0 + n == 0xed) = decide (n = 0xd) := by
    simp only [beq_eq_decide]
    exact ⟨decide_eq_decide.mpr (by omega), decide_eq_decide.mpr (by omega)⟩
  simp [bounds]

theorem lead_four {n : Nat} (high : n < 5) : lead (UInt8.ofNat (0xf0 + n)) =
    .begins ⟨3, if n = 0 then 0x90 else 0x80, if n = 4 then 0x8f else 0xbf, n⟩ := by
  have value : (UInt8.ofNat (0xf0 + n)).toNat = 0xf0 + n := by
    rw [UInt8.toNat_ofNat']
    omega
  have bounds : ¬0xf0 + n < 0x80 ∧ ¬0xf0 + n < 0xc2 ∧ ¬0xf0 + n < 0xe0 ∧ ¬0xf0 + n < 0xf0 ∧ 0xf0 + n < 0xf5 := by
    omega
  simp only [lead, value, bounds, if_false, if_true, Nat.add_sub_cancel_left]
  have bounds : (0xf0 + n == 0xf0) = decide (n = 0) ∧ (0xf0 + n == 0xf4) = decide (n = 4) := by
    simp only [beq_eq_decide]
    exact ⟨decide_eq_decide.mpr (by omega), decide_eq_decide.mpr (by omega)⟩
  simp [bounds]

/-! ## Texts through their bytes -/

/-- No character stands in the gap or above the last one. -/
theorem toNat_valid (c : Char) : c.toNat < 0xd800 ∨ 0xdfff < c.toNat ∧ c.toNat < 0x110000 := c.valid

/-- The bytes of a character are read as that character, whatever comes after them. -/
theorem decodeFrom_encodeChar (c : Char) (rest : Bytes) :
    decodeFrom none (encodeChar c ++ rest) = c :: decodeFrom none rest := by
  have valid := toNat_valid c
  have char : Char.ofNat c.toNat = c := Char.ofNat_toNat c
  unfold encodeChar
  generalize c.toNat = n at valid char
  simp only
  split
  · next small =>
    rw [List.singleton_append, decodeFrom_whole (lead_one small), char]
  split
  · next large small =>
    have code : n / 0x40 * 0x40 + n % 0x40 = n := by omega
    rw [List.cons_append, List.singleton_append, decodeFrom_begins (lead_two (by omega) (by omega)), decodeFrom_ends,
      code, char]
  split
  · next large small =>
    have code : (n / 0x1000 * 0x40 + n / 0x40 % 0x40) * 0x40 + n % 0x40 = n := by omega
    rw [List.cons_append, List.cons_append, List.singleton_append, decodeFrom_begins (lead_three (by omega)),
      decodeFrom_goes_on (by split <;> omega) (by split <;> omega), decodeFrom_ends, code, char]
  · next large =>
    have code : ((n / 0x40000 * 0x40 + n / 0x1000 % 0x40) * 0x40 + n / 0x40 % 0x40) * 0x40 + n % 0x40 = n := by omega
    rw [List.cons_append, List.cons_append, List.cons_append, List.singleton_append,
      decodeFrom_begins (lead_four (by omega)), decodeFrom_goes_on (by split <;> omega) (by split <;> omega),
      decodeFrom_goes_on (by omega) (by omega), decodeFrom_ends, code, char]

/-- The bytes of characters are read as these characters. -/
theorem decodeChars_encodeChars (cs : List Char) : decodeChars (encodeChars cs) = cs := by
  induction cs with
  | nil => rfl
  | cons c rest ih =>
    rw [encodeChars, List.flatMap_cons, ← encodeChars, decodeChars, decodeFrom_encodeChar, ← decodeChars, ih]

theorem length_encodeChar_pos (c : Char) : 1 ≤ (encodeChar c).length := by
  unfold encodeChar
  simp only
  split_ifs <;> simp

/-- A character has one byte if it is among the first 128. -/
theorem length_encodeChar_eq_one_iff (c : Char) : (encodeChar c).length = 1 ↔ c.toNat < 0x80 := by
  unfold encodeChar
  simp only
  split_ifs <;> simp_all

theorem length_le_length_encodeChars (cs : List Char) : cs.length ≤ (encodeChars cs).length := by
  induction cs with
  | nil => exact Nat.le_refl 0
  | cons c rest ih =>
    have := length_encodeChar_pos c
    rw [encodeChars, List.flatMap_cons, ← encodeChars, List.length_append, List.length_cons]
    omega

/-- A text has as many bytes as characters exactly if all of them are among the first 128. -/
theorem length_encode_eq_iff (s : String) : (encode s).length = s.length ↔ ∀ c ∈ s.toList, c.toNat < 0x80 := by
  rw [encode, ← String.length_toList]
  induction s.toList with
  | nil => simp [encodeChars]
  | cons c rest ih =>
    have one := length_encodeChar_eq_one_iff c
    have some := length_encodeChar_pos c
    have others := length_le_length_encodeChars rest
    rw [List.forall_mem_cons, ← ih, ← one, encodeChars, List.flatMap_cons, ← encodeChars, List.length_append,
      List.length_cons]
    omega

/-! ## Line ends -/

theorem not_mem_unifyLines (cs : List Char) : '\r' ∉ unifyLines cs := by
  induction cs using unifyLines.induct with
  | case1 => exact List.not_mem_nil
  | case2 rest ih => simpa [unifyLines] using ih
  | case3 rest alone ih => simpa [unifyLines, alone] using ih
  | case4 c rest pair alone ih =>
    rw [unifyLines]
    · simpa using ⟨Ne.symm alone, ih⟩
    all_goals assumption

/-- Characters stay as they are exactly if there is no carriage return among them. -/
theorem unifyLines_eq_self_iff (cs : List Char) : unifyLines cs = cs ↔ '\r' ∉ cs := by
  refine ⟨fun same => same ▸ not_mem_unifyLines cs, fun clean => ?_⟩
  induction cs using unifyLines.induct with
  | case1 => rfl
  | case2 => simp at clean
  | case3 => simp at clean
  | case4 c rest pair alone ih =>
    rw [unifyLines]
    · rw [ih fun more => clean (List.mem_cons_of_mem c more)]
    all_goals assumption

/-- What is read from a file that a text was stored in. -/
theorem readFile_encode (s : String) : readFile (encode s) = String.ofList (unifyLines s.toList) := by
  rw [readFile, encode, decodeChars_encodeChars]

theorem readFile_encode_eq_self_iff (s : String) : readFile (encode s) = s ↔ '\r' ∉ s.toList := by
  rw [readFile_encode, ← unifyLines_eq_self_iff, ← String.toList_inj, String.toList_ofList]

end Runbook.Text
