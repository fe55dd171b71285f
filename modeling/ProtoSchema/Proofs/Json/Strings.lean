import Mathlib.Data.List.Basic
import ProtoSchema.Json.Printer
import ProtoSchema.Json.Reader

/-!
# Proofs/Json/Strings — strings are read back

A string is printed character by character, and the reader takes the text of one character as one
piece, whatever follows (`readPiece_escapeChar`).  So the string comes back as it was
(`readText_printed`), and no character is taken for half a surrogate pair.
-/

namespace ProtoSchema.Json

open Text

/-! ## Units -/

/-- **Four hexadecimal digits** are read back. -/
theorem hexUnit?_hexDigits {n : Nat} (h : n < 0x10000) (rest : List Char) :
    hexUnit? (hexDigits 4 n ++ rest) = some (n, rest) := by
  have digit (m : Nat) : hexValue? (hexDigit (m % 16)) = some (m % 16) :=
    hexValue?_hexDigit _ (Nat.mod_lt m (by decide))
  have spelled : hexDigits 4 n = [hexDigit (n / 16 / 16 / 16 % 16), hexDigit (n / 16 / 16 % 16),
      hexDigit (n / 16 % 16), hexDigit (n % 16)] := rfl
  have whole : ((n / 16 / 16 / 16 % 16 * 16 + n / 16 / 16 % 16) * 16 + n / 16 % 16) * 16 + n % 16
      = n := by omega
  rw [spelled]
  simp only [List.cons_append, List.nil_append, hexUnit?, digit, Option.bind_eq_bind,
    Option.bind_some, whole]
  rfl

theorem lowUnit?_unitEscape {n : Nat} (low : 0xDC00 ≤ n) (high : n < 0xE000) (rest : List Char) :
    lowUnit? (unitEscape n ++ rest) = some (n, rest) := by
  have found := hexUnit?_hexDigits (show n < 0x10000 by omega) rest
  change (hexUnit? (hexDigits 4 n ++ rest)).filter _ = _
  rw [found]
  simp [low, high]

/-- **The units of a character are read as this character.** -/
theorem unitPiece?_units (c : Char) (rest : List Char) :
    ∃ cs, (units c).flatMap unitEscape ++ rest = '\\' :: 'u' :: cs
      ∧ unitPiece? cs = some (.char c, rest) := by
  have valid : c.toNat < 0xD800 ∨ 0xDFFF < c.toNat ∧ c.toNat < 0x110000 := c.valid
  by_cases small : c.toNat < 0x10000
  · -- One unit, which is no half of a pair because the character is valid.
    have high : ¬ (0xD800 ≤ c.toNat ∧ c.toNat < 0xDC00) := by omega
    have low : ¬ (0xDC00 ≤ c.toNat ∧ c.toNat < 0xE000) := by omega
    refine ⟨hexDigits 4 c.toNat ++ rest, by simp [units, small, unitEscape], ?_⟩
    simp [unitPiece?, hexUnit?_hexDigits small, high, low]
  · -- A pair of units: the reader puts together again what the printer took apart.
    obtain ⟨n, code⟩ : ∃ n, c.toNat = 0x10000 + n := ⟨c.toNat - 0x10000, by omega⟩
    have pair : units c = [0xD800 + n / 0x400, 0xDC00 + n % 0x400] := by
      simp [units, code]
    have high : 0xD800 + n / 0x400 < 0xDC00 := by omega
    have first := hexUnit?_hexDigits (show 0xD800 + n / 0x400 < 0x10000 by omega)
      (unitEscape (0xDC00 + n % 0x400) ++ rest)
    have second := lowUnit?_unitEscape (show 0xDC00 ≤ 0xDC00 + n % 0x400 by omega)
      (show 0xDC00 + n % 0x400 < 0xE000 by omega) rest
    have whole : 0x10000 + (0xD800 + n / 0x400 - 0xD800) * 0x400
        + (0xDC00 + n % 0x400 - 0xDC00) = c.toNat := by omega
    refine ⟨hexDigits 4 (0xD800 + n / 0x400) ++ (unitEscape (0xDC00 + n % 0x400) ++ rest), ?_, ?_⟩
    · simp [pair, unitEscape]
    · rw [unitPiece?, first, Option.map_some]
      dsimp only
      rw [if_pos (by simp [high]), second]
      dsimp only
      rw [whole, Char.ofNat_toNat]

/-! ## Characters -/

/-- **A printed character is read back**, whatever follows. -/
theorem readPiece_escapeChar (c : Char) (rest : List Char) :
    readPiece (escapeChar c ++ rest) = .ok (.char c, rest) := by
  unfold escapeChar
  split_ifs with marked newline return_ tab back feed plain
  · rcases Bool.or_eq_true_iff.1 marked with same | same <;> rw [of_decide_eq_true same] <;> rfl
  · exact newline ▸ rfl
  · exact return_ ▸ rfl
  · exact tab ▸ rfl
  · exact back ▸ rfl
  · exact feed ▸ rfl
  · obtain ⟨quote, backslash⟩ := not_or.1 (by simpa using marked : ¬ (c = '"' ∨ c = '\\'))
    have visible : ¬ c.toNat < 0x20 := by
      have := (Bool.and_eq_true_iff.1 plain).1
      simpa using this
    unfold readPiece
    split <;> simp_all
  · obtain ⟨cs, spelled, found⟩ := unitPiece?_units c rest
    rw [spelled, readPiece, found]

theorem escapeChar_ne_nil (c : Char) : escapeChar c ≠ [] := by
  intro none
  have piece := readPiece_escapeChar c []
  rw [none] at piece
  exact nomatch piece

/-! ## Strings -/

/-- **A printed string is read back**, up to its closing quote. -/
theorem readText_printed (rest : List Char) : ∀ {cs : List Char} {fuel : Nat}, cs.length < fuel →
    readText fuel (cs.flatMap escapeChar ++ '"' :: rest) = .ok (cs.map some, rest)
  | _, 0, short => absurd short (Nat.not_lt_zero _)
  | [], fuel + 1, _ => rfl
  | c :: cs, fuel + 1, short => by
      rw [List.flatMap_cons, List.append_assoc, readText, readPiece_escapeChar]
      change (readText fuel (cs.flatMap escapeChar ++ '"' :: rest) >>= fun p =>
        pure (some c :: p.1, p.2)) = _
      rw [readText_printed rest (Nat.lt_of_succ_lt_succ short)]
      rfl

theorem shown_map_some (s : String) : shown (s.toList.map some) = s := by
  simp [shown, Function.comp_def]

/-- A string without missing characters is a text. -/
theorem ofChars_map_some (s : String) : ofChars (s.toList.map some) = text s := by
  rw [ofChars, if_pos (by simp), shown_map_some]

/-- No character is printed as nothing. -/
theorem length_le_printed (cs : List Char) : cs.length ≤ (cs.flatMap escapeChar).length := by
  induction cs with
  | nil => exact Nat.le_refl 0
  | cons c cs ih =>
    have first := List.length_pos_of_ne_nil (escapeChar_ne_nil c)
    rw [List.flatMap_cons, List.length_append, List.length_cons]
    omega

/-- A string in quotes, the first of which was read, is read back with what follows. -/
theorem readText_quoted (s : String) (rest : List Char) :
    let cs := s.toList.flatMap escapeChar ++ '"' :: rest
    readText cs.length cs = .ok (s.toList.map some, rest) := by
  refine readText_printed rest ?_
  have := length_le_printed s.toList
  rw [List.length_append, List.length_cons]
  omega

end ProtoSchema.Json
