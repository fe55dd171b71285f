import Mathlib.Data.List.DropRight
import ProtoSchema.Proofs.Text.Words
import ProtoSchema.TypeRef

/-!
# Proofs/Symbols/DottedTokens — a token and the reference it is split into

Without its leading dots a token has no dot, and then it is a name, or it is cut at its last dot,
with something in front of it (`ofToken_cases`).  So the reference is written as the token without
those dots, whatever other dots it has (`toList_dotted_ofToken`), and is read back from it
(`ofToken_lossless`).
-/

namespace ProtoSchema.TypeRef

open Text

/-! ## The two forms of a reference -/

/-- A reference with a qualifier is its qualifier, a dot and its name. -/
theorem toList_dotted_of_qualifier {name qualifier : String} (ne : qualifier ≠ "") :
    (TypeRef.mk name (some qualifier)).dotted.toList
      = qualifier.toList ++ '.' :: name.toList := by
  simp [dotted, ne]

theorem ofSegments_concat {segments : List (List Char)} (ne : segments ≠ []) (last : List Char) :
    ofSegments (segments ++ [last])
      = ⟨String.ofList last, some (String.ofList (joinDots segments))⟩ := by
  obtain ⟨s, ss, rfl⟩ := List.exists_cons_of_ne_nil ne
  have init : ((s :: ss) ++ [last]).dropLast = s :: ss := List.dropLast_concat
  have last : ((s :: ss) ++ [last]).getLastD [] = last := List.getLastD_concat
  rw [ofSegments, init, last]

section Token

variable {token : String} {rest : List Char}

/-- What is left without the leading dots starts with none. -/
theorem head?_ne_dot (h : token.toList.dropWhile (· = '.') = rest) : rest.head? ≠ some '.' := by
  have start := List.head?_dropWhile_not (fun c => decide (c = '.')) token.toList
  rw [h] at start
  intro dot
  simp [dot] at start

/-- **A token without leading dots is a name, or is cut at its last dot.**  Something stands in
front of that dot, since the token starts with none. -/
theorem ofToken_cases (h : token.toList.dropWhile (· = '.') = rest) :
    ('.' ∉ rest ∧ ofToken token = ⟨String.ofList rest, none⟩)
      ∨ ∃ front last, front ≠ [] ∧ '.' ∉ last ∧ rest = front ++ '.' :: last
        ∧ ofToken token = ⟨String.ofList last, some (String.ofList front)⟩ := by
  have undotted : ∀ w ∈ rest.splitOn '.', '.' ∉ w := fun w hw dot =>
    absurd (not_sep_of_mem_splitOnP _ rest w hw '.' dot) (by simp)
  have joined : joinDots (rest.splitOn '.') = rest := List.intercalate_splitOn '.'
  obtain none | ⟨segments, last, split⟩ := List.eq_nil_or_concat' (rest.splitOn '.')
  · exact absurd none (List.splitOn_ne_nil '.' rest)
  rw [ofToken, h, split]
  rw [split] at undotted joined
  have name : '.' ∉ last := undotted last (by simp)
  by_cases single : segments = []
  · subst single
    obtain rfl : last = rest := by simpa [joinDots] using joined
    exact .inl ⟨name, rfl⟩
  · have cut : joinDots segments ++ '.' :: last = rest :=
      (intercalate_concat ['.'] last single).symm.trans joined
    refine .inr ⟨joinDots segments, last, fun empty => ?_, name, cut.symm,
      ofSegments_concat single last⟩
    rw [empty] at cut
    exact head?_ne_dot h (cut ▸ rfl)

end Token

/-! ## Nothing but leading dots is lost -/

/-- **The reference is written as the token without its leading dots.** -/
theorem toList_dotted_ofToken (token : String) :
    (ofToken token).dotted.toList = token.toList.dropWhile (· = '.') := by
  rcases ofToken_cases rfl with ⟨-, read⟩ | ⟨front, last, ne, -, cut, read⟩
  · rw [read, dotted, String.toList_ofList]
  · have qualifier : String.ofList front ≠ "" := by simpa using ne
    rw [read, toList_dotted_of_qualifier qualifier, String.toList_ofList, String.toList_ofList, cut]

/-- **Splitting a token loses nothing but its leading dots**, and the reference is read back from
what it is written as.  Its name holds no dot, and its qualifier, which it has just if a dot is
left, is not empty. -/
theorem ofToken_lossless (token : String) :
    (ofToken token).dotted.toList = token.toList.dropWhile (· = '.')
      ∧ '.' ∉ (ofToken token).localName.toList
      ∧ ((ofToken token).qualifier = none ↔ '.' ∉ token.toList.dropWhile (· = '.'))
      ∧ (ofToken token).qualifier ≠ some ""
      ∧ ofToken (ofToken token).dotted = ofToken token := by
  have again : ofToken (ofToken token).dotted = ofToken token := by
    rw [ofToken, toList_dotted_ofToken, List.dropWhile_idempotent]
    rfl
  refine ⟨toList_dotted_ofToken token, ?_⟩
  rcases @ofToken_cases token _ rfl with ⟨free, read⟩ | ⟨front, last, ne, name, cut, read⟩
  · rw [read] at again ⊢
    exact ⟨by rwa [String.toList_ofList], iff_of_true rfl free, nofun, again⟩
  · rw [read] at again ⊢
    have dot : '.' ∈ token.toList.dropWhile (· = '.') := by simp [cut]
    exact ⟨by rwa [String.toList_ofList], iff_of_false nofun (not_not_intro dot), by simpa using ne,
      again⟩

/-- Leading dots say nothing, but a last one leaves the name empty. -/
example : ofToken "..a..b." = ⟨"", some "a..b"⟩ := by decide

end ProtoSchema.TypeRef
