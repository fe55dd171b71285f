import Mathlib.Data.String.Basic
import ProtoSchema.FilePath
import ProtoSchema.Proofs.Text.Words

/-!
# Proofs/Session/Path — the parts of a path

The normal form of a path has the parts that lead somewhere, with nothing but staying parts in front
of them (`exists_parts_normal`), and it is no longer than the path.  A plain name that is looked up
in a folder stands behind the parts of the folder (`kept_join`).
-/

namespace ProtoSchema.FilePath

open Text Text.Letterwise

/-- **The parts of a path that lead somewhere.** -/
def kept (path : String) : List String := (parts path).filter (!stays ·)

/-- **A plain name**: one part, which leads from a folder into it. -/
structure IsPlain (leaf : String) : Prop where
  unslashed : '/' ∉ leaf.toList
  leads : stays leaf = false
  inner : leaf ≠ ".."

/-! ## Parts -/

theorem slash_not_mem_of_mem_parts {path part : String} (h : part ∈ parts path) :
    '/' ∉ part.toList := by
  obtain ⟨cs, mem, rfl⟩ := List.mem_map.1 h
  rw [String.toList_ofList]
  exact fun slash => absurd (not_sep_of_mem_splitOnP (· == '/') _ cs mem '/' slash) (by decide)

theorem parts_ne_nil (path : String) : parts path ≠ [] := by
  simp [parts]

theorem parts_append_slash (a b : String) : parts (a ++ "/" ++ b) = parts a ++ parts b := by
  have split := List.splitOn_append_cons_self (a := '/') a.toList b.toList
  rw [parts, parts, parts, ← List.map_append, ← split]
  simp

/-- A slash at the front of a path makes an empty part. -/
theorem parts_slash_append (path : String) : parts ("/" ++ path) = "" :: parts path := by
  have split := parts_append_slash "" path
  rwa [String.empty_append] at split

/-- A text without slashes is one part. -/
theorem parts_of_not_mem {leaf : String} (h : '/' ∉ leaf.toList) : parts leaf = [leaf] := by
  rw [parts, List.splitOn_eq_singleton h, List.map_singleton, String.ofList_toList]

/-- Parts with slashes between them are read back. -/
theorem parts_intercalate {ps : List String} (ne : ps ≠ []) (h : ∀ p ∈ ps, '/' ∉ p.toList) :
    parts ("/".intercalate ps) = ps := by
  have free : ∀ cs ∈ ps.map String.toList, '/' ∉ cs := by simpa using h
  have split := List.splitOn_intercalate '/' free (by simpa using ne)
  rw [parts, String.toList_intercalate]
  change (List.splitOn '/' (['/'].intercalate _)).map _ = _
  rw [split, List.map_map]
  exact (List.map_congr_left fun p _ => String.ofList_toList).trans (List.map_id ps)

theorem slash_not_mem_of_mem_kept {path part : String} (h : part ∈ kept path) :
    '/' ∉ part.toList := slash_not_mem_of_mem_parts (List.mem_of_mem_filter h)

theorem stays_of_mem_kept {path part : String} (h : part ∈ kept path) : stays part = false := by
  simpa using (List.mem_filter.1 h).2

/-! ## Normal forms -/

/-- The slashes at the front of a normal form say whether the path is absolute. -/
theorem root_cases (path : String) :
    (root path = "" ∧ isAbsolute path = false)
      ∨ ((root path = "/" ∨ root path = "//") ∧ isAbsolute path = true) := by
  cases chars : path.toList with
  | nil => simp [root, isAbsolute, chars]
  | cons c cs =>
    by_cases slash : c = '/'
    · right
      refine ⟨?_, by simp [isAbsolute, chars, slash]⟩
      unfold root
      split <;> simp_all
    · simp [root, isAbsolute, chars, slash]

theorem normal_eq (path : String) :
    normal path = if root path ++ "/".intercalate (kept path) = "" then "."
      else root path ++ "/".intercalate (kept path) := rfl

theorem normal_ne_empty (path : String) : normal path ≠ "" := by
  rw [normal_eq]
  split_ifs with none
  · decide
  · exact none

theorem parts_intercalate_kept {path : String} (h : kept path ≠ []) :
    parts ("/".intercalate (kept path)) = kept path :=
  parts_intercalate h fun _ => slash_not_mem_of_mem_kept

/-- No part that leads somewhere is empty. -/
theorem empty_not_mem_kept (path : String) : "" ∉ kept path := fun mem =>
  nomatch stays_of_mem_kept mem

theorem normal_of_kept_ne_nil {path : String} (h : kept path ≠ []) :
    normal path = root path ++ "/".intercalate (kept path) := by
  rw [normal_eq, if_neg]
  intro none
  have empty : parts "" = kept path := by
    rw [← (String.append_eq_empty_iff.1 none).2, parts_intercalate_kept h]
  exact empty_not_mem_kept path (empty ▸ by decide)

theorem normal_of_kept_eq_nil {path : String} (h : kept path = []) :
    normal path = if root path = "" then "." else root path := by
  rw [normal_eq, h, String.intercalate_nil, String.append_empty]

/-- **The normal form has the parts that lead somewhere**, and in front of them parts that stay. -/
theorem exists_parts_normal (path : String) :
    ∃ front, (∀ part ∈ front, stays part = true) ∧ parts (normal path) = front ++ kept path := by
  by_cases none : kept path = []
  · rw [normal_of_kept_eq_nil none, none]
    simp only [List.append_nil, exists_eq_right']
    rcases root_cases path with ⟨root, -⟩ | ⟨root | root, -⟩ <;> rw [root] <;> decide
  · rw [normal_of_kept_ne_nil none]
    have joined := parts_intercalate_kept none
    have twice : "//" = "/" ++ "/" := rfl
    rcases root_cases path with ⟨root, -⟩ | ⟨root | root, -⟩
    · exact ⟨[], by simp, by rw [root, String.empty_append, joined]; rfl⟩
    · exact ⟨[""], by decide, by rw [root, parts_slash_append, joined]; rfl⟩
    · refine ⟨["", ""], by decide, ?_⟩
      rw [root, twice, String.append_assoc, parts_slash_append, parts_slash_append, joined]
      rfl

theorem isAbsolute_normal (path : String) : isAbsolute (normal path) = isAbsolute path := by
  by_cases none : kept path = []
  · rw [normal_of_kept_eq_nil none]
    rcases root_cases path with ⟨root, same⟩ | ⟨root | root, same⟩ <;> rw [root, same] <;> decide
  · rw [normal_of_kept_ne_nil none]
    rcases root_cases path with ⟨root, same⟩ | ⟨root | root, same⟩ <;> rw [root, same]
    · rw [String.empty_append]
      refine Bool.eq_false_iff.2 fun slash => empty_not_mem_kept path ?_
      have head : ("/".intercalate (kept path)).toList.head? = some '/' := by
        simpa [isAbsolute] using slash
      obtain ⟨cs, chars⟩ := List.head?_eq_some_iff.1 head
      have slash : "/".intercalate (kept path) = "/" ++ String.ofList cs :=
        String.toList_injective (by rw [chars]; simp)
      rw [← parts_intercalate_kept none, slash, parts_slash_append]
      exact List.mem_cons_self
    · simp [isAbsolute]
    · simp [isAbsolute]

/-! ## The length of a normal form -/

/-- Leaving pieces out leaves characters out. -/
theorem intercalate_sublist {sep : List Char} {qs ps : List (List Char)} (h : qs.Sublist ps) :
    (sep.intercalate qs).Sublist (sep.intercalate ps) := by
  induction h with
  | slnil => exact .refl []
  | @cons qs ps p part ih =>
    refine ih.trans ?_
    by_cases none : ps = []
    · simp [none]
    · rw [List.intercalate_cons_of_ne_nil none]
      exact List.sublist_append_right _ _
  | @cons_cons qs ps p part ih =>
    by_cases none : qs = []
    · rw [none, List.intercalate_singleton]
      cases ps with
      | nil => simp
      | cons q ps =>
        rw [List.intercalate_cons_of_ne_nil (List.cons_ne_nil q ps), List.append_assoc]
        exact List.sublist_append_left _ _
    · have some : ps ≠ [] := fun e => none (List.sublist_nil.1 (e ▸ part))
      rw [List.intercalate_cons_of_ne_nil none, List.intercalate_cons_of_ne_nil some]
      exact ih.append_left _

theorem kept_slash_append (path : String) : kept ("/" ++ path) = kept path := by
  rw [kept, kept, parts_slash_append]
  rfl

/-- The kept parts are found behind the slashes at the front. -/
theorem kept_sublist : ∀ cs : List Char,
    (['/'].intercalate ((kept (String.ofList cs)).map String.toList)).Sublist
      (cs.dropWhile (· = '/'))
  | [] => .refl []
  | c :: cs => by
      by_cases slash : c = '/'
      · have split : String.ofList (c :: cs) = "/" ++ String.ofList cs := by
          rw [slash]
          exact (String.ofList_append : String.ofList (['/'] ++ cs) = _)
        rw [split, kept_slash_append, List.dropWhile_cons_of_pos (by simpa using slash)]
        exact kept_sublist cs
      · have whole : ['/'].intercalate ((c :: cs).splitOn '/') = c :: cs :=
          List.intercalate_splitOn '/'
        rw [List.dropWhile_cons_of_neg (by simpa using slash)]
        conv_rhs => rw [← whole]
        refine intercalate_sublist ?_
        have part : ((parts (String.ofList (c :: cs))).map String.toList)
            = (c :: cs).splitOn '/' := by
          rw [parts, String.toList_ofList, List.map_map]
          exact (List.map_congr_left fun _ _ => String.toList_ofList).trans (List.map_id _)
        exact part ▸ List.filter_sublist.map String.toList

/-- The normal form keeps no more slashes than there are. -/
theorem root_sublist (path : String) :
    (root path).toList.Sublist (path.toList.takeWhile (· = '/')) := by
  have slashes : ∀ c ∈ path.toList.takeWhile (· = '/'), c = '/' := fun c hc => by
    simpa using List.mem_takeWhile_imp hc
  rw [root]
  generalize path.toList.takeWhile (· = '/') = cs at slashes
  match cs with
  | [] => exact .refl []
  | [a] =>
    obtain rfl := slashes a (by simp)
    exact .refl ['/']
  | [a, b] =>
    obtain rfl := slashes a (by simp)
    obtain rfl := slashes b (by simp)
    exact .refl ['/', '/']
  | a :: b :: c :: cs =>
    obtain rfl := slashes a (by simp)
    have first : ['/'].Sublist ('/' :: b :: c :: cs) :=
      List.singleton_sublist.2 List.mem_cons_self
    split
    · next none => exact nomatch none
    · next two => exact absurd two (by simp)
    · exact first

theorem normal_sublist {path : String} (h : kept path ≠ [] ∨ root path ≠ "") :
    (normal path).toList.Sublist path.toList := by
  have text : normal path = root path ++ "/".intercalate (kept path) := by
    by_cases none : kept path = []
    · rw [normal_of_kept_eq_nil none, if_neg (h.resolve_left (· none)), none,
        String.intercalate_nil, String.append_empty]
    · exact normal_of_kept_ne_nil none
  have joined := kept_sublist path.toList
  rw [String.ofList_toList] at joined
  rw [text, String.toList_append, String.toList_intercalate]
  conv_rhs => rw [← List.takeWhile_append_dropWhile (p := (· = '/')) (l := path.toList)]
  exact (root_sublist path).append joined

/-- **A path that is not empty is no shorter than its normal form.** -/
theorem utf8ByteSize_normal_le {path : String} (ne : path ≠ "") :
    (normal path).utf8ByteSize ≤ path.utf8ByteSize := by
  by_cases h : kept path ≠ [] ∨ root path ≠ ""
  · rw [← String.utf8Len_toList, ← String.utf8Len_toList]
    exact String.utf8Len_le_of_sublist (normal_sublist h)
  · obtain ⟨none, empty⟩ := not_or.1 h
    rw [normal_of_kept_eq_nil (not_not.1 none), if_pos (not_not.1 empty)]
    exact Nat.one_le_iff_ne_zero.2 (by simpa using ne)

/-- The normal form brings in no characters but points. -/
theorem mem_of_mem_normal {path : String} {c : Char} (h : c ∈ (normal path).toList)
    (point : c ≠ '.') : c ∈ path.toList := by
  by_cases some : kept path ≠ [] ∨ root path ≠ ""
  · exact (normal_sublist some).subset h
  · obtain ⟨none, empty⟩ := not_or.1 some
    rw [normal_of_kept_eq_nil (not_not.1 none), if_pos (not_not.1 empty)] at h
    exact absurd (List.mem_singleton.1 h) point

/-! ## Names in a folder -/

namespace IsPlain

variable {leaf : String} (h : IsPlain leaf)
include h

theorem parts_eq : parts leaf = [leaf] := parts_of_not_mem h.unslashed

theorem not_isAbsolute : isAbsolute leaf = false := by
  refine Bool.eq_false_iff.2 fun slash => h.unslashed ?_
  exact List.mem_of_head? (by simpa [isAbsolute] using slash)

end IsPlain

/-- What stands in front of a name in a folder. -/
def front (folder : String) : String :=
  if folder = "" || folder.toList.getLast? = some '/' then folder else folder ++ "/"

theorem join_eq {leaf : String} (h : IsPlain leaf) (folder : String) :
    join folder leaf = front folder ++ leaf := by
  rw [join, h.not_isAbsolute, front]
  split_ifs <;> simp_all

theorem kept_of_isPlain {leaf : String} (h : IsPlain leaf) : kept leaf = [leaf] := by
  rw [kept, h.parts_eq, List.filter_cons_of_pos (by simp [h.leads]), List.filter_nil]

theorem kept_append_slash (a b : String) : kept (a ++ "/" ++ b) = kept a ++ kept b := by
  rw [kept, parts_append_slash, List.filter_append]
  rfl

/-- **A plain name in a folder stands behind the parts of the folder.** -/
theorem kept_join {leaf : String} (h : IsPlain leaf) (folder : String) :
    kept (join folder leaf) = kept folder ++ [leaf] := by
  rw [join_eq h, front]
  split_ifs with closed
  · rcases Bool.or_eq_true_iff.1 closed with empty | slash
    · obtain rfl : folder = "" := by simpa using empty
      rw [String.empty_append, kept_of_isPlain h]
      rfl
    · obtain ⟨cs, chars⟩ := List.getLast?_eq_some_iff.1 (by simpa using slash)
      have split : folder = String.ofList cs ++ "/" := String.toList_injective (by simp [chars])
      have before := kept_append_slash (String.ofList cs) ""
      rw [String.append_empty] at before
      rw [split, kept_append_slash, kept_of_isPlain h, before]
      simp [kept, stays, parts]
  · rw [kept_append_slash, kept_of_isPlain h]

theorem name_join {leaf : String} (h : IsPlain leaf) (folder : String) :
    name (join folder leaf) = leaf := by
  change ((kept (join folder leaf)).getLast?).getD "" = leaf
  rw [kept_join h, List.getLast?_concat, Option.getD_some]

theorem root_append {leaf : String} (h : IsPlain leaf) (text : String) :
    root (text ++ leaf) = root text := by
  have none : leaf.toList.takeWhile (· = '/') = [] := by
    cases chars : leaf.toList with
    | nil => rfl
    | cons c cs =>
      have other : c ≠ '/' := ne_of_mem_of_not_mem (a := c) (by simp [chars]) h.unslashed
      simp [other]
  rw [root, root, String.toList_append, List.takeWhile_append, none]
  split_ifs with whole
  · rw [List.append_nil, (List.takeWhile_prefix _).eq_of_length whole]
  · rfl

theorem intercalate_append_singleton (ps : List String) (leaf more : String) :
    "/".intercalate (ps ++ [leaf ++ more]) = "/".intercalate (ps ++ [leaf]) ++ more := by
  induction ps with
  | nil => simp
  | cons p ps ih =>
    rw [List.cons_append, List.cons_append, String.intercalate_cons_of_ne_nil (by simp), ih,
      String.intercalate_cons_of_ne_nil (by simp), ← String.append_assoc]

/-- **What is written behind a name is written behind the normal form.** -/
theorem normal_join_append {leaf more : String} (h : IsPlain leaf) (h' : IsPlain (leaf ++ more))
    (folder : String) :
    normal (join folder (leaf ++ more)) = normal (join folder leaf) ++ more := by
  rw [normal_of_kept_ne_nil (by simp [kept_join h']), normal_of_kept_ne_nil (by simp [kept_join h]),
    kept_join h, kept_join h', join_eq h, join_eq h', root_append h, root_append h',
    intercalate_append_singleton, String.append_assoc]

theorem mem_of_mem_join {leaf : String} (h : IsPlain leaf) {folder : String} {c : Char}
    (mem : c ∈ (join folder leaf).toList) (slash : c ≠ '/') :
    c ∈ folder.toList ∨ c ∈ leaf.toList := by
  rw [join_eq h, String.toList_append, List.mem_append, front] at mem
  refine mem.imp_left fun mem => ?_
  split_ifs at mem with closed
  · exact mem
  · simpa [slash] using mem

theorem isAbsolute_join {leaf : String} (h : IsPlain leaf) {folder : String} (ne : folder ≠ "") :
    isAbsolute (join folder leaf) = isAbsolute folder := by
  obtain ⟨c, cs, chars⟩ := List.exists_cons_of_ne_nil (by simpa using ne : folder.toList ≠ [])
  rw [join_eq h, front]
  split_ifs <;> simp [isAbsolute, chars]

/-! ## Names and suffixes -/

/-- A text that ends in something other than a point is a plain name if it has no slashes. -/
theorem isPlain_append {a b : String} (ha : '/' ∉ a.toList) (hb : '/' ∉ b.toList)
    (ends : ∃ c ∈ b.toList.getLast?, c ≠ '.') : IsPlain (a ++ b) := by
  obtain ⟨c, last, other⟩ := ends
  obtain ⟨cs, chars⟩ := List.getLast?_eq_some_iff.1 last
  have point : ∀ d : String, (∀ e ∈ d.toList, e = '.') → a ++ b ≠ d := by
    rintro _ all rfl
    exact other (all c (by simp [chars]))
  refine ⟨by simp [ha, hb], ?_, point ".." (by decide)⟩
  simp only [stays, Bool.or_eq_false_iff, decide_eq_false_iff_not]
  exact ⟨point "" (by decide), point "." (by decide)⟩

theorem slash_not_mem_name (path : String) : '/' ∉ (name path).toList := by
  change '/' ∉ ((kept path).getLast?.getD "").toList
  cases last : (kept path).getLast? with
  | none => simp
  | some part => exact slash_not_mem_of_mem_kept (List.mem_of_getLast? last)

theorem slash_not_mem_stem (path : String) : '/' ∉ (stem path).toList := by
  rw [stem, String.toList_ofList]
  exact fun mem => slash_not_mem_name path (List.takeWhile_subset _ mem)

theorem mem_of_mem_parts {path part : String} (h : part ∈ parts path) {c : Char}
    (mem : c ∈ part.toList) : c ∈ path.toList := by
  obtain ⟨cs, piece, rfl⟩ := List.mem_map.1 h
  rw [String.toList_ofList] at mem
  exact (infix_of_mem_splitOnP (· == '/') _ cs piece).subset mem

theorem mem_of_mem_stem {path : String} {c : Char} (h : c ∈ (stem path).toList) :
    c ∈ path.toList := by
  rw [stem, String.toList_ofList] at h
  have named := List.takeWhile_subset _ h
  change c ∈ ((kept path).getLast?.getD "").toList at named
  cases last : (kept path).getLast? with
  | none => simp [last] at named
  | some part =>
    rw [last] at named
    exact mem_of_mem_parts (List.mem_of_mem_filter (List.mem_of_getLast? last)) named

/-- **A name with a suffix ends in it.** -/
theorem suffix_isSuffix (path : String) : (suffix path).toList <:+ (name path).toList := by
  unfold suffix
  generalize (name path).toList = cs
  dsimp only
  split_ifs with none
  · exact List.nil_suffix
  · have whole := List.takeWhile_append_dropWhile (p := (· ≠ '.')) (l := cs.reverse)
    have first := List.head?_dropWhile_not (· ≠ '.') cs.reverse
    generalize cs.reverse.takeWhile (· ≠ '.') = after at *
    rw [String.toList_ofList]
    cases rest : cs.reverse.dropWhile (· ≠ '.') with
    | nil =>
      -- Without a point nothing stands in front of it.
      rw [rest, List.append_nil] at whole
      exact absurd (by simp [whole]) none
    | cons d before =>
      rw [rest] at first
      obtain rfl : d = '.' := by simpa using first
      refine ⟨before.reverse, ?_⟩
      rw [← List.reverse_inj, ← whole, rest]
      simp

/-- **The stem of a schema file** is what stands in front of its suffix. -/
theorem stem_join {s : String} (plain : IsPlain (s ++ ".proto")) (point : '.' ∉ s.toList)
    (folder : String) : stem (join folder (s ++ ".proto")) = s := by
  have all : ∀ c ∈ s.toList, decide (c ≠ '.') = true := fun c mem => by
    simpa using ne_of_mem_of_not_mem mem point
  rw [stem, name_join plain, String.toList_append, List.takeWhile_append_of_pos all]
  have none : ".proto".toList.takeWhile (fun c => decide (c ≠ '.')) = [] := by decide
  rw [none, List.append_nil, String.ofList_toList]

theorem suffix_join {s : String} (plain : IsPlain (s ++ ".proto")) (ne : s ≠ "") (folder : String) :
    suffix (join folder (s ++ ".proto")) = ".proto" := by
  have after : ((s ++ ".proto").toList.reverse.takeWhile (· ≠ '.')).reverse = "proto".toList := by
    rw [String.toList_append, List.reverse_append]
    rfl
  have before : (s ++ ".proto").toList.take
      ((s ++ ".proto").toList.length - "proto".toList.length - 1) = s.toList := by
    rw [String.toList_append, List.length_append]
    exact List.take_left' rfl
  unfold suffix
  rw [name_join plain]
  dsimp only
  rw [after, before, if_neg (by simpa using ne)]
  rfl

end ProtoSchema.FilePath
