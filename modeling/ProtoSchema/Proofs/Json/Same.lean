import Mathlib.Data.List.Forall2
import ProtoSchema.Json

/-!
# Proofs/Json/Same — values up to the order of members

Of an object only the last member with a key counts, and not where it stands.  `Same` compares
values so; what it says of two objects is read off member by member (`Same.member`).
-/

namespace ProtoSchema.Json

/-- **The values are the same** but for the order of members, and members that do not count. -/
inductive Same : Json → Json → Prop
  | null : Same null null
  | bool (b : Bool) : Same (bool b) (bool b)
  | int (n : Int) : Same (int n) (int n)
  | real (literal : String) : Same (real literal) (real literal)
  | text (s : String) : Same (text s) (text s)
  | halfText (s : String) : Same (halfText s) (halfText s)
  | list {js ks : List Json} (items : List.Forall₂ Same js ks) : Same (list js) (list ks)
  | object {ms ns : List (String × Json)}
      (members : ∀ key, Option.Rel Same (lastMember key ms) (lastMember key ns)) :
      Same (object ms) (object ns)

/-- The last member with a key is among the members. -/
theorem mem_of_lastMember {key : String} {j : Json} {ms : List (String × Json)}
    (h : lastMember key ms = some j) : (key, j) ∈ ms := by
  obtain ⟨before, after, split, -⟩ := List.lookup_eq_some_iff.1 h
  exact List.mem_reverse.1 (split ▸ List.mem_append_right before List.mem_cons_self)

namespace Same

theorem text_eq {s s' : String} (h : Same (.text s) (.text s')) : s = s' := by
  cases h
  rfl

theorem int_eq {n n' : Int} (h : Same (.int n) (.int n')) : n = n' := by
  cases h
  rfl

theorem bool_eq {b b' : Bool} (h : Same (.bool b) (.bool b')) : b = b' := by
  cases h
  rfl

theorem items {js ks : List Json} (h : Same (.list js) (.list ks)) : List.Forall₂ Same js ks := by
  cases h with
  | list items => exact items

/-- **What objects have under a key is the same.** -/
theorem member {ms ns : List (String × Json)} (h : Same (.object ms) (.object ns)) (key : String)
    {j k : Json} (hj : lastMember key ms = some j) (hk : lastMember key ns = some k) :
    Same j k := by
  cases h with
  | object members =>
    have both := members key
    rw [hj, hk] at both
    cases both with
    | some same => exact same

/-- Items that are the same come from the same things if each of them does. -/
theorem eq_of_map {α : Type} {f : α → Json} (each : ∀ {a b}, Same (f a) (f b) → a = b)
    {as bs : List α} (h : Same (.list (as.map f)) (.list (bs.map f))) : as = bs := by
  have pairs : List.Forall₂ (fun a b => Same (f a) (f b)) as bs :=
    List.forall₂_map_right_iff.1 (List.forall₂_map_left_iff.1 h.items)
  have equal : List.Forall₂ Eq as bs := pairs.imp fun _ _ => each
  rwa [List.forall₂_eq_eq_eq] at equal

mutual

theorem refl : ∀ j : Json, Same j j
  | .null => .null
  | .bool b => .bool b
  | .int n => .int n
  | .real literal => .real literal
  | .text s => .text s
  | .halfText s => .halfText s
  | .list js => .list (List.forall₂_same.2 (refl_items js))
  | .object ms => by
      refine .object fun key => ?_
      cases member : lastMember key ms with
      | none => exact .none
      | some j => exact .some (refl_members ms _ (mem_of_lastMember member))

theorem refl_items : ∀ js : List Json, ∀ j ∈ js, Same j j
  | [] => List.forall_mem_nil _
  | j :: js => List.forall_mem_cons.2 ⟨refl j, refl_items js⟩

theorem refl_members : ∀ ms : List (String × Json), ∀ m ∈ ms, Same m.2 m.2
  | [] => List.forall_mem_nil _
  | (_, j) :: ms => List.forall_mem_cons.2 ⟨refl j, refl_members ms⟩

end

end Same

end ProtoSchema.Json
