import Mathlib.Data.List.Basic
import ProtoSchema.Document.Reader

/-!
# Proofs/Document/Progress — reading as a run of single steps

How far reading has come is a draft and the kind of the statement accepted last.  A statement takes
it one step further or is refused; a run takes all statements of a list.  Reading a list is such a
run: it succeeds with the draft the run ends in (`ofStatements_eq_ok_iff`), and it fails at the
first statement that is refused (`readFrom_of_refused`).
-/

namespace ProtoSchema

/-- **How far reading has come.** -/
structure Progress where
  draft : Draft
  previous : Option StatementKind
deriving DecidableEq

theorem Statement.text_ofText (text : String) : (ofText text).text = text := by
  unfold ofText
  dsimp only
  split_ifs <;> rfl

namespace Progress

/-- Nothing read yet. -/
def start : Progress := ⟨.empty, none⟩

/-- One statement further, unless it is refused. -/
def next (p : Progress) (text : String) : Option Progress :=
  (p.draft.accept p.previous (Statement.ofText text)).map fun a =>
    ⟨a.draft, some (Statement.ofText text).kind⟩

/-- All statements of a list further, unless one of them is refused. -/
def run (p : Progress) (texts : List String) : Option Progress := texts.foldlM next p

variable {p q : Progress} {text : String} {xs ys : List String}

theorem run_cons (p : Progress) (text : String) (texts : List String) :
    p.run (text :: texts) = (p.next text).bind fun q => q.run texts := List.foldlM_cons

theorem run_append (p : Progress) (xs ys : List String) :
    p.run (xs ++ ys) = (p.run xs).bind fun q => q.run ys := List.foldlM_append

/-- A run that comes to an end takes its first statement and goes on from there. -/
theorem run_cons_eq_some_iff :
    p.run (text :: xs) = some q ↔ ∃ r, p.next text = some r ∧ r.run xs = some q := by
  rw [run_cons, Option.bind_eq_some_iff]

theorem run_cons_of_next (h : p.next text = some q) : p.run (text :: xs) = q.run xs := by
  rw [run_cons, h]
  rfl

theorem run_append_of_run (h : p.run xs = some q) : p.run (xs ++ ys) = q.run ys := by
  rw [run_append, h]
  rfl

/-- A run that comes to an end has come through each of its prefixes. -/
theorem exists_run_of_run_append {r : Progress} (h : p.run (xs ++ ys) = some r) :
    ∃ q, p.run xs = some q ∧ q.run ys = some r := by
  rw [run_append] at h
  exact Option.bind_eq_some_iff.1 h

theorem previous_of_next (h : p.next text = some q) :
    q.previous = some (Statement.ofText text).kind := by
  obtain ⟨a, -, rfl⟩ := Option.map_eq_some_iff.1 h
  rfl

/-- The last statement of a run is accepted where the others have come to. -/
theorem exists_next_of_run_concat {r : Progress} (h : p.run (xs ++ [text]) = some r) :
    ∃ q, p.run xs = some q ∧ q.next text = some r := by
  obtain ⟨q, front, last⟩ := exists_run_of_run_append h
  obtain ⟨r', next, done⟩ := run_cons_eq_some_iff.1 last
  obtain rfl : r' = r := Option.some.inj done
  exact ⟨q, front, next⟩

end Progress

namespace Draft

/-! ## Reading and running -/

/-- Reading goes on where a run of the statements before has come to. -/
theorem readFrom_append : ∀ {xs : List String} {p q : Progress}, p.run xs = some q →
    ∀ (index : Nat) (ys : List String),
      (p.draft.readFrom p.previous index (xs ++ ys)).result
        = (q.draft.readFrom q.previous (index + xs.length) ys).result
  | [], p, q, h, index, ys => by
      obtain rfl : p = q := Option.some.inj h
      rfl
  | x :: xs, p, q, h, index, ys => by
      obtain ⟨r, step, rest⟩ := Progress.run_cons_eq_some_iff.1 h
      obtain ⟨a, accepted, rfl⟩ := Option.map_eq_some_iff.1 step
      rw [List.cons_append, readFrom, accepted]
      change (a.draft.readFrom _ (index + 1) (xs ++ ys)).result = _
      rw [readFrom_append rest, List.length_cons, Nat.add_assoc, Nat.add_comm 1]

/-- A run that comes to an end is what reading finds. -/
theorem readFrom_of_run {p q : Progress} {xs : List String} (h : p.run xs = some q)
    (index : Nat) : (p.draft.readFrom p.previous index xs).result = .ok q.draft := by
  have := readFrom_append h index []
  rwa [List.append_nil] at this

/-- **Reading fails at the first statement that is refused**, and says which one it is. -/
theorem readFrom_of_refused {p q : Progress} {xs : List String} {text : String}
    (h : p.run xs = some q) (refused : q.next text = none) (index : Nat) (ys : List String) :
    (p.draft.readFrom p.previous index (xs ++ text :: ys)).result
      = .error ⟨.strayClose, some ⟨(index + xs.length : Nat), some text⟩⟩ := by
  have none : q.draft.accept q.previous (Statement.ofText text) = none :=
    Option.map_eq_none_iff.1 refused
  rw [readFrom_append h, readFrom, none]

/-- A run that does not come to an end is refused at some statement. -/
theorem exists_refused : ∀ {xs : List String} {p : Progress}, p.run xs = none →
    ∃ before text after q,
      xs = before ++ text :: after ∧ p.run before = some q ∧ q.next text = none
  | x :: xs, p, h => by
      cases step : p.next x with
      | none => exact ⟨[], x, xs, p, rfl, rfl, step⟩
      | some q =>
        rw [Progress.run_cons_of_next step] at h
        obtain ⟨before, text, after, r, rfl, ran, refused⟩ := exists_refused h
        exact ⟨x :: before, text, after, r, rfl,
          (Progress.run_cons_of_next step).trans ran, refused⟩

/-- Reading that succeeds is a run that comes to an end. -/
theorem exists_run_of_readFrom {p : Progress} {d : Draft} {index : Nat} {xs : List String}
    (h : (p.draft.readFrom p.previous index xs).result = .ok d) :
    ∃ q, p.run xs = some q ∧ q.draft = d := by
  cases run : p.run xs with
  | some q => exact ⟨q, rfl, Except.ok.inj ((readFrom_of_run run index).symm.trans h)⟩
  | none =>
    obtain ⟨before, text, after, q, rfl, ran, refused⟩ := exists_refused run
    exact absurd ((readFrom_of_refused ran refused index after).symm.trans h) (by simp)

end Draft

/-! ## Reading into a draft -/

/-- **The statements take the draft `d` to `e`**, whatever was read before them. -/
def Draft.ReadsTexts (d : Draft) (texts : List String) (e : Draft) : Prop :=
  ∀ previous, ∃ last, Progress.run ⟨d, previous⟩ texts = some ⟨e, last⟩

namespace Draft

variable {d e f : Draft} {text : String} {xs ys : List String}

theorem ReadsTexts.nil (d : Draft) : d.ReadsTexts [] d := fun previous => ⟨previous, rfl⟩

theorem ReadsTexts.append (h : d.ReadsTexts xs e) (h' : e.ReadsTexts ys f) :
    d.ReadsTexts (xs ++ ys) f := by
  intro previous
  obtain ⟨middle, first⟩ := h previous
  obtain ⟨last, second⟩ := h' middle
  exact ⟨last, by rw [Progress.run_append_of_run first, second]⟩

/-- Members whose statements add them one by one are added by the statements of all of them. -/
theorem ReadsTexts.flatMap {α : Type} {p : List α → Draft} {s : α → List String} :
    ∀ {l : List α}, (∀ a ∈ l, ∀ body, (p body).ReadsTexts (s a) (p (body ++ [a]))) →
      ∀ body, (p body).ReadsTexts (l.flatMap s) (p (body ++ l))
  | [], _, body => by
      rw [List.append_nil]
      exact .nil _
  | a :: l, h, body => by
      obtain ⟨first, others⟩ := List.forall_mem_cons.1 h
      have rest := ReadsTexts.flatMap others (body ++ [a])
      rw [List.append_assoc] at rest
      exact (first body).append rest

theorem readsTexts_of_accept (h : ∀ previous,
    (d.accept previous (Statement.ofText text)).map Accepted.draft = some e) :
    d.ReadsTexts [text] e := by
  intro previous
  obtain ⟨a, accepted, rfl⟩ := Option.map_eq_some_iff.1 (h previous)
  have step : Progress.next ⟨d, previous⟩ text
      = some ⟨a.draft, some (Statement.ofText text).kind⟩ := by
    rw [Progress.next, accepted]
    rfl
  exact ⟨_, Progress.run_cons_of_next step⟩

end Draft

/-- **A draft is finished if no container is open**, with the parts that it holds. -/
theorem Draft.finish_eq_ok_iff {d : Draft} {e : Document} :
    d.finish = .ok e ↔ d.scopes.frames = []
      ∧ e = ⟨d.version, d.package, d.imports.entries, d.scopes.entries, d.scopes.services⟩ := by
  rw [finish, ← List.isEmpty_iff]
  split_ifs with closed <;> simp [closed, eq_comm]

/-- The error with its place `n` statements further on. -/
def ParseError.later (n : Nat) (e : ParseError) : ParseError :=
  { e with place := e.place.map fun p => { p with index := p.index + n } }

theorem ParseError.later_zero (e : ParseError) : e.later 0 = e := by
  obtain ⟨fault, place⟩ := e
  cases place <;> simp [later]

namespace Document

variable {texts : List String} {p : Progress}

/-- A document is the draft that reading comes to, finished. -/
theorem ofStatements_eq (texts : List String) :
    ofStatements texts = (Draft.empty.readFrom none 1 texts).result.bind fun d =>
      d.finish.mapError fun fault => ⟨fault, none⟩ := rfl

theorem ofStatements_of_run (h : Progress.start.run texts = some p) :
    ofStatements texts = p.draft.finish.mapError fun fault => ⟨fault, none⟩ := by
  have read : (Draft.empty.readFrom none 1 texts).result = .ok p.draft :=
    Draft.readFrom_of_run h 1
  rw [ofStatements_eq, read]
  rfl

theorem ofStatements_of_refused {q : Progress} {xs ys : List String} {text : String}
    (h : Progress.start.run xs = some q) (refused : q.next text = none) :
    ofStatements (xs ++ text :: ys)
      = .error ⟨.strayClose, some ⟨(xs.length + 1 : Nat), some text⟩⟩ := by
  have read : (Draft.empty.readFrom none 1 (xs ++ text :: ys)).result = _ :=
    Draft.readFrom_of_refused h refused 1 ys
  rw [ofStatements_eq, read, Nat.add_comm]
  rfl

/-- **Statements make a document if a run of them comes to an end with every container
closed.** -/
theorem ofStatements_eq_ok_iff {d : Document} :
    ofStatements texts = .ok d
      ↔ ∃ p, Progress.start.run texts = some p ∧ p.draft.finish = .ok d := by
  cases run : Progress.start.run texts with
  | some p =>
    rw [ofStatements_of_run run]
    cases finish : p.draft.finish with
    | error fault => simp [Except.mapError, finish]
    | ok e => simp [Except.mapError, finish]
  | none =>
    obtain ⟨before, text, after, q, rfl, ran, refused⟩ := Draft.exists_refused run
    simp [ofStatements_of_refused ran refused]

/-- **Statements that lead to the same progress are read alike**, whatever follows them: what goes
wrong later goes wrong at the same statement, and the places differ by what the first differ in
length. -/
theorem ofStatements_append_of_run {xs zs : List String} {n : Nat}
    (hx : Progress.start.run xs = some p) (hz : Progress.start.run zs = some p)
    (longer : zs.length = xs.length + n) (ys : List String) :
    ofStatements (zs ++ ys) = (ofStatements (xs ++ ys)).mapError (ParseError.later n) := by
  cases run : p.run ys with
  | some q =>
    rw [ofStatements_of_run ((Progress.run_append_of_run hx).trans run),
      ofStatements_of_run ((Progress.run_append_of_run hz).trans run)]
    cases q.draft.finish <;> rfl
  | none =>
    obtain ⟨before, text, after, q, rfl, ran, refused⟩ := Draft.exists_refused run
    rw [← List.append_assoc, ← List.append_assoc,
      ofStatements_of_refused ((Progress.run_append_of_run hx).trans ran) refused,
      ofStatements_of_refused ((Progress.run_append_of_run hz).trans ran) refused]
    have place : ((zs ++ before).length + 1 : Nat)
        = (((xs ++ before).length + 1 : Nat) : Int) + n := by
      rw [List.length_append, List.length_append, longer]
      omega
    rw [place]
    rfl

end Document

end ProtoSchema
