import ProtoSchema.FileTree
import ProtoSchema.Session

/-!
# Proofs/Session/Leads — runs on a tree in memory

What a run does to a tree does not depend on what was printed before.  So its parts are told by the
result they lead to and the tree they leave (`Leads`), and put together by a few rules.  Reading the
configuration leaves the tree as it is (`Keeps.givenConfig`).
-/

namespace ProtoSchema

/-- What a run comes to in a world, and the world it leaves. -/
abbrev World.run {α : Type} (w : World) (x : ExceptT Failure (StateM World) α) :
    Except Failure α × World := StateT.run (ExceptT.run x) w

/-- **A run on a tree comes to a result and leaves a tree**, whatever was printed. -/
def Leads {α : Type} (x : ExceptT Failure (StateM World) α) (t : FileTree) (r : Except Failure α)
    (t' : FileTree) : Prop :=
  ∀ w : World, w.tree = t → (w.run x).1 = r ∧ (w.run x).2.tree = t'

namespace Leads

variable {α β : Type} {x : ExceptT Failure (StateM World) α} {t t' t'' : FileTree}

/-! ## Rules -/

theorem pure (a : α) (t : FileTree) : Leads (pure a) t (.ok a) t := fun _ h => ⟨rfl, h⟩

theorem throw (e : Failure) (t : FileTree) :
    Leads (throw e : ExceptT Failure (StateM World) α) t (.error e) t := fun _ h => ⟨rfl, h⟩

/-- What a run does next depends on what it came to. -/
theorem run_bind (f : α → ExceptT Failure (StateM World) β) (w : World) :
    w.run (x >>= f) = match (w.run x).1 with
      | .ok a => (w.run x).2.run (f a)
      | .error e => (.error e, (w.run x).2) := by
  change (match w.run x with
    | (r, w') => (ExceptT.bindCont f r).run w' : Except Failure β × World) = _
  generalize w.run x = p
  obtain ⟨r, w'⟩ := p
  cases r <;> rfl

theorem bind {f : α → ExceptT Failure (StateM World) β} {a : α} {r : Except Failure β}
    (hx : Leads x t (.ok a) t') (hf : Leads (f a) t' r t'') : Leads (x >>= f) t r t'' := by
  intro w h
  obtain ⟨result, tree⟩ := hx w h
  rw [run_bind, result]
  exact hf _ tree

theorem bind_error {f : α → ExceptT Failure (StateM World) β} {e : Failure}
    (hx : Leads x t (.error e) t') : Leads (x >>= f) t (.error e) t' := by
  intro w h
  obtain ⟨result, tree⟩ := hx w h
  rw [run_bind, result]
  exact ⟨rfl, tree⟩

/-- A failure is handled in the world it leaves. -/
theorem run_tryCatch (handle : Failure → ExceptT Failure (StateM World) α) (w : World) :
    w.run (tryCatch x handle) = match (w.run x).1 with
      | .ok a => (.ok a, (w.run x).2)
      | .error e => (w.run x).2.run (handle e) := by
  obtain ⟨p, run⟩ : ∃ p : Except Failure α × World, StateT.run x w = p := ⟨_, rfl⟩
  have same : w.run x = p := run
  change (ExceptT.tryCatch x handle).run.run w = _
  rw [ExceptT.tryCatch, ExceptT.run_mk, StateT.run_bind, run, same]
  obtain ⟨r, w'⟩ := p
  cases r <;> rfl

theorem tryCatch_ok {handle : Failure → ExceptT Failure (StateM World) α} {a : α}
    (hx : Leads x t (.ok a) t') : Leads (tryCatch x handle) t (.ok a) t' := by
  intro w h
  obtain ⟨result, tree⟩ := hx w h
  rw [run_tryCatch, result]
  exact ⟨rfl, tree⟩

theorem tryCatch_error {handle : Failure → ExceptT Failure (StateM World) α} {e : Failure}
    {r : Except Failure α} (hx : Leads x t (.error e) t') (hh : Leads (handle e) t' r t'') :
    Leads (tryCatch x handle) t r t'' := by
  intro w h
  obtain ⟨result, tree⟩ := hx w h
  rw [run_tryCatch, result]
  exact hh _ tree

/-- **A list is gone through from the left.** -/
theorem mapM_cons {f : α → ExceptT Failure (StateM World) β} {a : α} {b : β} {l : List α}
    {r : Except Failure (List β)} (ha : Leads (f a) t (.ok b) t') (hl : Leads (l.mapM f) t' r t'') :
    Leads ((a :: l).mapM f) t (r.map (b :: ·)) t'' := by
  rw [List.mapM_cons]
  refine ha.bind ?_
  cases r with
  | ok bs => exact hl.bind (pure _ _)
  | error e => exact hl.bind_error

theorem mapM_cons_error {f : α → ExceptT Failure (StateM World) β} {a : α} {e : Failure}
    (ha : Leads (f a) t (.error e) t') (l : List α) :
    Leads ((a :: l).mapM f) t (.error e) t' := by
  rw [List.mapM_cons]
  exact ha.bind_error

/-! ## Requests -/

theorem currentFolder (t : FileTree) :
    Leads Host.currentFolder t (.ok ("/" ++ "/".intercalate t.current)) t := by
  rintro w rfl
  exact ⟨rfl, rfl⟩

theorem kindOf (t : FileTree) (path : String) :
    Leads (Host.kindOf path) t (.ok (t.kindOf path)) t := by
  rintro w rfl
  exact ⟨rfl, rfl⟩

theorem namesIn (t : FileTree) (path : String) :
    Leads (Host.namesIn path) t (.ok (t.namesIn path)) t := by
  rintro w rfl
  exact ⟨rfl, rfl⟩

theorem read (t : FileTree) (path : String) :
    Leads (Host.read path) t (.ok (t.read path)) t := by
  rintro w rfl
  exact ⟨rfl, rfl⟩

theorem run_write (path contents : String) (w : World) :
    w.run (Host.write path contents)
      = match w.tree.write path contents with
        | .ok tree => (.ok (.ok ()), { w with tree })
        | .error e => (.ok (.error e), w) := by
  change ((match w.tree.write path contents with
    | .ok tree => set { w with tree } >>= fun _ => return .ok ()
    | .error e => return .error e : StateM World (Except FileFault Unit))
      >>= fun r => return Except.ok r).run w = _
  cases w.tree.write path contents <;> rfl

theorem write {path contents : String} (h : t.write path contents = .ok t') :
    Leads (Host.write path contents) t (.ok (.ok ())) t' := by
  rintro w rfl
  rw [run_write, h]
  exact ⟨rfl, rfl⟩

theorem write_error {path contents : String} {e : FileFault}
    (h : t.write path contents = .error e) :
    Leads (Host.write path contents) t (.ok (.error e)) t := by
  rintro w rfl
  rw [run_write, h]
  exact ⟨rfl, rfl⟩

theorem say (t : FileTree) (line : String) : Leads (Host.say line) t (.ok ()) t := by
  rintro w rfl
  exact ⟨rfl, rfl⟩

theorem warn (t : FileTree) (line : String) : Leads (Host.warn line) t (.ok ()) t := by
  rintro w rfl
  exact ⟨rfl, rfl⟩

theorem report (t : FileTree) (verbose : Bool) (line : String) :
    Leads (ProtoSchema.report verbose line) t (.ok ()) t := by
  cases verbose
  · exact pure () t
  · exact warn t line

theorem reports (t : FileTree) (verbose : Bool) (line : α → String) : ∀ l : List α,
    Leads (l.forM fun a => ProtoSchema.report verbose (line a)) t (.ok ()) t
  | [] => pure () t
  | a :: l => (report t verbose (line a)).bind (reports t verbose line l)

end Leads

/-! ## Reading the configuration -/

/-- **A run leaves a tree as it is**, whatever it comes to. -/
def Keeps {α : Type} (x : ExceptT Failure (StateM World) α) (t : FileTree) : Prop :=
  ∃ r, Leads x t r t

theorem Leads.keeps {α : Type} {x : ExceptT Failure (StateM World) α} {t : FileTree}
    {r : Except Failure α} (h : Leads x t r t) : Keeps x t := ⟨r, h⟩

namespace Keeps

variable {α β : Type} {t : FileTree}

theorem bind {x : ExceptT Failure (StateM World) α} {f : α → ExceptT Failure (StateM World) β}
    (hx : Keeps x t) (hf : ∀ a, Keeps (f a) t) : Keeps (x >>= f) t := by
  obtain ⟨r, first⟩ := hx
  cases r with
  | error e => exact first.bind_error.keeps
  | ok a =>
    obtain ⟨r, second⟩ := hf a
    exact (first.bind second).keeps

theorem readTextFile (t : FileTree) (path : String) : Keeps (readTextFile path) t := by
  refine (Leads.read t _).keeps.bind fun contents => ?_
  cases contents with
  | error fault => exact (Leads.throw _ t).keeps
  | ok bytes =>
    dsimp only
    split
    · exact (Leads.pure _ t).keeps
    · exact (Leads.throw _ t).keeps

theorem readConfig (t : FileTree) (verbose : Bool) (path : String) :
    Keeps (readConfig verbose path) t := by
  refine (readTextFile t path).bind fun text => ?_
  split
  · exact (Leads.throw _ t).keeps
  · exact (Leads.throw _ t).keeps
  · refine (Leads.report t _ _).keeps.bind fun _ => ?_
    split
    · exact (Leads.pure _ t).keeps
    · exact (Leads.throw _ t).keeps

theorem loadConfig (t : FileTree) (verbose : Bool) (path : Option String) (folder : String) :
    Keeps (loadConfig verbose path folder) t := by
  cases path
  all_goals
    refine (Leads.kindOf t _).keeps.bind fun kind => ?_
    split
    · exact readConfig t verbose _
    · exact (Leads.throw _ t).keeps
  · exact (Leads.pure _ t).keeps
  · exact (Leads.throw _ t).keeps

/-- **Reading the configuration** writes nothing. -/
theorem givenConfig (t : FileTree) (verbose : Bool) (config : Given) :
    Keeps (givenConfig verbose config) t := by
  cases config with
  | blank => exact (Leads.throw _ t).keeps
  | nothing => exact (Leads.currentFolder t).keeps.bind fun _ => loadConfig t verbose _ _
  | value path => exact (Leads.currentFolder t).keeps.bind fun _ => loadConfig t verbose _ _

end Keeps

end ProtoSchema
