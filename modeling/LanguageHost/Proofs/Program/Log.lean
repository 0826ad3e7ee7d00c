import LanguageHost.Proofs.Program.Runs

/-! Runs with the calls that they make, each with the machine that answers it. What the calls have told
decides how a run ends: that it was cancelled, or that all its commands went well. -/
namespace LanguageHost

/-- A call, and the machine that answers it. -/
structure Occasion where
  {β : Type}
  host : Host
  call : Call β

namespace Occasion

def answer (m : Occasion) : m.β := (m.host.answer m.call).1

/-- The machine after the call. -/
def after (m : Occasion) : Host := (m.host.answer m.call).2

end Occasion

namespace Program

/-- The runs of a program from some files to others, to its end, and the calls made on the way. -/
inductive Logged : List Occasion → Files → Program α → α → Files → Prop
  | done {t a} : Logged [] t (.done a) a t
  | call {β : Type} {t : Files} {h : Host} {c : Call β} {next : β → Program α} {log a t'} :
      h.files = t → Logged log (h.answer c).2.files (next (h.answer c).1) a t' →
      Logged (⟨h, c⟩ :: log) t (.call c next) a t'

/-- The log of what a program does on a machine. -/
def log (h : Host) : Program α → List Occasion
  | .done _ => []
  | .call c next => ⟨h, c⟩ :: (next (h.answer c).1).log (h.answer c).2

theorem logged_log (p : Program α) (h : Host) :
    Logged (p.log h) h.files p (p.run h).1 (p.run h).2.files := by
  induction p generalizing h with
  | done a => exact .done
  | call c next ih => exact .call rfl (ih _ _)

variable {log : List Occasion} {t t' : Files}

theorem Logged.runs {fair : Fairness} {p : Program α} {a : α} (run : Logged log t p a t')
    (allowed : ∀ m ∈ log, fair m.β m.host m.call) : Runs fair t p (some a) t' := by
  induction run with
  | done => exact .done
  | call files _ ih =>
      refine .call files (allowed _ List.mem_cons_self) (ih fun m hm => ?_)
      exact allowed m (List.mem_cons_of_mem _ hm)

theorem logged_bind {p : Program α} {f : α → Program β} {b : β}
    (run : Logged log t (p.bind f) b t') : ∃ first rest a t₁, log = first ++ rest ∧
      Logged first t p a t₁ ∧ Logged rest t₁ (f a) b t' := by
  induction p generalizing log t with
  | done a => exact ⟨[], log, a, t, rfl, .done, run⟩
  | call c next ih =>
      cases run with
      | call files on =>
          obtain ⟨first, rest, a, t₁, rfl, before, after⟩ := ih _ on
          exact ⟨_ :: first, rest, a, t₁, rfl, .call files before, after⟩

theorem Logged.bind {first rest : List Occasion} {t₁ : Files} {p : Program α} {f : α → Program β} {a : α}
    {b : β} (before : Logged first t p a t₁) (after : Logged rest t₁ (f a) b t') :
    Logged (first ++ rest) t (p >>= f) b t' := by
  induction before with
  | done => exact after
  | call files _ ih => exact .call files (ih after)

theorem logged_ask {c : Call α} {a : α} (run : Logged log t (ask c) a t') :
    ∃ h : Host, h.files = t ∧ log = [⟨h, c⟩] ∧ a = (h.answer c).1 ∧ t' = (h.answer c).2.files := by
  cases run with
  | call files on =>
      cases on with
      | done => exact ⟨_, files, rfl, rfl, rfl⟩

end Program

/-! Calls that have nothing to do with a cancellation. -/

/-- No cancellation reaches the call: it neither looks for one nor runs a command that one stops. -/
def Call.Deaf : Call β → Prop
  | .run _ mode => mode = .steady
  | .cancelled | .awaitCancel => False
  | _ => True

namespace Program

/-- None of the calls that the program can make is reached by a cancellation. -/
def Deaf : Program α → Prop
  | .done _ => True
  | .call c next => c.Deaf ∧ ∀ b, (next b).Deaf

theorem Logged.deaf {log : List Occasion} {t t' : Files} {p : Program α} {a : α}
    (run : Logged log t p a t') (deaf : p.Deaf) : ∀ m ∈ log, m.call.Deaf := by
  induction run with
  | done => exact fun _ => nofun
  | call _ _ ih =>
      intro m hm
      rcases List.mem_cons.mp hm with rfl | later
      · exact deaf.1
      · exact ih (deaf.2 _) m later

namespace Deaf

theorem pure (a : α) : (Pure.pure a : Program α).Deaf := trivial

theorem ask {c : Call α} (deaf : c.Deaf) : (Program.ask c).Deaf := ⟨deaf, fun _ => trivial⟩

theorem bind {p : Program α} {f : α → Program β} (first : p.Deaf) (second : ∀ a, (f a).Deaf) :
    (p >>= f).Deaf := by
  induction p with
  | done a => exact second a
  | call c next ih => exact ⟨first.1, fun b => ih b (first.2 b)⟩

theorem exists? (p : Path) : (Program.exists? p).Deaf := .bind (.ask trivial) fun _ => .pure _

theorem readText (p : Path) : (Program.readText p).Deaf := by
  refine .bind (.ask trivial) fun r => ?_
  cases r with
  | error e => exact .pure _
  | ok bs =>
      dsimp only
      split <;> exact .pure _

theorem removePath (p : Path) : (LanguageHost.removePath p).Deaf := by
  refine .bind (.ask trivial) fun r => ?_
  cases r with
  | error e => cases e <;> exact .pure _
  | ok k => cases k <;> exact .bind (.ask trivial) fun _ => .pure _

theorem capture (c : Command) : (LanguageHost.capture c .steady).Deaf := by
  refine .bind (.ask rfl) fun report => ?_
  cases report.outcome <;> exact .pure _

end Deaf

end Program

/-! What the calls have told. -/

namespace Occasion

/-- The call has told of a cancellation: it stopped a command, or kept it from starting, or the program
has asked for it. -/
def Noticed (m : Occasion) : Prop :=
  match m with
  | ⟨h, .run c mode⟩ => mode ≠ .steady ∧ (h.execute c mode).1.outcome = .error .cancelled
  | ⟨h, .cancelled⟩ => h.isCancelled = true
  | ⟨_, .awaitCancel⟩ => True
  | _ => False

/-- A command whose output is not shown, and which a cancellation stops. -/
def IsQuery (m : Occasion) : Prop :=
  match m with
  | ⟨_, .run _ .quiet⟩ => True
  | _ => False

/-- If the call ran a command that a cancellation stops, the command went well. -/
def Went (m : Occasion) : Prop :=
  match m with
  | ⟨h, .run c mode⟩ => mode ≠ .steady → (h.execute c mode).1.outcome = .ok ()
  | _ => True

theorem not_noticed_of_deaf {m : Occasion} (deaf : m.call.Deaf) : ¬ m.Noticed := by
  obtain ⟨h, c⟩ := m
  cases c with
  | run c mode => exact fun noticed => noticed.1 deaf
  | cancelled => exact deaf.elim
  | awaitCancel => exact deaf.elim
  | _ => exact id

theorem went_of_deaf {m : Occasion} (deaf : m.call.Deaf) : m.Went := by
  obtain ⟨h, c⟩ := m
  cases c with
  | run c mode => exact fun loud => absurd deaf loud
  | _ => trivial

end Occasion

/-- The log tells how it ended: with the cancellation just if a call has told of one, and well only if
every command went well. Where `muffled`, what a query tells does not count. -/
structure Told (muffled : Prop) (log : List Occasion) (r : Except Error α) : Prop where
  cancelled : r = .error .cancelled ↔ ∃ m ∈ log, m.Noticed ∧ ¬ (muffled ∧ m.IsQuery)
  went : r.isOk = true → ∀ m ∈ log, m.Went

namespace Told
variable {muffled : Prop} {log rest : List Occasion}

theorem of_deaf {r : Except Error α} (deaf : ∀ m ∈ log, m.call.Deaf) (ends : r ≠ .error .cancelled) :
    Told muffled log r where
  cancelled := by
    refine ⟨fun same => absurd same ends, ?_⟩
    rintro ⟨m, there, noticed, -⟩
    exact absurd noticed (Occasion.not_noticed_of_deaf (deaf m there))
  went _ m there := Occasion.went_of_deaf (deaf m there)

theorem nil {r : Except Error α} (ends : r ≠ .error .cancelled) : Told muffled [] r :=
  .of_deaf (fun _ => nofun) ends

theorem of_failure {e : Error} (ends : e ≠ .cancelled)
    (unheard : ¬ ∃ m ∈ log, m.Noticed ∧ ¬ (muffled ∧ m.IsQuery)) :
    Told muffled log (.error e : Except Error α) where
  cancelled := ⟨fun same => absurd (Except.error.inj same) ends, fun heard => absurd heard unheard⟩
  went := nofun

/-- The result of a run that fails may be one of any type. -/
theorem of_error {r : Except Error α} {e : Error} (told : Told muffled log r) (same : r = .error e) :
    Told muffled log (.error e : Except Error β) where
  cancelled := by
    rw [← told.cancelled, same]
    exact ⟨fun h => congrArg _ (Except.error.inj h), fun h => congrArg _ (Except.error.inj h)⟩
  went := nofun

theorem map {r : Except Error α} (told : Told muffled log r) (f : α → β) :
    Told muffled log (r.map f) := by
  cases r with
  | ok a => exact ⟨⟨nofun, fun noticed => absurd (told.cancelled.mpr noticed) nofun⟩, told.went⟩
  | error e => exact told.of_error rfl

/-- After what went well, what follows decides. -/
theorem append {a : α} {r : Except Error β} (first : Told muffled log (.ok a : Except Error α))
    (second : Told muffled rest r) : Told muffled (log ++ rest) r where
  cancelled := by
    rw [second.cancelled]
    constructor
    · rintro ⟨m, there, noticed⟩
      exact ⟨m, List.mem_append_right _ there, noticed⟩
    · rintro ⟨m, there, noticed⟩
      rcases List.mem_append.mp there with before | after
      · exact absurd (first.cancelled.mpr ⟨m, before, noticed⟩) nofun
      · exact ⟨m, after, noticed⟩
  went ok m there := by
    rcases List.mem_append.mp there with before | after
    · exact first.went rfl m before
    · exact second.went ok m after

/-- A command that a cancellation stops, and that is heard. -/
theorem run {h : Host} {c : Command} {mode : RunMode} (loud : mode ≠ .steady)
    (heard : muffled → mode ≠ .quiet) :
    Told muffled [⟨h, .run c mode⟩] (h.execute c mode).1.outcome where
  cancelled := by
    constructor
    · intro stopped
      refine ⟨_, List.mem_cons_self, ⟨loud, stopped⟩, fun ⟨silent, query⟩ => ?_⟩
      cases mode with
      | quiet => exact heard silent rfl
      | reported => exact query
      | steady => exact loud rfl
    · rintro ⟨m, there, noticed, -⟩
      cases List.mem_singleton.mp there
      exact noticed.2
  went ok m there := by
    cases List.mem_singleton.mp there
    intro _
    cases outcome : (h.execute c mode).1.outcome with
    | ok u => rfl
    | error e =>
        rw [outcome] at ok
        cases ok

end Told

open Program (Logged)

/-- All runs of a program that may fail tell how they end. -/
structure Program.Fallible.Tells (muffled : Prop) (x : Program.Fallible α) : Prop where
  told : ∀ {log : List Occasion} {t t' : Files} {r : Except Error α}, Logged log t x.run r t' →
    Told muffled log r

namespace Program.Fallible.Tells
variable {muffled : Prop}

theorem pure (a : α) : Tells muffled (Pure.pure a : Program.Fallible α) := by
  refine ⟨?_⟩
  rintro log t t' r ⟨⟩
  exact .nil nofun

theorem throw {e : Error} (ends : e ≠ .cancelled) :
    Tells muffled (throw e : Program.Fallible α) := by
  refine ⟨?_⟩
  rintro log t t' r ⟨⟩
  exact .nil fun same => ends (Except.error.inj same)

theorem bind {x : Program.Fallible α} {f : α → Program.Fallible β} (first : Tells muffled x)
    (second : ∀ a, Tells muffled (f a)) : Tells muffled (x >>= f) := by
  refine ⟨fun {log t t' r} run => ?_⟩
  obtain ⟨before, after, a, t₁, rfl, run, run'⟩ := Program.logged_bind run
  cases a with
  | error e =>
      cases run'
      rw [List.append_nil]
      exact (first.told run).of_error rfl
  | ok a => exact (first.told run).append ((second a).told run')

theorem lift {p : Program α} (deaf : p.Deaf) :
    Tells muffled (ExceptT.lift p : Program.Fallible α) := by
  refine ⟨fun {log t t' r} run => ?_⟩
  have whole : (ExceptT.lift p : Program.Fallible α).run = p.bind fun a => .done (.ok a) := rfl
  rw [whole] at run
  obtain ⟨before, after, a, t₁, rfl, run, run'⟩ := Program.logged_bind run
  cases run'
  rw [List.append_nil]
  exact .of_deaf (run.deaf deaf) nofun

theorem io {c : Call (Except IoError α)} (deaf : c.Deaf) : Tells muffled (Program.io c) := by
  refine ⟨fun {log t t' r} run => ?_⟩
  obtain ⟨before, after, a, t₁, rfl, run, run'⟩ := Program.logged_bind run
  cases a with
  | ok a =>
      cases run'
      rw [List.append_nil]
      exact .of_deaf (run.deaf (.ask deaf)) nofun
  | error e =>
      cases run'
      rw [List.append_nil]
      exact .of_deaf (run.deaf (.ask deaf)) nofun

end Program.Fallible.Tells

/-! Logs of install steps, put together. -/

namespace Installing
variable {log rest : List Occasion} {t t₁ t' : Files} {o o₁ o' : Operation} {x : Installing α}
  {f : α → Installing β} {r : Except Error β × Operation}

theorem logged_seq {a : α} (before : Logged log t (x.run.run o) (.ok a, o₁) t₁)
    (after : Logged rest t₁ ((f a).run.run o₁) r t') :
    Logged (log ++ rest) t ((x >>= f).run.run o) r t' := by
  rw [run_bind]
  exact before.bind after

theorem logged_stop {e : Error} (stop : Logged log t (x.run.run o) (.error e, o') t') :
    Logged log t ((x >>= f).run.run o) (.error e, o') t' := by
  rw [run_bind, ← List.append_nil log]
  exact stop.bind .done

/-- Two steps that end well have both ended well. -/
theorem logged_bind_ok {b : β} (run : Logged log t ((x >>= f).run.run o) (.ok b, o') t') :
    ∃ first rest a o₁ t₁, log = first ++ rest ∧ Logged first t (x.run.run o) (.ok a, o₁) t₁ ∧
      Logged rest t₁ ((f a).run.run o₁) (.ok b, o') t' := by
  rw [run_bind] at run
  obtain ⟨first, rest, ⟨a, o₁⟩, t₁, rfl, before, after⟩ := Program.logged_bind run
  cases a with
  | error e => cases after
  | ok a => exact ⟨first, rest, a, o₁, t₁, rfl, before, after⟩

theorem logged_update {g : Operation → Operation} {f : Unit → Installing β}
    (after : Logged log t ((f ()).run.run (g o)) r t') :
    Logged log t ((update g >>= f).run.run o) r t' := after

theorem logged_of_update {g : Operation → Operation} {f : Unit → Installing β}
    (run : Logged log t ((update g >>= f).run.run o) r t') : Logged log t ((f ()).run.run (g o)) r t' :=
  run

theorem logged_of_lift {p : Program α} {a : α} (run : Logged log t p a t') :
    Logged log t ((lift p).run.run o) (.ok a, o) t' := by
  rw [run_lift, ← List.append_nil log]
  exact run.bind .done

end Installing

/-- No cancellation reaches the step. -/
def Installing.Deaf (x : Installing α) : Prop := ∀ o, (x.run.run o).Deaf

namespace Installing.Deaf

theorem pure (a : α) : Deaf (Pure.pure a : Installing α) := fun _ => trivial

theorem fail (e : Error) : Deaf (Installing.fail e : Installing α) := fun _ => trivial

theorem bind {x : Installing α} {f : α → Installing β} (first : Deaf x) (second : ∀ a, Deaf (f a)) :
    Deaf (x >>= f) := by
  intro o
  rw [run_bind]
  refine .bind (first o) ?_
  rintro ⟨e | a, o'⟩
  · exact trivial
  · exact second a o'

theorem lift {p : Program α} (deaf : p.Deaf) : Deaf (Installing.lift p) := by
  intro o
  rw [run_lift]
  exact .bind deaf fun _ => trivial

theorem io {c : Call (Except IoError α)} (deaf : c.Deaf) : Deaf (Installing.io c) := by
  refine bind (lift (.ask deaf)) fun r => ?_
  cases r with
  | ok a => exact pure a
  | error e => exact fail _

theorem exists? (p : Path) : Deaf (Installing.exists? p) := lift (.exists? p)

theorem remove (p : Path) : Deaf (Installing.remove p) := by
  refine bind (lift (.removePath p)) fun r => ?_
  cases r with
  | ok u => exact pure u
  | error e => exact fail _

theorem map {x : Installing α} {f : α → β} (deaf : Deaf x) : Deaf (f <$> x) := by
  intro o
  rw [run_map]
  refine .bind (deaf o) ?_
  rintro ⟨e | a, o'⟩ <;> exact trivial

theorem tryCatch {x : Installing α} {f : Error → Installing α} (first : Deaf x)
    (second : ∀ e, Deaf (f e)) : Deaf (tryCatch x f) := by
  intro o
  rw [run_tryCatch]
  refine .bind (first o) ?_
  rintro ⟨e | a, o'⟩
  · exact second e o'
  · exact trivial

theorem forEach {xs : List α} {f : α → Unit → Installing (ForInStep Unit)}
    (each : ∀ x ∈ xs, Deaf (f x ())) : Deaf (forIn xs () f) := by
  induction xs with
  | nil => exact pure ()
  | cons x xs ih =>
      rw [List.forIn_cons]
      refine bind (each x List.mem_cons_self) fun r => ?_
      cases r with
      | done u => exact pure u
      | yield u => exact ih fun y hy => each y (List.mem_cons_of_mem _ hy)

end Installing.Deaf

/-- All runs of an install step tell how they end. -/
structure Installing.Tells (muffled : Prop) (x : Installing α) : Prop where
  told : ∀ {log : List Occasion} {t t' : Files} {o o' : Operation} {r : Except Error α},
    Logged log t (x.run.run o) (r, o') t' → Told muffled log r

namespace Installing.Tells
variable {muffled : Prop}

theorem pure (a : α) : Tells muffled (Pure.pure a : Installing α) := by
  refine ⟨?_⟩
  rintro log t t' o o' r ⟨⟩
  exact .nil nofun

theorem fail {e : Error} (ends : e ≠ .cancelled) : Tells muffled (Installing.fail e : Installing α) := by
  refine ⟨?_⟩
  rintro log t t' o o' r ⟨⟩
  exact .nil fun same => ends (Except.error.inj same)

theorem update (f : Operation → Operation) : Tells muffled (Installing.update f) := by
  refine ⟨?_⟩
  rintro log t t' o o' r ⟨⟩
  exact .nil nofun

theorem ofExcept {r : Except Error α} (ends : r ≠ .error .cancelled) :
    Tells muffled (Installing.ofExcept r) := by
  cases r with
  | ok a => exact pure a
  | error e => exact fail fun same => ends (congrArg _ same)

theorem bind {x : Installing α} {f : α → Installing β} (first : Tells muffled x)
    (second : ∀ a, Tells muffled (f a)) : Tells muffled (x >>= f) := by
  refine ⟨fun {log t t' o o' r} run => ?_⟩
  rw [run_bind] at run
  obtain ⟨before, after, ⟨a, o₁⟩, t₁, rfl, run, run'⟩ := Program.logged_bind run
  cases a with
  | error e =>
      cases run'
      rw [List.append_nil]
      exact (first.told run).of_error rfl
  | ok a => exact (first.told run).append ((second a).told run')

/-- A step with a call on its own is known by the call. -/
theorem logged_lift {p : Program α} {log : List Occasion} {t t' : Files} {o o' : Operation}
    {r : Except Error α} (run : Logged log t ((Installing.lift p).run.run o) (r, o') t') :
    ∃ a, r = .ok a ∧ Logged log t p a t' := by
  rw [run_lift] at run
  obtain ⟨before, after, a, t₁, rfl, run, run'⟩ := Program.logged_bind run
  cases run'
  rw [List.append_nil]
  exact ⟨a, rfl, run⟩

theorem logged_lift_ask {c : Call α} {log : List Occasion} {t t' : Files} {o o' : Operation}
    {r : Except Error α} (run : Logged log t ((Installing.lift (Program.ask c)).run.run o) (r, o') t') :
    ∃ h : Host, log = [⟨h, c⟩] ∧ r = .ok (h.answer c).1 := by
  obtain ⟨a, ok, asked⟩ := logged_lift run
  obtain ⟨h, -, single, rfl, -⟩ := Program.logged_ask asked
  exact ⟨h, single, ok⟩

theorem lift {p : Program α} (deaf : p.Deaf) : Tells muffled (Installing.lift p) := by
  refine ⟨fun {log t t' o o' r} run => ?_⟩
  obtain ⟨a, rfl, made⟩ := logged_lift run
  exact .of_deaf (made.deaf deaf) nofun

theorem ask {c : Call α} (deaf : c.Deaf) : Tells muffled (Installing.lift (Program.ask c)) :=
  lift (.ask deaf)

theorem io {c : Call (Except IoError α)} (deaf : c.Deaf) : Tells muffled (Installing.io c) := by
  refine bind (ask deaf) fun r => ?_
  cases r with
  | ok a => exact pure a
  | error e => exact fail (e := .io e) nofun

theorem exists? (p : Path) : Tells muffled (Installing.exists? p) := lift (.exists? p)

theorem tell (line : String) : Tells muffled (Installing.tell line) :=
  bind (ask (c := .tell line) trivial) fun _ => update _

theorem remove (p : Path) : Tells muffled (Installing.remove p) := by
  refine bind (lift (.removePath p)) fun r => ?_
  cases r with
  | ok u => exact pure u
  | error e => exact fail (e := .io e) nofun

/-- A command is one call, and it ends as the call has told. -/
theorem logged_command {c : Command} {log : List Occasion} {t t' : Files} {o o' : Operation}
    {r : Except Error Unit} (run : Logged log t ((Installing.command c).run.run o) (r, o') t') :
    ∃ h : Host, h.files = t ∧ log = [⟨h, .run c .reported⟩] ∧ r = (h.execute c .reported).1.outcome ∧
      t' = (h.execute c .reported).2.files := by
  unfold Installing.command at run
  rw [run_bind] at run
  obtain ⟨before, after, ⟨a, o₁⟩, t₁, rfl, asked, run⟩ := Program.logged_bind run
  obtain ⟨report, rfl, called⟩ := logged_lift asked
  obtain ⟨h, files, rfl, rfl, rfl⟩ := Program.logged_ask called
  refine ⟨h, files, ?_⟩
  change Logged after _ ((Installing.ofExcept (h.execute c .reported).1.outcome).run.run _) _ _ at run
  cases outcome : (h.execute c .reported).1.outcome with
  | ok u =>
      rw [outcome] at run
      cases run
      exact ⟨rfl, rfl, rfl⟩
  | error e =>
      rw [outcome] at run
      cases run
      exact ⟨rfl, rfl, rfl⟩

theorem command {c : Command} : Tells muffled (Installing.command c) := by
  refine ⟨fun {log t t' o o' r} run => ?_⟩
  obtain ⟨h, -, rfl, rfl, -⟩ := logged_command run
  exact .run nofun fun _ => nofun

theorem forEach {xs : List α} {f : α → Unit → Installing (ForInStep Unit)}
    (each : ∀ x ∈ xs, Tells muffled (f x ())) : Tells muffled (forIn xs () f) := by
  induction xs with
  | nil => exact pure ()
  | cons x xs ih =>
      rw [List.forIn_cons]
      refine bind (each x List.mem_cons_self) fun r => ?_
      cases r with
      | done u => exact pure u
      | yield u => exact ih fun y hy => each y (List.mem_cons_of_mem _ hy)

/-- A step of which a failure is caught, where no cancellation reaches it. -/
theorem tryCatch {x : Installing α} {f : Error → Installing α} (first : Tells muffled x)
    (deaf : x.Deaf) (second : ∀ e, Tells muffled (f e)) :
    Tells muffled (tryCatch x f) := by
  refine ⟨fun {log t t' o o' r} run => ?_⟩
  rw [run_tryCatch] at run
  obtain ⟨before, after, ⟨a, o₁⟩, t₁, rfl, run, run'⟩ := Program.logged_bind run
  have silent := run.deaf (deaf o)
  cases a with
  | ok a =>
      cases run'
      rw [List.append_nil]
      exact first.told run
  | error e =>
      have caught : Told muffled before (.ok () : Except Error Unit) := .of_deaf silent nofun
      exact caught.append ((second e).told run')

/-- The program looks for a cancellation and goes on if there is none. -/
theorem unlessCancelled {x : Installing α} (tells : Tells muffled x) :
    Tells muffled (do
      if ← Installing.lift (Program.ask .cancelled) then Installing.fail .cancelled else x) := by
  refine ⟨fun {log t t' o o' r} run => ?_⟩
  rw [run_bind] at run
  obtain ⟨before, after, ⟨a, o₁⟩, t₁, rfl, asked, run⟩ := Program.logged_bind run
  obtain ⟨h, rfl, rfl⟩ := logged_lift_ask asked
  change Logged after t₁ ((if h.isCancelled = true then _ else _ : Installing α).run.run _) _ _ at run
  by_cases cancelled : h.isCancelled = true
  · rw [if_pos cancelled] at run
    cases run
    refine ⟨⟨fun _ => ⟨_, List.mem_cons_self, cancelled, fun query => query.2⟩, fun _ => rfl⟩, nofun⟩
  · rw [if_neg cancelled] at run
    have looked : Told muffled [⟨h, .cancelled⟩] (.ok () : Except Error Unit) := by
      refine ⟨⟨nofun, ?_⟩, fun _ m there => ?_⟩
      · rintro ⟨m, there, noticed, -⟩
        cases List.mem_singleton.mp there
        exact absurd noticed cancelled
      · cases List.mem_singleton.mp there
        trivial
    exact looked.append (tells.told run)

/-- The program waits until it is cancelled. -/
theorem awaitCancel : Tells muffled (do
    Installing.lift (Program.ask .awaitCancel)
    Installing.fail .cancelled : Installing α) := by
  refine ⟨fun {log t t' o o' r} run => ?_⟩
  rw [run_bind] at run
  obtain ⟨before, after, ⟨a, o₁⟩, t₁, rfl, asked, run⟩ := Program.logged_bind run
  obtain ⟨h, rfl, rfl⟩ := logged_lift_ask asked
  cases run
  exact ⟨⟨fun _ => ⟨_, List.mem_cons_self, trivial, fun query => query.2⟩, fun _ => rfl⟩, nofun⟩

end Installing.Tells

/-- What a command that is captured has told. -/
theorem logged_capture {log : List Occasion} {t t' : Files} {c : Command} {mode : RunMode}
    {r : Except Error String} (run : Logged log t (capture c mode) r t') :
    ∃ h : Host, h.files = t ∧ log = [⟨h, .run c mode⟩] ∧ t' = (h.execute c mode).2.files ∧
      r = (h.execute c mode).1.outcome.map fun _ =>
        String.intercalate "\n" ((h.execute c mode).1.lines.take captureLimit) := by
  obtain ⟨before, after, report, t₁, rfl, asked, run⟩ := Program.logged_bind run
  obtain ⟨h, files, rfl, rfl, rfl⟩ := Program.logged_ask asked
  have answered : (h.answer (.run c mode)).1 = (h.execute c mode).1 := rfl
  rw [answered] at run
  cases outcome : (h.execute c mode).1.outcome with
  | ok u =>
      rw [outcome] at run
      cases run
      exact ⟨h, files, rfl, rfl, by rw [outcome]; rfl⟩
  | error e =>
      rw [outcome] at run
      cases run
      exact ⟨h, files, rfl, rfl, by rw [outcome]; rfl⟩

theorem Program.Fallible.Tells.capture {muffled : Prop} {c : Command} (heard : ¬ muffled) :
    Program.Fallible.Tells muffled (ExceptT.mk (LanguageHost.capture c .quiet)) := by
  refine ⟨fun {log t t' r} run => ?_⟩
  obtain ⟨h, -, rfl, -, rfl⟩ := logged_capture run
  have told : Told muffled [⟨h, .run c .quiet⟩] (h.execute c .quiet).1.outcome :=
    .run nofun fun silent => absurd silent heard
  exact told.map _

/-- A program on its own, its failure that of the step. -/
theorem Installing.Tells.pass {muffled : Prop} {x : Program.Fallible α} {f : α → Installing β}
    (first : x.Tells muffled) (second : ∀ a, Tells muffled (f a)) :
    Installing.Tells muffled (Installing.lift x.run >>= fun r => Installing.ofExcept r >>= f) := by
  refine ⟨fun {log t t' o o' r} run => ?_⟩
  rw [run_bind] at run
  obtain ⟨before, after, ⟨a, o₁⟩, t₁, rfl, asked, run⟩ := Program.logged_bind run
  obtain ⟨answer, rfl, lifted⟩ := logged_lift asked
  have told := first.told lifted
  cases answer with
  | ok a => exact told.append ((second a).told run)
  | error e =>
      cases run
      rw [List.append_nil]
      exact told.of_error rfl

/-! What a program can ask the machine for, whatever it is answered: all of its calls are of a kind. -/

/-- A kind of calls. -/
abbrev Call.Kind := ∀ β : Type, Call β → Prop

/-- The call neither runs a command nor writes a file. -/
def Call.IsPlain : Call β → Prop
  | .run _ _ | .writeFile _ _ => False
  | _ => True

namespace Program

/-- All calls that the program can make are of the kind. -/
def Only (kind : Call.Kind) : Program α → Prop
  | .done _ => True
  | .call c next => kind _ c ∧ ∀ b, (next b).Only kind

variable {kind : Call.Kind}

theorem Logged.only {log : List Occasion} {t t' : Files} {p : Program α} {a : α}
    (run : Logged log t p a t') (only : p.Only kind) : ∀ m ∈ log, kind _ m.call := by
  induction run with
  | done => exact fun _ => nofun
  | call _ _ ih =>
      intro m there
      rcases List.mem_cons.mp there with rfl | later
      · exact only.1
      · exact ih (only.2 _) m later

namespace Only

theorem pure (a : α) : (Pure.pure a : Program α).Only kind := trivial

theorem ask {c : Call α} (is : kind α c) : (Program.ask c).Only kind := ⟨is, fun _ => trivial⟩

theorem bind {p : Program α} {f : α → Program β} (first : p.Only kind) (second : ∀ a, (f a).Only kind) :
    (p >>= f).Only kind := by
  induction p with
  | done a => exact second a
  | call c next ih => exact ⟨first.1, fun b => ih b (first.2 b)⟩

theorem capture {c : Command} {mode : RunMode} (is : kind _ (.run c mode)) :
    (LanguageHost.capture c mode).Only kind := by
  refine .bind (.ask is) fun report => ?_
  cases report.outcome <;> exact .pure _

section plain
variable (plain : ∀ {β : Type} (c : Call β), c.IsPlain → kind β c)
include plain

theorem exists? (p : Path) : (Program.exists? p).Only kind :=
  .bind (.ask (plain _ trivial)) fun _ => .pure _

theorem readText (p : Path) : (Program.readText p).Only kind := by
  refine .bind (.ask (plain _ trivial)) fun r => ?_
  cases r with
  | error e => exact .pure _
  | ok bs =>
      dsimp only
      split <;> exact .pure _

theorem removePath (p : Path) : (LanguageHost.removePath p).Only kind := by
  refine .bind (.ask (plain _ trivial)) fun r => ?_
  cases r with
  | error e => cases e <;> exact .pure _
  | ok k => cases k <;> exact .bind (.ask (plain _ trivial)) fun _ => .pure _

end plain

end Only

end Program

/-- All calls that the step can make are of the kind. -/
def Installing.Only (kind : Call.Kind) (x : Installing α) : Prop := ∀ o, (x.run.run o).Only kind

namespace Installing.Only
variable {kind : Call.Kind}

theorem pure (a : α) : Only kind (Pure.pure a : Installing α) := fun _ => trivial

theorem fail (e : Error) : Only kind (Installing.fail e : Installing α) := fun _ => trivial

theorem update (f : Operation → Operation) : Only kind (Installing.update f) := fun _ => trivial

theorem ofExcept (r : Except Error α) : Only kind (Installing.ofExcept r) := by
  cases r with
  | ok a => exact pure a
  | error e => exact fail e

theorem bind {x : Installing α} {f : α → Installing β} (first : Only kind x) (second : ∀ a, Only kind (f a)) :
    Only kind (x >>= f) := by
  intro o
  rw [run_bind]
  refine .bind (first o) ?_
  rintro ⟨e | a, o'⟩
  · exact trivial
  · exact second a o'

theorem lift {p : Program α} (only : p.Only kind) : Only kind (Installing.lift p) := by
  intro o
  rw [run_lift]
  exact .bind only fun _ => trivial

theorem io {c : Call (Except IoError α)} (is : kind _ c) : Only kind (Installing.io c) := by
  refine bind (lift (.ask is)) fun r => ?_
  cases r with
  | ok a => exact pure a
  | error e => exact fail _

theorem command {c : Command} (is : kind _ (.run c .reported)) : Only kind (Installing.command c) :=
  bind (lift (.ask is)) fun _ => bind (update _) fun _ => ofExcept _

theorem forEach {xs : List α} {f : α → Unit → Installing (ForInStep Unit)}
    (each : ∀ x ∈ xs, Only kind (f x ())) : Only kind (forIn xs () f) := by
  induction xs with
  | nil => exact pure ()
  | cons x xs ih =>
      rw [List.forIn_cons]
      refine bind (each x List.mem_cons_self) fun r => ?_
      cases r with
      | done u => exact pure u
      | yield u => exact ih fun y hy => each y (List.mem_cons_of_mem _ hy)

section plain
variable (plain : ∀ {β : Type} (c : Call β), c.IsPlain → kind β c)
include plain

theorem exists? (p : Path) : Only kind (Installing.exists? p) := lift (.exists? plain p)

theorem remove (p : Path) : Only kind (Installing.remove p) := by
  refine bind (lift (.removePath plain p)) fun r => ?_
  cases r with
  | ok u => exact pure u
  | error e => exact fail _

end plain

end Installing.Only

end LanguageHost
