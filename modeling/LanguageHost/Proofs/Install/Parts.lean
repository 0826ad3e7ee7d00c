import LanguageHost.Proofs.Install.Reported
import LanguageHost.Proofs.Install.Rollback

/-! An install in its parts: an earlier one is set aside, the work is done while its output is shown, and
what follows settles it. Only the work reports lines. -/
namespace LanguageHost.Install
open Installing (Reports)

/-- Looks for the binary of what has been installed; the answer is how to launch it. -/
def verify (b : Backend) (e : RegistryEntry) (version : String) (platform : Platform) :
    Installing ServerBinary :=
  match platform.expand e.executables.primary version with
  | .error reason => Installing.fail (.installFailed e.name reason.message)
  | .ok primary => do
    let path := b.binaryPath primary
    if ← Installing.exists? path then
      pure { ServerBinary.ofPath path with args := e.executables.args, env := b.binaryEnv }
    else Installing.fail (.installFailed e.name ("binary " ++ path.text ++ " was not produced"))

/-- The parts of the work, each a phase of its own. -/
inductive Part where
  | preparing | installing | verifying

namespace Part

/-- What a part gives. -/
def Gives : Part → Type
  | .verifying => ServerBinary
  | _ => Unit

/-- Enters the phase of a part. -/
def enter : Part → Operation → Operation
  | .preparing, o => o.enter .preparing 10
  | .installing, o => o.enter .installing 30
  | .verifying, o => o.enter .verifying 95

def work (p : Plan) (e : RegistryEntry) (platform : Platform) : (part : Part) → Installing part.Gives
  | .preparing => p.backend.prepare
  | .installing => p.backend.install p.method
  | .verifying => verify p.backend e p.source.version platform

/-- What of the work is left after a part. -/
def rest (p : Plan) (e : RegistryEntry) (platform : Platform) :
    (part : Part) → part.Gives → Installing ServerBinary
  | .preparing, _ => do
    Installing.update (Part.installing.enter)
    p.backend.install p.method
    Installing.update (Part.verifying.enter)
    verify p.backend e p.source.version platform
  | .installing, _ => do
    Installing.update (Part.verifying.enter)
    verify p.backend e p.source.version platform
  | .verifying, binary => pure binary

@[simp] theorem output_enter (part : Part) (o : Operation) : (part.enter o).output = o.output := by
  cases part <;> rfl

end Part

/-- What follows work that went well: it is registered, unless it was cancelled meanwhile. -/
def conclude (configs : ServerConfigs) (e : RegistryEntry) (p : Plan) (binary : ServerBinary) :
    Installing (ServerBinary × ServerConfigs) := do
  if ← Installing.lift (Program.ask .cancelled) then Installing.fail .cancelled
  else
    let configs ← Installing.ofExcept
      (← Installing.lift (register configs e p.method p.source.version binary).run)
    pure (binary, configs)

/-- Removes the copy aside after an attempt that went well, and undoes one that failed. -/
def sweep (servers : Path) (e : RegistryEntry) (p : Plan) (had : Bool)
    (result : Except Error (ServerBinary × ServerConfigs)) : Installing (ServerBinary × ServerConfigs) :=
  let aside := if had then some (asidePlace servers e) else none
  match result, aside with
  | .ok done, some previous => do
    discard (Installing.lift (removePath previous))
    pure done
  | .ok done, none => pure done
  | .error error, _ => do
    rollback p.backend (place servers e) aside
    Installing.fail error

/-- What follows the work, however it ended. -/
def settle (servers : Path) (configs : ServerConfigs) (e : RegistryEntry) (p : Plan) (had : Bool)
    (r : Except Error ServerBinary) : Installing (ServerBinary × ServerConfigs) := do
  let result ← tryCatch (Except.ok <$> (Installing.ofExcept r >>= conclude configs e p))
    fun error => pure (.error error)
  sweep servers e p had result

/-- A step whose failure is kept for later, and what then follows it. -/
theorem run_tried (x : Installing α) (f : α → Installing β) (g : Except Error β → Installing γ)
    (o : Operation) :
    ((do
      let result ← tryCatch (Except.ok <$> (x >>= f)) fun error => pure (.error error)
      g result : Installing γ).run.run o) =
    (x.run.run o).bind fun r => (do
      let result ← tryCatch (Except.ok <$> (Installing.ofExcept r.1 >>= f)) fun error => pure (.error error)
      g result : Installing γ).run.run r.2 := by
  rw [Installing.run_bind, Installing.run_tryCatch, Installing.run_map, Installing.run_bind]
  simp only [bind_assoc]
  change Program.bind _ _ = _
  congr 1
  funext r
  obtain ⟨a | a, o'⟩ := r
  · rfl
  · rw [Installing.run_bind, Installing.run_tryCatch, Installing.run_map, Installing.run_bind]
    simp only [bind_assoc]
    rfl

/-- What is done when a step has ended. -/
def afterStep (f : α → Installing β) (r : Except Error α × Operation) :
    Program (Except Error β × Operation) :=
  match r.1 with
  | .ok a => (f a).run.run r.2
  | .error error => pure (.error error, r.2)

theorem run_then (x : Installing α) (f : α → Installing β) (next : Except Error β × Operation → Program γ)
    (o : Operation) :
    (x >>= f).run.run o >>= next = x.run.run o >>= fun r => afterStep f r >>= next := by
  rw [Installing.run_bind, bind_assoc]
  rfl

section run
variable (servers : Path) (configs : ServerConfigs) (e : RegistryEntry) (platform : Platform) (p : Plan)

/-- What is done when the work has ended. -/
def afterWork (had : Bool) (r : Except Error ServerBinary × Operation) :
    Program (Except Error (ServerBinary × ServerConfigs) × Operation) :=
  (settle servers configs e p had r.1).run.run r.2

/-- What is done when a part of the work has ended. -/
def afterPart (had : Bool) (part : Part) (r : Except Error part.Gives × Operation) :
    Program (Except Error (ServerBinary × ServerConfigs) × Operation) :=
  afterStep (part.rest p e platform) r >>= afterWork servers configs e p had

/-- What is done when an earlier install has been set aside, if there was one. -/
def afterAside (r : Except Error Bool × Operation) :
    Program (Except Error (ServerBinary × ServerConfigs) × Operation) :=
  match r.1 with
  | .ok had => do
    afterPart servers configs e platform p had .preparing
      (← p.backend.prepare.run.run (Part.preparing.enter r.2))
  | .error error => pure (.error error, r.2)

variable {servers configs e platform p}

/-- An install is its parts, one after the other. -/
theorem run_eq (planned : plan servers e platform = .ok p) (o : Operation) :
    (run servers configs e platform).run.run o =
      (setAside (place servers e) (asidePlace servers e)).run.run o >>=
        afterAside servers configs e platform p := by
  unfold run
  rw [planned]
  dsimp only
  rw [Installing.run_bind]
  congr 1
  funext r
  obtain ⟨error | had, o'⟩ := r
  · rfl
  · refine (run_tried _ (conclude configs e p) (sweep servers e p had) o').trans ?_
    exact run_then p.backend.prepare (Part.preparing.rest p e platform)
      (afterWork servers configs e p had) (Part.preparing.enter o')

theorem run_of_error {error : Error} (planned : plan servers e platform = .error error) (o : Operation) :
    (run servers configs e platform).run.run o = .done (.error error, o) := by
  unfold run
  rw [planned]
  rfl

theorem afterPart_preparing (had : Bool) (u : Part.preparing.Gives) (o : Operation) :
    afterPart servers configs e platform p had .preparing (.ok u, o) =
      (p.backend.install p.method).run.run (Part.installing.enter o) >>=
        afterPart servers configs e platform p had .installing :=
  run_then (p.backend.install p.method) (Part.installing.rest p e platform)
    (afterWork servers configs e p had) (Part.installing.enter o)

theorem afterPart_installing (had : Bool) (u : Part.installing.Gives) (o : Operation) :
    afterPart servers configs e platform p had .installing (.ok u, o) =
      (verify p.backend e p.source.version platform).run.run (Part.verifying.enter o) >>=
        afterPart servers configs e platform p had .verifying := by
  have last : (verify p.backend e p.source.version platform >>= Part.verifying.rest p e platform) =
      verify p.backend e p.source.version platform := bind_pure _
  refine Eq.trans ?_ (run_then (verify p.backend e p.source.version platform)
    (Part.verifying.rest p e platform) (afterWork servers configs e p had) (Part.verifying.enter o))
  rw [last]
  rfl

end run

/-! Which of the parts report lines. -/

section reports
variable {silent : Prop}

theorem reports_setAside (dir aside : Path) : Reports silent (setAside dir aside) := by
  have moved : Reports silent (do
      if ← Installing.exists? dir then
        Installing.io (.rename dir aside)
        pure true
      else pure false) := by
    refine .bind (.exists? _) fun there => ?_
    split
    · exact .bind (.io trivial) fun _ => .pure _
    · exact .pure _
  refine .bind (.exists? _) fun left => ?_
  split
  · refine .bind (.exists? _) fun there => ?_
    dsimp only
    split
    · exact .bind (.remove _) fun _ => moved
    · exact .bind (.io trivial) fun _ => moved
  · exact moved

theorem mute_publish (path : Path) (text : String) : (Manifest.publish path text).run.Mute := by
  have replaced : Program.Mute (do
      Program.io (Program.writeText (Manifest.draftPath path) text)
      Program.io (.rename (Manifest.draftPath path) path) : Program.Fallible Unit).run :=
    .bind_fallible (.io (c := Program.writeText _ text) trivial) fun _ => .io (c := .rename _ path) trivial
  unfold Manifest.publish
  cases path.parent? with
  | none => exact replaced
  | some dir => exact .bind_fallible (.io (c := .makeDirs dir) trivial) fun _ => replaced

theorem mute_register (configs : ServerConfigs) (e : RegistryEntry) (m : InstallMethod) (version : String)
    (b : ServerBinary) : (register configs e m version b).run.Mute := by
  refine .bind_fallible (.bind (.ask (c := .now) trivial) fun _ => .pure _) fun date => ?_
  refine .bind_fallible ?_ fun _ => .pure _
  unfold Manifest.save
  split
  · exact .pure _
  · exact mute_publish _ _

theorem reports_conclude (configs : ServerConfigs) (e : RegistryEntry) (p : Plan) (binary : ServerBinary) :
    Reports silent (conclude configs e p binary) := by
  refine .bind (.ask trivial) fun cancelled => ?_
  split
  · exact .fail _
  · exact .bind (.lift (mute_register _ _ _ _ _)) fun r => .bind (.ofExcept r) fun _ => .pure _

theorem reports_rollback {b : Backend} (cleanup : Reports silent b.cleanup) (dir : Path)
    (aside : Option Path) : Reports silent (rollback b dir aside) := by
  refine .bind (.tryCatch cleanup fun _ => .pure ()) fun _ => .bind (.lift (.removePath dir)) fun r => ?_
  cases r with
  | error e => exact .pure ()
  | ok u =>
      cases aside with
      | none => exact .pure ()
      | some previous => exact .map (.ask (c := .rename previous dir) trivial) _

theorem reports_sweep {p : Plan} (cleanup : Reports silent p.backend.cleanup) (servers : Path)
    (e : RegistryEntry) (had : Bool) (result : Except Error (ServerBinary × ServerConfigs)) :
    Reports silent (sweep servers e p had result) := by
  unfold sweep
  dsimp only
  split
  · exact .bind (.map (.lift (.removePath _)) _) fun _ => .pure _
  · exact .pure _
  · exact .bind (reports_rollback cleanup _ _) fun _ => .fail _

theorem reports_settle {p : Plan} (cleanup : Reports silent p.backend.cleanup) (servers : Path)
    (configs : ServerConfigs) (e : RegistryEntry) (had : Bool) (r : Except Error ServerBinary) :
    Reports silent (settle servers configs e p had r) :=
  .bind (.tryCatch (.map (.bind (.ofExcept r) fun _ => reports_conclude _ _ _ _) _) fun _ => .pure _)
    fun _ => reports_sweep cleanup _ _ _ _

theorem reports_verify (b : Backend) (e : RegistryEntry) (version : String) (platform : Platform) :
    Reports silent (verify b e version platform) := by
  unfold verify
  split
  · exact .fail _
  · refine .bind (.exists? _) fun there => ?_
    split
    · exact .pure _
    · exact .fail _

theorem plan_vocal {servers : Path} {e : RegistryEntry} {platform : Platform} {p : Plan}
    (planned : plan servers e platform = .ok p) : Vocal p.method p.backend :=
  vocal_ofMethod (plan_cases planned).2

/-- An install reports the lines that it adds to the output, and no others. -/
theorem reports_run (servers : Path) (configs : ServerConfigs) (e : RegistryEntry) (platform : Platform) :
    Reports False (run servers configs e platform) := by
  unfold run
  cases planned : plan servers e platform with
  | error error => exact .fail error
  | ok p =>
      have vocal := plan_vocal planned
      have performed : Reports False (perform p.backend e p.method p.source.version platform) :=
        .bind (.enter _ _) fun _ => .bind vocal.prepare fun _ =>
          .bind (.enter _ _) fun _ => .bind vocal.install fun _ =>
            .bind (.enter _ _) fun _ => reports_verify p.backend e p.source.version platform
      have attempted : Reports False (attempt configs e p platform) :=
        .bind performed fun binary => reports_conclude configs e p binary
      refine .bind (reports_setAside _ _) fun had => .bind (.tryCatch (.map attempted _) fun _ => .pure _)
        fun result => ?_
      exact reports_sweep (vocal.cleanup.of_silent) servers e had result

end reports

end LanguageHost.Install
