import LanguageHost.Proofs.Install.Failed
import LanguageHost.Proofs.Install.Heard

/-! The log of an install, cut at its steps: what is set aside, the attempt, and what comes after that.
The attempt decides how the install ends. -/
namespace LanguageHost.Install
open Program (Logged)
open Installing (Deaf)

variable {log : List Occasion} {t t' : Files} {o o' : Operation}

/-- An installer that has installed something was idle before. -/
theorem idle_of_install {i i' : Installer} {e : RegistryEntry} {b : ServerBinary}
    (made : Logged log t (i.install e) (.ok b, i') t') : i.active = false := by
  cases active : i.active with
  | false => rfl
  | true =>
      unfold Installer.install Installer.reserve at made
      rw [active] at made
      cases made

/-- What an idle installer answers, and becomes, is what its run ends with. -/
theorem logged_install {i i' : Installer} {e : RegistryEntry} {r : Except Error ServerBinary}
    (idle : i.active = false) (made : Logged log t (i.install e) (r, i') t') :
    ∃ ended o, Logged log t ((run i.servers i.configs e i.platform).run.run (.start e.name)) (ended, o)
        t' ∧
      i'.operation = some (o.finish ended) ∧
      ((∃ error, ended = .error error ∧ r = .error error ∧ i'.configs = i.configs) ∨
        ∃ b configs, ended = .ok (b, configs) ∧ r = .ok b ∧ i'.configs = configs) := by
  unfold Installer.install Installer.reserve at made
  rw [idle] at made
  obtain ⟨whole, rest, ⟨ended, o⟩, t₁, rfl, made, finished⟩ := Program.logged_bind made
  cases ended with
  | error error =>
      cases finished
      rw [List.append_nil]
      exact ⟨_, o, made, rfl, .inl ⟨error, rfl, rfl, rfl⟩⟩
  | ok done =>
      cases finished
      rw [List.append_nil]
      exact ⟨_, o, made, rfl, .inr ⟨done.1, done.2, rfl, rfl, rfl⟩⟩

/-- A failure that is kept as an answer. -/
theorem logged_tried {x : Installing α} {r : Except Error (Except Error α)}
    (made : Logged log t
      ((tryCatch (Except.ok <$> x) fun error => pure (.error error)).run.run o) (r, o') t') :
    ∃ ended, r = .ok ended ∧ Logged log t (x.run.run o) (ended, o') t' := by
  rw [Installing.run_tryCatch] at made
  obtain ⟨whole, rest, ⟨tried, o₁⟩, t₁, rfl, made, kept⟩ := Program.logged_bind made
  rw [Installing.run_map] at made
  obtain ⟨whole, rest', ⟨ended, o₂⟩, t₂, rfl, made, mapped⟩ := Program.logged_bind made
  cases ended with
  | error error =>
      cases mapped
      cases kept
      rw [List.append_nil, List.append_nil]
      exact ⟨_, rfl, made⟩
  | ok a =>
      cases mapped
      cases kept
      rw [List.append_nil, List.append_nil]
      exact ⟨_, rfl, made⟩

/-! What comes after the attempt: no cancellation reaches it, and it never fails. -/

theorem deaf_rollback {b : Backend} (cleanup : Deaf b.cleanup) (dir : Path) (aside : Option Path) :
    Deaf (rollback b dir aside) := by
  refine .bind (.tryCatch cleanup fun _ => .pure ()) fun _ => .bind (.lift (.removePath dir)) fun r => ?_
  cases r with
  | error e => exact .pure ()
  | ok u =>
      cases aside with
      | none => exact .pure ()
      | some previous => exact .map (.lift (.ask trivial))

theorem holds_any {fair : Fairness} (p : Program α) :
    Program.Holds fair (fun _ => True) p (fun _ _ => True) fun _ => True :=
  ⟨fun _ _ => trivial, fun _ _ => trivial⟩

theorem rollback_ends {fair : Fairness} (b : Backend) (dir : Path) (aside : Option Path) :
    Installing.Holds fair (fun _ => True) (rollback b dir aside) (fun _ _ => True) (fun _ => False)
      fun _ => True := by
  have lifted : ∀ {α} (p : Program α), Installing.Holds fair (fun _ => True) (Installing.lift p)
      (fun _ _ => True) (fun _ => False) fun _ => True :=
    fun p => .lift (holds_any p) fun _ _ _ => trivial
  have cleaned : Installing.Holds fair (fun _ => True) (tryCatch b.cleanup fun _ => pure ())
      (fun _ _ => True) (fun _ => False) fun _ => True :=
    .tryCatch (holds_anything b.cleanup) (fun _ => .pure (fun _ h => h) fun _ h => h) fun _ _ h => h
  refine cleaned.bind (fun _ => (lifted _).bind (fun r => ?_) fun _ h => h.elim) fun _ h => h.elim
  cases r with
  | error e => exact .pure (fun _ h => h) fun _ h => h
  | ok u =>
      cases aside with
      | none => exact .pure (fun _ h => h) fun _ h => h
      | some previous => exact .map (lifted _) (fun _ _ h => h) fun _ h => h.elim

theorem logged_rollback {b : Backend} {dir : Path} {aside : Option Path} {r : Except Error Unit}
    (made : Logged log t ((rollback b dir aside).run.run o) (r, o') t') : r = .ok () := by
  have ends := (@rollback_ends (fun _ _ _ => True) b dir aside o).ends trivial
    (made.runs fun _ _ => trivial)
  cases r with
  | error e => exact False.elim ends
  | ok u => rfl

theorem logged_rolled_back {b : Backend} {dir : Path} {aside : Option Path} {error : Error}
    {r : Except Error α} (cleanup : Deaf b.cleanup)
    (made : Logged log t ((do
      rollback b dir aside
      Installing.fail error : Installing α).run.run o) (r, o') t') :
    r = .error error ∧ ∀ m ∈ log, m.call.Deaf := by
  rw [Installing.run_bind] at made
  obtain ⟨whole, rest, ⟨back, o₁⟩, t₁, rfl, made, failed⟩ := Program.logged_bind made
  obtain rfl := logged_rollback made
  cases failed
  rw [List.append_nil]
  exact ⟨rfl, made.deaf (deaf_rollback cleanup dir aside o)⟩

theorem logged_cleared {previous : Path} {done : α} {r : Except Error α}
    (made : Logged log t ((do
      discard (Installing.lift (removePath previous))
      pure done : Installing α).run.run o) (r, o') t') :
    r = .ok done ∧ ∃ answer, Logged log t (removePath previous) answer t' := by
  rw [Installing.run_bind] at made
  obtain ⟨whole, rest, ⟨gone, o₁⟩, t₁, rfl, made, ended⟩ := Program.logged_bind made
  change Logged whole t (((fun _ => ()) <$> Installing.lift (removePath previous) :
    Installing Unit).run.run o) _ _ at made
  rw [Installing.run_map] at made
  obtain ⟨removal, rest', ⟨u, o₂⟩, t₂, rfl, made, mapped⟩ := Program.logged_bind made
  obtain ⟨answer, rfl, removed⟩ := Installing.Tells.logged_lift made
  cases mapped
  cases ended
  rw [List.append_nil, List.append_nil]
  exact ⟨rfl, answer, removed⟩

/-- What comes after an attempt: no cancellation reaches it, and after one that went well at most the copy
aside is removed. -/
structure Settled (aside : Path) (r : Except Error α) (last : List Occasion) (t t' : Files) : Prop where
  silent : ∀ m ∈ last, m.call.Deaf
  cleared : r.isOk = true → t' = t ∨ ∃ answer, Logged last t (removePath aside) answer t'

/-- An install that its entry allows sets aside what is there, and ends as its attempt does. -/
theorem logged_run {servers : Path} {configs : ServerConfigs} {e : RegistryEntry} {platform : Platform}
    {p : Plan} {r : Except Error (ServerBinary × ServerConfigs)}
    (planned : plan servers e platform = .ok p) (cleanup : Deaf p.backend.cleanup)
    (made : Logged log t ((run servers configs e platform).run.run o) (r, o') t') :
    ∃ first rest moved o₁ t₁, log = first ++ rest ∧
      Logged first t ((setAside (place servers e) (asidePlace servers e)).run.run o) (moved, o₁) t₁ ∧
      ((∃ error, moved = .error error ∧ r = .error error ∧ rest = []) ∨
        ∃ had attempted last o₂ t₂, moved = .ok had ∧ rest = attempted ++ last ∧
          Logged attempted t₁ ((attempt configs e p platform).run.run o₁) (r, o₂) t₂ ∧
          Settled (asidePlace servers e) r last t₂ t') := by
  unfold run at made
  rw [planned] at made
  dsimp only at made
  rw [Installing.run_bind] at made
  obtain ⟨first, rest, ⟨moved, o₁⟩, t₁, rfl, aside, made⟩ := Program.logged_bind made
  refine ⟨first, rest, moved, o₁, t₁, rfl, aside, ?_⟩
  cases moved with
  | error error =>
      cases made
      exact .inl ⟨error, rfl, rfl, rfl⟩
  | ok had =>
      dsimp only at made
      rw [Installing.run_bind] at made
      obtain ⟨attempted, last, ⟨tried, o₂⟩, t₂, rfl, made, settled⟩ := Program.logged_bind made
      obtain ⟨ended, rfl, tries⟩ := logged_tried made
      have stands : r = ended ∧ Settled (asidePlace servers e) r last t₂ t' := by
        cases ended with
        | error error =>
            obtain ⟨rfl, silent⟩ := logged_rolled_back cleanup settled
            exact ⟨rfl, silent, nofun⟩
        | ok done =>
            cases had with
            | true =>
                obtain ⟨rfl, answer, removed⟩ := logged_cleared settled
                exact ⟨rfl, removed.deaf (.removePath _), fun _ => .inr ⟨answer, removed⟩⟩
            | false =>
                cases settled
                exact ⟨rfl, fun _ => nofun, fun _ => .inl rfl⟩
      obtain ⟨rfl, after⟩ := stands
      exact .inr ⟨had, attempted, last, o₂, t₂, rfl, rfl, tries, after⟩

/-- What is performed and ends well is an install of the backend's, and then its binary has been looked for
and has been there. -/
theorem logged_perform {b : Backend} {e : RegistryEntry} {m : InstallMethod} {version : String}
    {platform : Platform} {binary : ServerBinary}
    (made : Logged log t ((perform b e m version platform).run.run o) (.ok binary, o') t') :
    ∃ prepared installed there primary o₁ t₁ o₂,
      log = prepared ++ (installed ++ [⟨there, .kind (b.binaryPath primary) true⟩]) ∧
      Logged prepared t (b.prepare.run.run (o.enter .preparing 10)) (.ok (), o₁) t₁ ∧
      Logged installed t₁ ((b.install m).run.run (o₁.enter .installing 30)) (.ok (), o₂) there.files ∧
      platform.expand e.executables.primary version = .ok primary ∧
      (there.answer (.kind (b.binaryPath primary) true)).1.isOk = true ∧
      binary = { ServerBinary.ofPath (b.binaryPath primary) with
        args := e.executables.args, env := b.binaryEnv } := by
  obtain ⟨prepared, rest, _, o₁, t₁, rfl, before, onward⟩ :=
    Installing.logged_bind_ok (Installing.logged_of_update made)
  obtain ⟨installed, found, _, o₂, t₂, rfl, done, looked⟩ :=
    Installing.logged_bind_ok (Installing.logged_of_update onward)
  replace looked := Installing.logged_of_update looked
  cases expanded : platform.expand e.executables.primary version with
  | error reason =>
      rw [expanded] at looked
      cases looked
  | ok primary =>
      rw [expanded] at looked
      obtain ⟨asked, last, seen, o₃, t₃, rfl, kind, ended⟩ := Installing.logged_bind_ok looked
      obtain ⟨answer, same, single⟩ := Installing.Tells.logged_lift kind
      cases same
      obtain ⟨first, after, entry, t₄, rfl, call, told⟩ := Program.logged_bind single
      obtain ⟨there, rfl, rfl, rfl, -⟩ := Program.logged_ask call
      cases told
      split at ended
      · next present =>
          cases ended
          exact ⟨prepared, installed, there, primary, o₁, t₁, o₂, by simp, before, done, rfl, present, rfl⟩
      · cases ended

/-- An attempt that ends well has performed the install, has looked for a cancellation and found none,
and has registered what it has installed. -/
theorem logged_attempt {configs configs' : ServerConfigs} {e : RegistryEntry} {p : Plan}
    {platform : Platform} {b : ServerBinary}
    (made : Logged log t ((attempt configs e p platform).run.run o) (.ok (b, configs'), o') t') :
    ∃ performed registered look o₁,
      log = performed ++ ⟨look, .cancelled⟩ :: registered ∧ look.isCancelled = false ∧
      Logged performed t ((perform p.backend e p.method p.source.version platform).run.run o)
        (.ok b, o₁) look.files ∧
      Logged registered look.files (register configs e p.method p.source.version b).run (.ok configs')
        t' := by
  unfold attempt at made
  rw [Installing.run_bind] at made
  obtain ⟨performed, rest, ⟨binary, o₁⟩, t₁, rfl, done, made⟩ := Program.logged_bind made
  cases binary with
  | error error => cases made
  | ok binary =>
      dsimp only at made
      rw [Installing.run_bind] at made
      obtain ⟨asked, rest, ⟨seen, o₂⟩, t₂, rfl, looked, made⟩ := Program.logged_bind made
      obtain ⟨answer, rfl, single⟩ := Installing.Tells.logged_lift looked
      obtain ⟨look, rfl, rfl, rfl, rfl⟩ := Program.logged_ask single
      change Logged rest look.files ((if look.isCancelled = true then _ else _ : Installing _).run.run _)
        _ _ at made
      by_cases cancelled : look.isCancelled = true
      · rw [if_pos cancelled] at made
        cases made
      · rw [if_neg cancelled, Installing.run_bind] at made
        obtain ⟨registered, rest, ⟨told, o₃⟩, t₃, rfl, entered, made⟩ := Program.logged_bind made
        obtain ⟨answer, rfl, entry⟩ := Installing.Tells.logged_lift entered
        cases answer with
        | error error => cases made
        | ok configs =>
            cases made
            rw [List.append_nil]
            exact ⟨performed, registered, look, o₁, rfl, by simpa using cancelled, done, entry⟩

/-- An install that ends well has set aside what was there, has performed the new one, has looked for a
cancellation and found none, has registered what it has installed, and has at most removed the copy aside. -/
theorem logged_run_ok {servers : Path} {configs configs' : ServerConfigs} {e : RegistryEntry}
    {platform : Platform} {p : Plan} {b : ServerBinary} (planned : plan servers e platform = .ok p)
    (cleanup : Deaf p.backend.cleanup)
    (made : Logged log t ((run servers configs e platform).run.run o) (.ok (b, configs'), o') t') :
    ∃ first performed look registered last had o₁ t₁ o₂ t₂,
      log = first ++ (performed ++ ⟨look, .cancelled⟩ :: (registered ++ last)) ∧
      look.isCancelled = false ∧
      Logged first t ((setAside (place servers e) (asidePlace servers e)).run.run o) (.ok had, o₁) t₁ ∧
      Logged performed t₁ ((perform p.backend e p.method p.source.version platform).run.run o₁)
        (.ok b, o₂) look.files ∧
      Logged registered look.files (register configs e p.method p.source.version b).run (.ok configs')
        t₂ ∧
      (∀ m ∈ last, m.call.Deaf) ∧
      (t' = t₂ ∨ ∃ answer, Logged last t₂ (removePath (asidePlace servers e)) answer t') := by
  obtain ⟨first, rest, moved, o₁, t₁, rfl, aside, attempted⟩ := logged_run planned cleanup made
  rcases attempted with ⟨error, rfl, failed, rfl⟩ |
    ⟨had, attempted, last, o₂, t₂, rfl, rfl, attempts, settled⟩
  · cases failed
  · obtain ⟨performed, registered, look, o₃, rfl, free, performs, registers⟩ := logged_attempt attempts
    exact ⟨first, performed, look, registered, last, had, o₁, t₁, o₃, t₂, by simp, free, aside, performs,
      registers, settled.silent, settled.cleared rfl⟩

end LanguageHost.Install
