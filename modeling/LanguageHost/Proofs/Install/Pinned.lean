import LanguageHost.Proofs.Files.Clean
import LanguageHost.Proofs.Install.Cancelled
import LanguageHost.Proofs.Install.Moves
import LanguageHost.Proofs.Install.ReadBack
import LanguageHost.Proofs.Program.Log
import LanguageHost.Proofs.Registry.Stored

/-! What a registration leaves: the server in memory under each language of its entry, and in the
manifest's place a text that stands for what is in memory. Removing the copy aside does not touch it. -/
namespace LanguageHost.Install
open Files
open Program (Fallible Logged)

/-- What is entered for each language of an entry. -/
def entered (e : RegistryEntry) (m : InstallMethod) (version date : String) (b : ServerBinary) :
    InstalledServer := ⟨e.name, version, date, b, m.label, true⟩

/-- The manifest with a server under each language of an entry. -/
def enrolled (installed : Manifest) (e : RegistryEntry) (server : InstalledServer) : Manifest :=
  installed.insertAll ((registeredLanguages e).map fun language => (language, server))

section register
variable {configs configs' : ServerConfigs} {e : RegistryEntry} {m : InstallMethod} {version : String}
  {b : ServerBinary} {log : List Occasion} {t t' : Files}

/-- A registration that ends well has asked for the date and published the new manifest. -/
theorem logged_register
    (made : Logged log t (register configs e m version b).run (.ok configs') t') :
    ∃ now published date text, log = ⟨now, .now⟩ :: published ∧
      configs' = { configs with
        installed := enrolled configs.installed e (entered e m version date b) } ∧
      configs.format.write configs'.installed = .ok text ∧
      Logged published t (Manifest.publish configs.path text).run (.ok ()) t' := by
  obtain ⟨asked, rest, date, t₁, rfl, clock, onward⟩ := Program.logged_bind made
  obtain ⟨single, lifted, today, t₂, rfl, call, told⟩ := Program.logged_bind clock
  obtain ⟨now, rfl, rfl, rfl, rfl⟩ := Program.logged_ask call
  cases told
  obtain ⟨saved, last, done, t₃, rfl, saving, adopted⟩ := Program.logged_bind onward
  unfold Manifest.save at saving
  split at saving
  · cases saving
    cases adopted
  · next text written =>
      cases done with
      | error error => cases adopted
      | ok u =>
          cases adopted
          rw [List.append_nil, List.append_nil]
          exact ⟨now, saved, _, text, rfl, rfl, written, saving⟩

theorem get?_enrolled (installed : Manifest) (server : InstalledServer) {language : String}
    (named : language ∈ registeredLanguages e) :
    (enrolled installed e server).get? language = some server :=
  Table.get?_insertAll_of_mem named server installed

theorem ordered_enrolled {installed : Manifest} (ordered : installed.Ordered) {server : InstalledServer}
    (env : Table.Sorted server.binary.env) : (enrolled installed e server).Ordered := by
  refine ordered.insertAll ?_
  simp only [List.forall_mem_map]
  exact fun _ _ => env

end register

namespace Site
variable {servers : Path} {name : String} {manifest : Path} {s : Site servers name manifest}
  {entry : Option Files} {t t' : Files}

/-- The manifest's place holds the entry. -/
structure Has (s : Site servers name manifest) (entry : Option Files) (t : Files) : Prop where
  sound : s.Sound t
  entry : t.get? s.manifestPlace = entry

theorem holds_publish (text : String) :
    Fallible.Holds s.spot.Here s.Sound (Manifest.publish manifest text)
      (fun _ t => ∃ executable, s.Has (some (.file (Utf8.ofString text) executable)) t) s.Sound
      fun _ => True := by
  refine (Spot.holds_publish (s := s.spot) text (fun _ _ _ here => here) (fun _ sound => sound.spot)
    (fun _ _ sound _ => sound.put_new) ?_ ?_).mono (fun _ h => h) (fun _ _ h => h) fun _ _ => trivial
  · exact fun t executable sound drafted => sound.put_draft (atMostFile_file _ _) drafted
  · intro t executable sound drafted parent
    refine ⟨executable, (sound.put_draft atMostFile_none drafted).put_off off_manifest _, ?_⟩
    exact (Spot.has_replaced sound.spot drafted parent _).entry

theorem aside_located {ns : List String} (sound : s.Sound t)
    (found : t.locate false (s.cwd / s.asidePath.text) = .ok ns) : ns = s.aside := by
  rw [locate_eq (check_of_locate found), aside_components] at found
  exact s.servers_way.walk_ok sound.extends_ground _ sound.base.unlinked (fun follows => by cases follows)
    found

/-- The manifest stays when the copy aside is removed. -/
theorem keeps_removeAside : Program.Keeps s.spot.Here (s.Has entry) (removePath s.asidePath) := by
  have gone : ∀ (h : Host) (f : Files → Except IoError Files), s.Has entry h.files → h.cwd = s.cwd →
      (∀ t, f h.files = .ok t → ∃ ns, h.files.locate false (h.absolute s.asidePath) = .ok ns ∧
        t = h.files.put none ns) → s.Has entry (h.change f).2.files := by
    intro h f start here removes
    rcases h.change_cases f with ⟨_, _, same⟩ | ⟨t, made, _, files⟩
    · exact same ▸ start
    · obtain ⟨ns, found, rfl⟩ := removes t made
      obtain rfl := aside_located start.sound (absolute_of_locate here found)
      rw [files]
      refine ⟨start.sound.put_off off_aside none, ?_⟩
      rw [get?_put_apart aside_apart_manifest.1 aside_apart_manifest.2, start.entry]
  refine .removePath (fun h start here => ?_) fun h start here => ?_
  · exact gone h (·.removeTree (h.absolute s.asidePath)) start here fun _ => removeTree_cases
  · exact gone h (·.removeFile (h.absolute s.asidePath)) start here fun _ => removeFile_cases

/-- What has been registered stands in the manifest's place, also once the copy aside is gone. -/
theorem stands_of_register {configs configs' : ServerConfigs} {e : RegistryEntry}
    {s : Site servers e.name configs.path} {m : InstallMethod} {version : String} {b : ServerBinary}
    {registered last : List Occasion} {t₁ t₂ : Files} (lawful : configs.format.Lawful)
    (ordered : configs.installed.Ordered) (env : Table.Sorted b.env) (sound : s.Sound t)
    (here : ∀ m ∈ registered ++ last, m.host.cwd = s.cwd)
    (made : Logged registered t (register configs e m version b).run (.ok configs') t₁)
    (cleared : t₂ = t₁ ∨ ∃ answer, Logged last t₁ (removePath s.asidePath) answer t₂) :
    Spot.Stands configs.format (t₂.get? s.manifestPlace) configs'.installed := by
  obtain ⟨now, published, date, text, rfl, rfl, written, publishing⟩ := logged_register made
  obtain ⟨executable, has⟩ := (holds_publish (s := s) text).ends sound
    (publishing.runs fun m there => here m (by simp [there]))
  have after : s.Has (some (.file (Utf8.ofString text) executable)) t₂ := by
    rcases cleared with rfl | ⟨answer, removed⟩
    · exact has
    · exact keeps_removeAside.ends has (removed.runs fun m there => here m (by simp [there]))
  rw [after.entry]
  exact Spot.stands_written lawful (ordered_enrolled ordered env) written executable

end Site

end LanguageHost.Install

/-! Installs of packages with a fixed version. One that ends well is really there: its commands have gone
well, its package manager has recorded the package in the version, its binary has been seen, and it is
registered in memory and in the manifest. -/
namespace LanguageHost

/-- A command that the call ran, and that a cancellation stops, has exited with status 0. -/
def Occasion.Exited (m : Occasion) : Prop :=
  match m with
  | ⟨h, .run c mode⟩ => mode ≠ .steady →
      ∃ inv, h.invocation c = .ok inv ∧ (h.programs inv h.files).ending = .exit 0
  | _ => True

theorem Host.exits_of_execute {h : Host} {c : Command} {mode : RunMode}
    (ok : (h.execute c mode).1.outcome = .ok ()) :
    ∃ inv, h.invocation c = .ok inv ∧ (h.programs inv h.files).ending = .exit 0 := by
  unfold execute at ok
  split at ok
  · cases ok
  · split at ok
    · cases ok
    · next inv started =>
        refine ⟨inv, started, ?_⟩
        dsimp only at ok
        split at ok
        · cases ok
        · split at ok
          · cases ok
          · dsimp only at ok
            split at ok
            · assumption
            · cases ok

theorem Host.startable_of_find {h : Host} {place : Path} {content : Octets}
    (found : h.files.find place = .ok (.file content true)) : h.startable place = .ok () := by
  unfold startable
  rw [found]
  rfl

/-- What a name stands for where all programs are in one directory. -/
theorem Host.programFile_eq {h : Host} {cwd place : Path} {env : Table String} {name : String}
    (named : name ≠ "") (bare : '/' ∉ name.toList) (search : env.get? "PATH" = some "/")
    (joined : cwd / "/" / name = place) (starts : h.startable place = .ok ()) :
    h.programFile cwd env name = .ok place := by
  have split : Text.split ':' "/" = ["/"] := by cbv
  unfold programFile searchPath
  rw [if_neg named, if_neg bare, search]
  dsimp only
  rw [split, List.map_singleton, if_neg (by decide), joined, List.find?_singleton, starts]
  rfl

/-- What a command starts. -/
theorem Host.invocation_eq {h : Host} {c : Command} {dir cwd place file : Path} (plain : c.hasZero = false)
    (within : c.cwd.elim h.cwd h.absolute = dir) (here : Host.canonical h.files dir = .ok cwd)
    (directory : h.files.isDirectoryAt cwd = true)
    (found : h.programFile cwd (h.env.insertAll c.env) c.program = .ok place)
    (real : Host.canonical h.files place = .ok file) :
    h.invocation c = .ok ⟨file, c.program :: c.args, cwd, h.env.insertAll c.env⟩ := by
  have start : h.invocation c = (do
      let file ← Host.canonical h.files (← h.programFile cwd (h.env.insertAll c.env) c.program)
      pure ⟨file, c.program :: c.args, cwd, h.env.insertAll c.env⟩) := by
    unfold invocation
    cases home : c.cwd with
    | none | some =>
      rw [home] at within
      subst within
      dsimp only [Option.elim] at here
      simp only [plain, here, directory, bind, Except.bind, pure, Except.pure, Bool.not_true,
        Bool.false_eq_true, if_false]
  rw [start, found]
  dsimp only [bind, Except.bind]
  rw [real]
  rfl

theorem Occasion.Went.exited {m : Occasion} (went : m.Went) : m.Exited := by
  obtain ⟨h, c⟩ := m
  cases c with
  | run c mode => exact fun loud => Host.exits_of_execute (went loud)
  | _ => trivial

namespace Install
open Program (Logged)
open Files (Straight)

theorem moduleVersion_eq {id : String} {p : Package} (read : Package.ofId? id = some p) :
    Golang.moduleVersion p = p.version := by
  unfold Golang.moduleVersion
  split
  · next pin pinned => exact (Package.wellFormed_of_ofId? read).pinned pin pinned
  · rfl

/-- What is planned for a package that its ecosystem's own manager installs. -/
theorem plan_package {servers : Path} {e : RegistryEntry} {platform : Platform} {p : Package} {plan : Plan}
    (read : Package.ofId? e.source.id = some p) (managed : p.ecosystem ≠ .github)
    (planned : Install.plan servers e platform = .ok plan) :
    plan.method = .package p ∧ plan.source = p ∧
      Backend.ofMethod (.package p) (place servers e) = .ok plan.backend := by
  have method : e.method platform = .package p := by
    unfold RegistryEntry.method PackageOrigin.method
    rw [read]
    exact if_pos managed
  unfold Install.plan at planned
  rw [method] at planned
  dsimp only [InstallMethod.source?] at planned
  split at planned
  · next b chosen =>
      cases planned
      exact ⟨rfl, rfl, chosen⟩
  · cases planned

/-- Each language of an entry has the server, enabled. -/
def Mapped (installed : Manifest) (e : RegistryEntry) (version : String) (b : ServerBinary) : Prop :=
  ∀ language ∈ registeredLanguages e, ∃ server, installed.get? language = some server ∧
    server.package = e.name ∧ server.version = version ∧ server.binary = b ∧ server.enabled = true

/-- Where a pinned install that ends well has been: what it has read back, the look for its binary, the look
for a cancellation, and what it has done after that. -/
theorem exists_arrival {servers : Path} {configs configs' : ServerConfigs} {e : RegistryEntry}
    {platform : Platform} {p : Package} {b : ServerBinary} {log : List Occasion} {t t' : Files}
    {o o' : Operation} (read : Package.ofId? e.source.id = some p) (managed : p.ecosystem ≠ .github)
    (pinned : p.version ≠ latest) (plain : p.repository = none)
    (made : Logged log t ((run servers configs e platform).run.run o) (.ok (b, configs'), o') t') :
    ∃ backend primary before verifying there look registered last t₂,
      Backend.ofMethod (.package p) (place servers e) = .ok backend ∧
      log = before ++ (verifying ++ ⟨there, .kind (backend.binaryPath primary) true⟩ ::
        ⟨look, .cancelled⟩ :: (registered ++ last)) ∧
      (∀ m ∈ log, m.Exited) ∧ ReadBack (place servers e) p verifying ∧
      platform.expand e.executables.primary p.version = .ok primary ∧
      (there.answer (.kind (backend.binaryPath primary) true)).1.isOk = true ∧
      b = { ServerBinary.ofPath (backend.binaryPath primary) with
        args := e.executables.args, env := backend.binaryEnv } ∧
      Logged registered look.files (register configs e (.package p) p.version b).run (.ok configs') t₂ ∧
      (t' = t₂ ∨ ∃ answer, Logged last t₂ (removePath (asidePlace servers e)) answer t') := by
  cases planned : plan servers e platform with
  | error error =>
      unfold run at made
      rw [planned] at made
      cases made
  | ok plan =>
      obtain ⟨method, source, chosen⟩ := plan_package read managed planned
      have heard : Heard (IsPython plan.method) plan.method plan.backend :=
        heard_ofMethod (plan_cases planned).2
      obtain ⟨first, performed, look, registered, last, had, o₁, t₁, o₂, t₂, rfl, -, aside, performs,
        registers, silent, cleared⟩ := logged_run_ok planned heard.cleanup made
      have moved : Told (IsPython plan.method) first (.ok had) := (tells_setAside _ _).told aside
      have arrived : Told (IsPython plan.method) performed (.ok b) :=
        (tells_perform heard e _ _).told performs
      have entered := registers.deaf (deaf_register _ _ _ _)
      rw [method, source] at performs registers
      obtain ⟨prepared, installed, there, primary, o₃, t₃, o₄, rfl, _, installs, expanded, found, rfl⟩ :=
        logged_perform performs
      obtain ⟨ran, verifying, rfl, verified⟩ :=
        exists_readBack pinned plain (moduleVersion_eq read) chosen installs
      refine ⟨plan.backend, primary, first ++ (prepared ++ ran), verifying, there, look, registered, last,
        t₂, chosen, by simp, fun m inside => ?_, verified, expanded, found, rfl, registers, cleared⟩
      refine Occasion.Went.exited ?_
      rcases List.mem_append.mp inside with before | inside
      · exact moved.went rfl m before
      · rcases List.mem_append.mp inside with inside | after
        · exact arrived.went rfl m inside
        · rcases List.mem_cons.mp after with rfl | after
          · trivial
          · refine Occasion.went_of_deaf ?_
            exact (List.mem_append.mp after).elim (entered m) (silent m)

/-- A pinned install that ends well is really there. Every command that it ran has exited with 0; what its
package manager has recorded is the package in the version; the binary was there, and is there by its clean
path too unless a `..` in its own comes after a link; the install is shown as completed; and each language of
the entry has the binary, in memory and in the manifest, if nothing has come in the way to the manifest. -/
theorem pinned_install_arrives {i i' : Installer} {e : RegistryEntry} {p : Package} {b : ServerBinary}
    {log : List Occasion} {t t' : Files} (read : Package.ofId? e.source.id = some p)
    (managed : p.ecosystem ≠ .github) (pinned : p.version ≠ latest) (plain : p.repository = none)
    (made : Logged log t (i.install e) (.ok b, i') t') :
    ∃ backend primary before verifying there look after,
      Backend.ofMethod (.package p) (place i.servers e) = .ok backend ∧
      log = before ++ (verifying ++ ⟨there, .kind (backend.binaryPath primary) true⟩ ::
        ⟨look, .cancelled⟩ :: after) ∧
      (∀ m ∈ log, m.Exited) ∧ ReadBack (place i.servers e) p verifying ∧
      i.platform.expand e.executables.primary p.version = .ok primary ∧
      b.path = (backend.binaryPath primary).clean ∧
      (there.answer (.kind (backend.binaryPath primary) true)).1.isOk = true ∧
      (there.cwd.isAbsolute = true → Straight there.files there.cwd (backend.binaryPath primary) →
        (there.answer (.kind b.path true)).1.isOk = true) ∧
      (∃ o, i'.operation = some o ∧ o.phase = .completed ∧ o.progress = 100) ∧
      Mapped i'.configs.installed e p.version b ∧
      ∀ s : Site i.servers e.name i.configs.path, i.configs.format.Lawful →
        i.configs.installed.Ordered → s.Sound look.files → (∀ m ∈ after, m.host.cwd = s.cwd) →
        Spot.Stands i.configs.format (t'.get? s.manifestPlace) i'.configs.installed := by
  obtain ⟨ended, o, ran, shown, ends⟩ := logged_install (idle_of_install made) made
  rcases ends with ⟨error, _, failed, _⟩ | ⟨b', configs', rfl, same, rfl⟩
  · cases failed
  · cases same
    obtain ⟨backend, primary, before, verifying, there, look, registered, last, t₂, chosen, cut, exited,
      verified, expanded, found, rfl, registers, cleared⟩ := exists_arrival read managed pinned plain ran
    refine ⟨backend, primary, before, verifying, there, look, registered ++ last, chosen, cut, exited,
      verified, expanded, rfl, found, fun absolute straight => ?_, ⟨_, shown, rfl, rfl⟩, ?_, ?_⟩
    · cases kind : (there.answer (.kind (backend.binaryPath primary) true)).1 with
      | error error =>
          rw [kind] at found
          cases found
      | ok kind' =>
          change (there.answer (.kind (backend.binaryPath primary).clean true)).1.isOk = true
          rw [Files.kind_clean absolute straight kind]
          rfl
    · obtain ⟨now, published, date, text, -, entries, -, -⟩ := logged_register registers
      intro language named
      rw [entries]
      exact ⟨_, get?_enrolled i.configs.installed _ named, rfl, rfl, rfl, rfl⟩
    · intro s lawful ordered sound here
      exact Site.stands_of_register lawful ordered (sorted_binaryEnv chosen) sound here registers cleared

/-! A gem of which the binary is named by a path through a link. -/

namespace Linked
open Files

/-- The binary is beside the directory that `/l` links to. -/
def entry : RegistryEntry :=
  { Sample.entry with source := ⟨"pkg:gem/g@1", none, none⟩, executables := ⟨"/l/../b", [], []⟩ }

def gem : Package where
  id := "pkg:gem/g@1"
  ecosystem := .gem
  name := "g"
  version := "1"
  repository := none
  pin := none
  options := []

def installer : Installer := .ofConfigs ⟨"/"⟩ ⟨Manifest.json, ⟨"/i.json"⟩, [], []⟩ ⟨"linux", "x86_64"⟩

theorem read : Package.ofId? entry.source.id = some gem := by cbv

theorem planned : plan installer.servers entry installer.platform =
    .ok ⟨.package gem, gem, Gem.backend ⟨"/n"⟩⟩ := by
  have method : entry.method installer.platform = .package gem := by
    unfold RegistryEntry.method PackageOrigin.method
    rw [read]
    rfl
  unfold plan
  rw [method]
  rfl

/-- What is there from the start, and later the manifest, its draft and the install. -/
def rooted (manifest draft install : List (String × Files)) : Files := .dir
  ([("d", .dir [("b", .file [] true), ("e", .dir [])]), ("gem", .file [] true)] ++ manifest ++ draft ++
    [("l", .link ⟨"/d/e"⟩)] ++ install)

def atFirst : Files := rooted [] [] []

def prepared : Files := rooted [] [] [("n", .dir [("bin", .dir [])])]

def recorded : Files :=
  .dir [("bin", .dir []), ("specifications", .dir [("g-1.gemspec", .file [] false)])]

def produced : Files := rooted [] [] [("n", recorded)]

def record : Path := ⟨"/n/specifications/g-1.gemspec"⟩

/-- A machine where the manager of gems tells its version, and of a gem writes just what it is recorded
by. -/
def host (t : Files) : Host :=
  { Sample.host t with
    env := [("PATH", "/")]
    programs := fun inv _ =>
      if inv.argv.contains "--version" then ⟨[.out (Utf8.ofString "3.5\n")], .exit 0⟩
      else ⟨[.write record []], .exit 0⟩ }

section manager
variable (install : List (String × Files))

theorem locate_gem : (rooted [] [] install).locate true ⟨"/gem"⟩ = .ok ["gem"] := by
  have parts : Path.components ⟨"/gem"⟩ = [.root, .name "gem"] := by cbv
  rw [locate_eq (by decide), parts]
  cbv

theorem canonical_root : Host.canonical (rooted [] [] install) ⟨"/"⟩ = .ok ⟨"/"⟩ := by
  rw [Host.canonical, locate_root]
  cbv

theorem canonical_gem : Host.canonical (rooted [] [] install) ⟨"/gem"⟩ = .ok ⟨"/gem"⟩ := by
  rw [Host.canonical, locate_gem]
  cbv

theorem isDirectoryAt_root : (rooted [] [] install).isDirectoryAt ⟨"/"⟩ = true :=
  find_dir_of_locate (locate_root _ true) rfl

theorem startable_gem : (host (rooted [] [] install)).startable ⟨"/gem"⟩ = .ok () := by
  have found : (rooted [] [] install).find ⟨"/gem"⟩ = .ok (.file [] true) := by
    rw [find, locate_gem]
    rfl
  exact Host.startable_of_find (h := host (rooted [] [] install)) found

theorem programFile_name {env : Table String} (search : env.get? "PATH" = some "/") :
    (host (rooted [] [] install)).programFile ⟨"/"⟩ env "gem" = .ok ⟨"/gem"⟩ :=
  Host.programFile_eq (by decide) (by decide) search (by cbv) (startable_gem install)

theorem programFile_place (env : Table String) :
    (host (rooted [] [] install)).programFile ⟨"/"⟩ env "/gem" = .ok ⟨"/gem"⟩ := by
  have joined : (⟨"/"⟩ : Path) / "/gem" = ⟨"/gem"⟩ := by cbv
  unfold Host.programFile
  rw [if_neg (by decide), if_pos (by decide), joined, startable_gem]
  rfl

theorem invocation_gem {c : Command} (plain : c.hasZero = false) (homeless : c.cwd = none)
    (found : (host (rooted [] [] install)).programFile ⟨"/"⟩ (Table.insertAll [("PATH", "/")] c.env)
      c.program = .ok ⟨"/gem"⟩) :
    (host (rooted [] [] install)).invocation c =
      .ok ⟨⟨"/gem"⟩, c.program :: c.args, ⟨"/"⟩, Table.insertAll [("PATH", "/")] c.env⟩ :=
  Host.invocation_eq plain (by rw [homeless]; rfl) (canonical_root install) (isDirectoryAt_root install) found
    (canonical_gem install)

end manager

def version : Command := .ofArgs "/gem" ["--version"]

theorem execute_version : ((host atFirst).execute version .steady).1 = ⟨["3.5"], .ok ()⟩ ∧
    ((host atFirst).execute version .steady).2.files = atFirst := by
  have started := invocation_gem [] (c := version) (by decide) rfl (programFile_place [] _)
  unfold Host.execute
  rw [show (host atFirst).invocation version = _ from started]
  constructor <;> cbv

def installing : Command :=
  (Command.ofArgs "gem" ["install", "--no-document", "--install-dir", "/n", "--bindir", "/n/bin", "g", "-v",
    "1"]).addEnv "GEM_HOME" "/n"

theorem components_n : Path.components ⟨"/n"⟩ = [.root, .name "n"] := by cbv

theorem makeDirs_bin : atFirst.makeDirs ⟨"/n/bin"⟩ = .ok prepared := by
  have written : check ⟨"/n/bin"⟩ = .ok () := by decide
  have parts : Path.components ⟨"/n/bin"⟩ = [.root, .name "n", .name "bin"] := by cbv
  have place (follow : Bool) : atFirst.locate follow ⟨"/n"⟩ = .ok ["n"] := by
    rw [locate_eq (by decide), components_n]
    cbv
  have bin (follow : Bool) :
      (atFirst.put (some empty) ["n"]).locate follow ⟨"/n/bin"⟩ = .ok ["n", "bin"] := by
    rw [locate_eq written, parts]
    cbv
  rw [makeDirs, if_pos (by decide), written, parts]
  refine (makeDirsFrom_there (p := ⟨"/"⟩) (by cbv) (locate_root _) rfl).trans ?_
  refine (makeDirsFrom_new (p := ⟨"/n"⟩) (by cbv) place rfl).trans ?_
  exact makeDirsFrom_new (p := ⟨"/n/bin"⟩) (by cbv) bin rfl

theorem makeDirs_specifications : prepared.makeDirs ⟨"/n/specifications"⟩ =
    .ok (rooted [] [] [("n", .dir [("bin", .dir []), ("specifications", .dir [])])]) := by
  have written : check ⟨"/n/specifications"⟩ = .ok () := by decide
  have parts : Path.components ⟨"/n/specifications"⟩ = [.root, .name "n", .name "specifications"] := by
    cbv
  have place (follow : Bool) : prepared.locate follow ⟨"/n"⟩ = .ok ["n"] := by
    rw [locate_eq (by decide), components_n]
    cbv
  have specifications (follow : Bool) :
      prepared.locate follow ⟨"/n/specifications"⟩ = .ok ["n", "specifications"] := by
    rw [locate_eq written, parts]
    cbv
  rw [makeDirs, if_pos (by decide), written, parts]
  refine (makeDirsFrom_there (p := ⟨"/"⟩) (by cbv) (locate_root _) rfl).trans ?_
  refine (makeDirsFrom_there (p := ⟨"/n"⟩) (by cbv) place rfl).trans ?_
  exact makeDirsFrom_new (p := ⟨"/n/specifications"⟩) (by cbv) specifications rfl

theorem components_record :
    record.components = [.root, .name "n", .name "specifications", .name "g-1.gemspec"] := by cbv

theorem write_record : Host.touch prepared ⟨"/"⟩ (.write record []) = produced := by
  have place : (⟨"/"⟩ : Path) / record.text = record := by cbv
  have parent : record.parent? = some ⟨"/n/specifications"⟩ := by cbv
  simp only [Host.touch, place, parent, makeDirs_specifications, Host.orSame, write]
  rw [locate_eq (by decide), components_record]
  cbv

theorem execute_installing : ((host prepared).execute installing .reported).1 = ⟨[], .ok ()⟩ ∧
    ((host prepared).execute installing .reported).2.files = produced := by
  have started := invocation_gem [("n", .dir [("bin", .dir [])])] (c := installing) (by decide) rfl
    (programFile_name _ (by decide))
  have acts : (host prepared).programs ⟨⟨"/gem"⟩, installing.program :: installing.args, ⟨"/"⟩,
      Table.insertAll [("PATH", "/")] installing.env⟩ prepared = ⟨[.write record []], .exit 0⟩ := rfl
  have calm : ¬ ((host prepared).isCancelled = true ∧ RunMode.reported ≠ .steady) := nofun
  unfold Host.execute
  rw [if_neg calm, show (host prepared).invocation installing = _ from started]
  dsimp only
  rw [show (host prepared).files = prepared from rfl, acts]
  simp only [Host.play, Host.act, write_record]
  constructor <;> rfl

theorem components_linked : Path.components ⟨"/l/../b"⟩ = [.root, .name "l", .parent, .name "b"] := by cbv

theorem kind_linked : Host.kind produced ⟨"/l/../b"⟩ true = .ok .file := by
  rw [Host.kind, locate_eq (by decide), components_linked]
  cbv

theorem kind_clean : Host.kind produced ⟨"/b"⟩ true = .error .notFound := by
  have parts : Path.components ⟨"/b"⟩ = [.root, .name "b"] := by cbv
  rw [Host.kind, locate_eq (by decide), parts]
  cbv

def binary : ServerBinary := ⟨⟨"/b"⟩, [], [("GEM_HOME", "/n"), ("GEM_PATH", "/n")]⟩

def configs : ServerConfigs :=
  { installer.configs with installed := [("n", ⟨"n", "1", "", binary, "package", true⟩)] }

def text : String := (Manifest.toJson configs.installed).pretty 0

def drafted (content : Octets) : Files :=
  rooted [] [("i.json.tmp", .file content false)] [("n", recorded)]

def registered (content : Octets) : Files :=
  rooted [("i.json", .file content false)] [] [("n", recorded)]

theorem makeDirs_root : produced.makeDirs ⟨"/"⟩ = .ok produced := by
  have written : check ⟨"/"⟩ = .ok () := by decide
  have parts : Path.components ⟨"/"⟩ = [.root] := by cbv
  rw [makeDirs, if_pos (by decide), written, parts]
  exact makeDirsFrom_there (p := ⟨"/"⟩) (by cbv) (locate_root _) rfl

theorem components_draft : Path.components ⟨"/i.json.tmp"⟩ = [.root, .name "i.json.tmp"] := by cbv

theorem write_draft (content : Octets) :
    produced.write ⟨"/i.json.tmp"⟩ content = .ok (drafted content) := by
  rw [write, locate_eq (by decide), components_draft]
  cbv

theorem rename_draft (content : Octets) :
    (drafted content).rename ⟨"/i.json.tmp"⟩ ⟨"/i.json"⟩ = .ok (registered content) := by
  have parts : Path.components ⟨"/i.json"⟩ = [.root, .name "i.json"] := by cbv
  rw [rename, locate_eq (by decide), locate_eq (by decide), components_draft, parts]
  cbv

theorem answer_kind {t : Files} {p : Path} {seen : Except IoError FileKind} (absolute : p.isAbsolute = true)
    (kind : Host.kind t p true = seen) : (host t).answer (.kind p true) = (seen, host t) := by
  have written : p.text ≠ "" := by
    rintro empty
    rw [show p = ⟨""⟩ from congrArg Path.mk empty] at absolute
    cases absolute
  change (Host.kind t ((host t).absolute p) true, host t) = _
  rw [absolute_of_ne written, Path.join_absolute absolute, kind]

/-! The calls of the install, in order. -/

def looking : List Occasion :=
  [⟨host atFirst, .kind ⟨"/.n.previous"⟩ true⟩, ⟨host atFirst, .kind ⟨"/n"⟩ true⟩]

def detecting : List Occasion := [⟨host atFirst, .findProgram "gem"⟩, ⟨host atFirst, .run version .steady⟩]

def preparing : List Occasion := detecting ++ [⟨host atFirst, .makeDirs ⟨"/n/bin"⟩⟩]

def bringing : List Occasion :=
  [⟨host prepared, .run installing .reported⟩, ⟨host produced, .kind record true⟩]

def seeing : Occasion := ⟨host produced, .kind ⟨"/l/../b"⟩ true⟩

def publishing : List Occasion :=
  [⟨host produced, .makeDirs ⟨"/"⟩⟩, ⟨host produced, .writeFile ⟨"/i.json.tmp"⟩ (Utf8.ofString text)⟩,
    ⟨host (drafted (Utf8.ofString text)), .rename ⟨"/i.json.tmp"⟩ ⟨"/i.json"⟩⟩]

def registering : List Occasion := ⟨host produced, .now⟩ :: publishing

def performing : List Occasion := preparing ++ (bringing ++ [seeing])

def attempting : List Occasion := performing ++ ⟨host produced, .cancelled⟩ :: registering

def moments : List Occasion := looking ++ attempting

theorem logged_looking (o : Operation) :
    Logged looking atFirst ((setAside ⟨"/n"⟩ ⟨"/.n.previous"⟩).run.run o) (.ok false, o) atFirst := by
  have aside : Host.kind atFirst ⟨"/.n.previous"⟩ true = .error .notFound := by
    have parts : Path.components ⟨"/.n.previous"⟩ = [.root, .name ".n.previous"] := by cbv
    rw [Host.kind, locate_eq (by decide), parts]
    cbv
  have place : Host.kind atFirst ⟨"/n"⟩ true = .error .notFound := by
    rw [Host.kind, locate_eq (by decide), components_n]
    cbv
  refine .call rfl ?_
  rw [answer_kind (by decide) aside]
  refine .call rfl ?_
  rw [answer_kind (by decide) place]
  exact .done

theorem digits : Text.isDecimalDigit '3' = true ∧ Text.isDecimalDigit '.' = false ∧
    Text.isDecimalDigit '5' = true := by
  unfold Text.isDecimalDigit Text.digitZeros Text.CharSet.ofRows
  simp only [List.flatMap_cons, List.flatMap_nil]
  -- Evaluation is quick on the characters of the table, and slow on its texts.
  repeat rw [String.toList_ofList]
  decide +kernel

theorem fits_version :
    VersionPart.matches? [.number, .text ".", .number] (Text.trimmed "3.5".toList) = true := by
  obtain ⟨three, dot, five⟩ := digits
  have solid : Text.trimmed ['3', '.', '5'] = ['3', '.', '5'] :=
    Text.trimmed_of_ends (by rintro c ⟨⟩; decide) (by rintro c ⟨⟩; decide)
  have minor : VersionPart.matches? [.number] ['5'] = true := by
    rw [VersionPart.matches?, List.takeWhile_cons_of_pos five]
    rfl
  have behind : Text.afterStart? ".".toList ['.', '5'] = some ['5'] := by
    rw [String.toList_ofList]
    rfl
  rw [String.toList_ofList, solid, VersionPart.matches?, List.takeWhile_cons_of_pos three,
    List.dropWhile_cons_of_pos three, List.dropWhile_cons_of_neg (by simp [dot]), VersionPart.matches?,
    behind]
  simpa using minor

theorem logged_detecting : Logged detecting atFirst Gem.detected true atFirst := by
  have found : (host atFirst).answer (.findProgram "gem") = (some ⟨"/gem"⟩, host atFirst) := by
    refine Prod.ext ?_ rfl
    change ((host atFirst).programFile ⟨"/"⟩ [("PATH", "/")] "gem").toOption = _
    rw [show (host atFirst).programFile _ _ _ = _ from programFile_name [] (by decide)]
    rfl
  have told : (host atFirst).answer (.run version .steady) =
      (⟨["3.5"], .ok ()⟩, ((host atFirst).execute version .steady).2) :=
    Prod.ext execute_version.1 rfl
  have output : String.intercalate "\n" (["3.5"].take captureLimit) = "3.5" := by
    rw [List.take_of_length_le (by decide)]
    rfl
  refine .call rfl ?_
  rw [found]
  refine .call rfl ?_
  rw [told, execute_version.2]
  have answered : ∀ text : String, VersionPart.matches? [.number, .text ".", .number]
      (Text.trimmed text.toList) = true → Logged [] atFirst (Program.done (VersionPart.matches?
        [.number, .text ".", .number] (Text.trimmed text.toList))) true atFirst := by
    intro text fits
    rw [fits]
    exact .done
  refine answered _ ?_
  rw [output]
  exact fits_version

theorem logged_preparing (o : Operation) : Logged preparing atFirst
    ((Gem.backend ⟨"/n"⟩).prepare.run.run o) (.ok (), o) prepared := by
  have made : (host atFirst).answer (.makeDirs ⟨"/n/bin"⟩) =
      (.ok (), { host atFirst with operations := 1, files := prepared }) :=
    Host.makeDirs_made rfl makeDirs_bin
  have there : Logged detecting atFirst ((Backend.requireTool "gem" Gem.detected).run.run o) (.ok (), o)
      atFirst := by
    unfold Backend.requireTool
    rw [← List.append_nil detecting]
    exact Installing.logged_seq (Installing.logged_of_lift logged_detecting) .done
  refine Installing.logged_seq there (.call rfl ?_)
  rw [made]
  exact .done

theorem logged_bringing (o : Operation) : Logged bringing prepared
    ((Gem.install ⟨"/n"⟩ (.package gem)).run.run o) (.ok (), o) produced := by
  have ran : (host prepared).answer (.run installing .reported) =
      (⟨[], .ok ()⟩, ((host prepared).execute installing .reported).2) :=
    Prod.ext execute_installing.1 rfl
  have written : Host.kind produced record true = .ok .file := by
    rw [Host.kind, locate_eq (by decide), components_record]
    cbv
  refine .call rfl ?_
  rw [ran]
  refine .call execute_installing.2.symm ?_
  rw [answer_kind (by decide) written]
  exact .done

/-- What is shown once the binary is looked for. -/
def shown (o : Operation) : Operation := ((o.enter .preparing 10).enter .installing 30).enter .verifying 95

theorem logged_performing (o : Operation) : Logged performing atFirst
    ((perform (Gem.backend ⟨"/n"⟩) entry (.package gem) gem.version installer.platform).run.run o)
    (.ok binary, shown o) produced := by
  have expanded : installer.platform.expand entry.executables.primary gem.version = .ok "/l/../b" := by cbv
  have path : (Gem.backend ⟨"/n"⟩).binaryPath "/l/../b" = ⟨"/l/../b"⟩ := by cbv
  have clean : ServerBinary.ofPath ⟨"/l/../b"⟩ = ⟨⟨"/b"⟩, [], []⟩ := by
    unfold ServerBinary.ofPath Path.clean
    rw [components_linked]
    cbv
  unfold perform
  rw [expanded]
  dsimp only
  rw [path, clean]
  refine Installing.logged_update (Installing.logged_seq (logged_preparing _) ?_)
  refine Installing.logged_update (Installing.logged_seq (logged_bringing _) ?_)
  refine Installing.logged_update (.call rfl ?_)
  rw [answer_kind (by decide) kind_linked]
  exact .done

theorem logged_publishing :
    Logged publishing produced (Manifest.publish ⟨"/i.json"⟩ text).run (.ok ())
      (registered (Utf8.ofString text)) := by
  have parent : Path.parent? ⟨"/i.json"⟩ = some ⟨"/"⟩ := by cbv
  have draft : Manifest.draftPath ⟨"/i.json"⟩ = ⟨"/i.json.tmp"⟩ := rfl
  have made : (host produced).answer (.makeDirs ⟨"/"⟩) =
      (.ok (), { host produced with operations := 1, files := produced }) :=
    Host.makeDirs_made rfl makeDirs_root
  have written : (host produced).answer (.writeFile ⟨"/i.json.tmp"⟩ (Utf8.ofString text)) =
      (.ok (), { host produced with operations := 1, files := drafted (Utf8.ofString text) }) :=
    Host.write_made rfl (write_draft _)
  have moved : (host (drafted (Utf8.ofString text))).answer (.rename ⟨"/i.json.tmp"⟩ ⟨"/i.json"⟩) =
      (.ok (), { host (drafted (Utf8.ofString text)) with
        operations := 1
        files := registered (Utf8.ofString text) }) :=
    Host.rename_made rfl (rename_draft _)
  unfold Manifest.publish
  rw [parent, draft]
  refine .call rfl ?_
  rw [made]
  refine .call rfl ?_
  rw [written]
  refine .call rfl ?_
  rw [moved]
  exact .done

theorem logged_registering : Logged registering produced
    (register installer.configs entry (.package gem) gem.version binary).run (.ok configs)
    (registered (Utf8.ofString text)) := by
  refine .call rfl ?_
  rw [← List.append_nil publishing]
  exact logged_publishing.bind .done

theorem logged_attempting (o : Operation) : Logged attempting atFirst
    ((attempt installer.configs entry ⟨.package gem, gem, Gem.backend ⟨"/n"⟩⟩ installer.platform).run.run o)
    (.ok (binary, configs), shown o) (registered (Utf8.ofString text)) := by
  refine Installing.logged_seq (logged_performing o) (.call rfl ?_)
  change Logged registering produced ((Installing.lift (register installer.configs entry (.package gem)
    gem.version binary).run >>= fun r => Installing.ofExcept r >>= fun c => pure (binary, c)).run.run _) _ _
  rw [← List.append_nil registering]
  exact Installing.logged_seq (Installing.logged_of_lift logged_registering) .done

theorem logged_moments : Logged moments atFirst (installer.install entry)
    (.ok binary, { installer with
      configs := configs
      operation := some ((shown (.start "n")).finish (.ok (binary, configs))) })
    (registered (Utf8.ofString text)) := by
  have tried : Logged attempting atFirst ((tryCatch (Except.ok <$> attempt installer.configs entry
      ⟨.package gem, gem, Gem.backend ⟨"/n"⟩⟩ installer.platform)
      fun error => pure (.error error)).run.run (.start "n"))
      (.ok (.ok (binary, configs)), shown (.start "n")) (registered (Utf8.ofString text)) := by
    rw [Installing.run_tryCatch, Installing.run_map, ← List.append_nil attempting]
    refine Logged.bind (a := (.ok (.ok (binary, configs)), shown (.start "n"))) ?_ .done
    rw [← List.append_nil attempting]
    exact (logged_attempting _).bind .done
  have ran : Logged moments atFirst
      ((run installer.servers installer.configs entry installer.platform).run.run (.start "n")) (.ok (binary, configs), shown (.start "n")) (registered (Utf8.ofString text)) := by
    unfold run
    rw [planned]
    refine Installing.logged_seq (logged_looking _) ?_
    rw [← List.append_nil attempting]
    exact Installing.logged_seq tried .done
  unfold Installer.install Installer.reserve
  rw [← List.append_nil moments]
  exact ran.bind .done

end Linked

/-- Where a link comes before a `..`, the binary has been seen, and the path that is registered for it is
not there. -/
theorem linked_install_arrives_elsewhere :
    ∃ i' t', Logged Linked.moments Linked.atFirst (Linked.installer.install Linked.entry)
        (.ok Linked.binary, i') t' ∧
      (∀ m ∈ Linked.moments, m.Exited) ∧
      (∃ o, i'.operation = some o ∧ o.phase = .completed ∧ o.progress = 100) ∧
      Mapped i'.configs.installed Linked.entry "1" Linked.binary ∧
      Linked.seeing ∈ Linked.moments ∧
      (Linked.seeing.host.answer (.kind ⟨"/l/../b"⟩ true)).1 = .ok .file ∧
      (Linked.seeing.host.answer (.kind Linked.binary.path true)).1 = .error .notFound := by
  have made := Linked.logged_moments
  obtain ⟨_, _, _, _, _, _, _, _, _, exited, _, _, _, _, _, completed, mapped, _⟩ :=
    pinned_install_arrives Linked.read (by decide) (by decide) rfl made
  refine ⟨_, _, made, exited, completed, mapped, ?_, ?_, ?_⟩
  · simp [Linked.moments, Linked.attempting, Linked.performing]
  · exact congrArg Prod.fst (Linked.answer_kind (by decide) Linked.kind_linked)
  · exact congrArg Prod.fst (Linked.answer_kind (by decide) Linked.kind_clean)

end Install

end LanguageHost
