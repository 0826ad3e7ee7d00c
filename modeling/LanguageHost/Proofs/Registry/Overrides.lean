import LanguageHost.Proofs.Registry.History

/-! What the user sets for a language stands above what is installed for it, whatever is installed, enabled
and disabled while an instance lives. -/
namespace LanguageHost

namespace UserConfig
open Table (Sorted)

/-- The variables that are set for each language are in order. -/
def Ordered (u : UserConfig) : Prop := ∀ entry ∈ u.servers, Sorted entry.2.env

theorem sorted_of_overrideOfJson? {j : Json} {o : ServerOverride} (read : overrideOfJson? j = some o) :
    Sorted o.env := by
  simp only [overrideOfJson?, bind, Option.bind_eq_some_iff] at read
  obtain ⟨r, -, enabled, -, command, -, args, -, env, defaulted, options, -, settings, -, made⟩ := read
  cases made
  change Sorted env
  unfold Json.Record.defaulted at defaulted
  split at defaulted
  · cases defaulted
    exact List.Pairwise.nil
  · exact Manifest.sorted_of_table? defaulted

theorem ordered_of_ofJson? {j : Json} {u : UserConfig} (read : ofJson? j = some u) : u.Ordered := by
  simp only [ofJson?, bind, Option.bind_eq_some_iff] at read
  obtain ⟨r, -, settings, -, servers, overrides, preferred, -, made⟩ := read
  cases made
  intro entry there
  unfold Json.Record.defaulted at overrides
  split at overrides
  · cases overrides
    cases there
  · obtain ⟨j, one⟩ := Manifest.exists_of_table? overrides there
    exact sorted_of_overrideOfJson? one

/-- A configuration that has been read is in order. -/
theorem ordered_of_ofToml? {text : String} {u : UserConfig} (read : ofToml? text = some u) : u.Ordered := by
  obtain ⟨j, -, meant⟩ := Option.bind_eq_some_iff.mp read
  exact ordered_of_ofJson? meant

end UserConfig

namespace Change
open Table (get?)

/-- What a call makes of the server that is installed for one language. -/
def settled (language : String) (server : Option InstalledServer) : Change → Option InstalledServer
  | .register named new => if named = language then some new else server
  | .registerAll entries => (entries.reverse.lookup language).or server
  | .setEnabled named enabled =>
    if named = language then server.map fun s => { s with enabled := enabled } else server

theorem get?_applied (language : String) (m : Manifest) (change : Change) :
    get? language ((change.applied? m).getD m) = change.settled language (get? language m) := by
  cases change with
  | register named new =>
      change get? language (Table.insert named new m) = if named = language then _ else _
      rw [Table.get?_insert]
      simp only [eq_comm]
  | registerAll entries => exact Table.get?_insertAll language entries m
  | setEnabled named enabled =>
      cases found : get? named m with
      | none =>
          simp only [applied?, settled, found, Option.map_none, Option.getD_none]
          split
          · next same => rw [← same, found, Option.map_none]
          · rfl
      | some server =>
          simp only [applied?, settled, found, Option.map_some, Option.getD_some, Table.get?_insert]
          by_cases same : named = language
          · subst same
            simp [found]
          · simp [same, Ne.symm same]

theorem settled_of_notMem {language : String} {change : Change} (other : language ∉ change.languages)
    (server : Option InstalledServer) : change.settled language server = server := by
  cases change with
  | register named new => exact if_neg (by simpa [languages, eq_comm] using other)
  | registerAll entries =>
      change (entries.reverse.lookup language).or server = server
      rw [Table.lookup_reverse_of_notMem other, Option.none_or]
  | setEnabled named enabled => exact if_neg (by simpa [languages, eq_comm] using other)

end Change

/-- What is launched for a language is what the user has set for it, over what is installed for it. -/
structure LaunchConfig.Layered (user : Option ServerOverride) (installed : Option InstalledServer)
    (l : LaunchConfig) : Prop where
  command : ∀ p, user.bind (·.command) = some p → l.binary.path = p.clean
  args : ∀ args, user.bind (·.args) = some args → l.binary.args = args
  env : ∀ key value, (user.bind fun o => o.env.get? key) = some value → l.binary.env.get? key = some value
  enabled : ∀ enabled, user.bind (·.enabled) = some enabled → l.enabled = enabled
  /-- with a command of the user there is nothing but what the user has set -/
  own : ∀ p, user.bind (·.command) = some p →
    (user.bind (·.args) = none → l.binary.args = []) ∧
    ∀ key, (user.bind fun o => o.env.get? key) = none → l.binary.env.get? key = none
  /-- without one the rest is as installed -/
  base : user.bind (·.command) = none → ∃ server, installed = some server ∧
    l.binary.path = server.binary.path ∧
    (user.bind (·.args) = none → l.binary.args = server.binary.args) ∧
    ∀ key, (user.bind fun o => o.env.get? key) = none →
      l.binary.env.get? key = server.binary.env.get? key
  flag : user.bind (·.enabled) = none → l.enabled = (installed.map (·.enabled)).getD true
  initOptions : l.initOptions = user.bind (·.initOptions)
  settings : l.settings = user.bind (·.settings)

namespace LaunchConfig

/-- The binary that is launched, before the arguments and variables that the user sets. -/
def base? (user : Option ServerOverride) (installed : Option InstalledServer) : Option ServerBinary :=
  ((user.bind (·.command)).map ServerBinary.ofPath).or (installed.map (·.binary))

def launched (user : Option ServerOverride) (installed : Option InstalledServer) (b : ServerBinary) :
    LaunchConfig where
  binary := { b with
    args := (user.bind (·.args)).getD b.args
    env := b.env.insertAll ((user.map (·.env)).getD []) }
  enabled := (user.bind (·.enabled)).getD ((installed.map (·.enabled)).getD true)
  initOptions := user.bind (·.initOptions)
  settings := user.bind (·.settings)

variable {user : Option ServerOverride} {installed : Option InstalledServer} {b : ServerBinary}

theorem get?_env_launched (ordered : ∀ o, user = some o → Table.Sorted o.env) (key : String) :
    (launched user installed b).binary.env.get? key =
      (user.bind fun o => o.env.get? key).or (b.env.get? key) := by
  cases user with
  | none => rfl
  | some o => exact (ordered o rfl).get?_insertAll key b.env

theorem layered_launched (ordered : ∀ o, user = some o → Table.Sorted o.env)
    (base : base? user installed = some b) : (launched user installed b).Layered user installed where
  command p own := by
    rw [base?, own] at base
    cases base
    rfl
  args args own := by simp [launched, own]
  env key value own := by rw [get?_env_launched ordered, own, Option.some_or]
  enabled enabled own := by simp [launched, own]
  own p own := by
    rw [base?, own] at base
    cases base
    exact ⟨fun unset => by simp [launched, unset, ServerBinary.ofPath],
      fun key unset => by rw [get?_env_launched ordered, unset]; rfl⟩
  base unset := by
    rw [base?, unset, Option.map_none, Option.none_or] at base
    obtain ⟨server, rfl, rfl⟩ := Option.map_eq_some_iff.mp base
    exact ⟨server, rfl, rfl, fun unset => by simp [launched, unset],
      fun key unset => by rw [get?_env_launched ordered, unset, Option.none_or]⟩
  flag unset := by simp [launched, unset]
  initOptions := rfl
  settings := rfl

end LaunchConfig

namespace ServerConfigs
open Program (Runs Fallible)
open LaunchConfig (base? launched)

variable {c c' : ServerConfigs} {language : String}

theorem get?_eq (c : ServerConfigs) (language : String) : c.get? language =
    (base? (c.overrides.get? language) (c.installed.get? language)).map
      (launched (c.overrides.get? language) (c.installed.get? language)) := by
  unfold get? base?
  cases own : (c.overrides.get? language).bind (·.command) with
  | some command =>
      simp only [own]
      rfl
  | none =>
      cases c.installed.get? language with
      | none =>
          simp only [own]
          rfl
      | some server =>
          simp only [own]
          rfl

theorem get?_eq_none_iff : c.get? language = none ↔
    (c.overrides.get? language).bind (·.command) = none ∧ c.installed.get? language = none := by
  rw [get?_eq, Option.map_eq_none_iff, base?, Option.or_eq_none_iff, Option.map_eq_none_iff,
    Option.map_eq_none_iff]

/-- Beside a command that the user sets an installed binary does not count. -/
theorem binary_of_command {command : Path}
    (own : (c.overrides.get? language).bind (·.command) = some command) (m : Manifest) :
    (({ c with installed := m } : ServerConfigs).get? language).map (·.binary) =
      (c.get? language).map (·.binary) := by
  simp only [get?_eq, base?, own]
  rfl

/-! Calls on an instance, one after the other. -/

/-- Any machine may answer. -/
def anyMachine : Fairness := fun _ _ _ => True

/-- An instance after the calls on it that have not failed, each on any machine and with any files. A call
that fails leaves the instance. -/
inductive After (c₀ : ServerConfigs) : List Change → ServerConfigs → Prop
  | begun : After c₀ [] c₀
  | done {changes : List Change} {change : Change} {c c' : ServerConfigs} {t t' : Files} :
      After c₀ changes c → Runs anyMachine t (change.perform c).run (some (.ok c')) t' →
      After c₀ (changes ++ [change]) c'
  | failed {changes : List Change} {change : Change} {c : ServerConfigs} {e : Error} {t t' : Files} :
      After c₀ changes c → Runs anyMachine t (change.perform c).run (some (.error e)) t' →
      After c₀ changes c

theorem adopted {m : Manifest} {t t' : Files}
    (run : Runs anyMachine t (c.adopt m).run (some (.ok c')) t') : c' = { c with installed := m } := by
  obtain ⟨none, -⟩ | ⟨saved, t₁, -, last⟩ := Program.runs_bind run
  · cases none
  · cases saved with
    | error e => cases last
    | ok u =>
        cases last
        rfl

theorem performed {change : Change} {t t' : Files}
    (run : Runs anyMachine t (change.perform c).run (some (.ok c')) t') :
    c' = { c with installed := (change.applied? c.installed).getD c.installed } := by
  rw [Change.perform_eq] at run
  cases applied : change.applied? c.installed with
  | none =>
      rw [applied] at run
      cases run
      rfl
  | some m =>
      rw [applied] at run
      exact adopted run

theorem received_overrides {format : Manifest.Format} {path : Path} {user : UserConfig}
    {r : Except IoError Octets} (got : Install.Spot.received format path user r = .ok c) :
    c.overrides = user.servers := by
  unfold Install.Spot.received at got
  split at got
  · cases got
  · split at got
    · cases got
    · cases got
      rfl

theorem loaded_overrides {format : Manifest.Format} {path : Path} {user : UserConfig} {t t' : Files}
    (run : Runs anyMachine t (loadAs format path user).run (some (.ok c)) t') :
    c.overrides = user.servers := by
  rw [Install.Spot.loadAs_eq] at run
  cases run with
  | call _ _ on =>
      beta_reduce at on
      split at on
      · cases on with
        | @call _ _ h _ _ _ _ _ _ on =>
            beta_reduce at on
            generalize got : Install.Spot.received format path user (h.answer (.readFile path)).1 = r at on
            cases on with
            | done => exact received_overrides got
      · cases on with
        | done => rfl

variable {c₀ : ServerConfigs} {changes more : List Change}

theorem After.overrides (reached : c₀.After changes c) : c.overrides = c₀.overrides := by
  induction reached with
  | begun => rfl
  | done _ run ih =>
      rw [performed run]
      exact ih
  | failed _ _ ih => exact ih

/-- What is installed is what the calls have made of it, one after the other. -/
theorem After.installed (reached : c₀.After changes c) (language : String) :
    c.installed.get? language = changes.foldl (Change.settled language) (c₀.installed.get? language) := by
  induction reached with
  | begun => rfl
  | @done changes change c c' t t' _ run ih =>
      rw [performed run, List.foldl_append, ← ih]
      exact Change.get?_applied language c.installed change
  | failed _ _ ih => exact ih

/-- Calls that do not name a language leave what is launched for it. -/
theorem After.get?_of_notMem (reached : c₀.After changes c)
    (other : ∀ change ∈ changes, language ∉ change.languages) : c.get? language = c₀.get? language := by
  have same : ∀ server, changes.foldl (Change.settled language) server = server := by
    clear reached
    induction changes with
    | nil => exact fun _ => rfl
    | cons change changes ih =>
        intro server
        rw [List.foldl_cons, Change.settled_of_notMem (other change List.mem_cons_self)]
        exact ih (fun later there => other later (List.mem_cons_of_mem _ there)) server
  rw [get?_eq, get?_eq, reached.overrides, reached.installed, same]

end ServerConfigs

namespace Registry
open Install (Spot)
open Program (Runs)
open ServerConfigs (anyMachine After)

/-- What the user sets for a language stays on top of what is installed for it, whatever manifest was loaded
and whatever calls have followed. Nothing is launched exactly if the user gives no command and nothing is
installed; what is launched is what the user has set, over what is installed; beside a command of the user
no installed binary counts at all. And calls that do not name the language leave it as it is. -/
theorem user_stays_on_top {format : Manifest.Format} {manifest : Path} {user : UserConfig}
    (ordered : user.Ordered) {t t₀ : Files} {c₀ c : ServerConfigs}
    (loaded : Runs anyMachine t (ServerConfigs.loadAs format manifest user).run (some (.ok c₀)) t₀)
    {changes : List Change} (reached : c₀.After changes c) (language : String) :
    let own := user.servers.get? language
    let installed := changes.foldl (Change.settled language) (c₀.installed.get? language)
    (c.get? language = none ↔ own.bind (·.command) = none ∧ installed = none) ∧
    (∀ l, c.get? language = some l → l.Layered own installed) ∧
    (∀ command, own.bind (·.command) = some command → ∀ m : Manifest,
      (({ c with installed := m } : ServerConfigs).get? language).map (·.binary) =
        (c.get? language).map (·.binary)) ∧
    ∀ (more : List Change) (c' : ServerConfigs), c.After more c' →
      (∀ change ∈ more, language ∉ change.languages) → c'.get? language = c.get? language := by
  intro own installed
  have overrides : c.overrides.get? language = own := by
    rw [reached.overrides, ServerConfigs.loaded_overrides loaded]
  have now : c.installed.get? language = installed := reached.installed language
  refine ⟨?_, fun l launched => ?_, fun command set m => ?_, fun more c' later other => ?_⟩
  · rw [← overrides, ← now]
    exact ServerConfigs.get?_eq_none_iff
  · rw [ServerConfigs.get?_eq, overrides, now] at launched
    obtain ⟨b, base, rfl⟩ := Option.map_eq_some_iff.mp launched
    refine LaunchConfig.layered_launched (fun o found => ?_) base
    exact ordered (language, o) (Table.mem_of_lookup found)
  · exact ServerConfigs.binary_of_command (overrides ▸ set) m
  · exact later.get?_of_notMem other

namespace Sample

/-- A user who sets arguments and a variable. -/
def user : UserConfig :=
  { UserConfig.empty with servers := [("a", ⟨none, none, some ["-v"], [("K", "v")], none, none⟩)] }

theorem ordered_user : user.Ordered := by
  intro entry there
  obtain rfl := List.mem_singleton.mp there
  exact List.pairwise_singleton _ _

/-- The instances of that user before and after a server has been registered. -/
def set : ServerConfigs := { opened with overrides := user.servers }

def launching : ServerConfigs := { changed with overrides := user.servers }

theorem runs_anyMachine (p : Program α) (h : Host) :
    Runs anyMachine h.files p (some (p.run h).1) (p.run h).2.files :=
  Program.runs_run (fun _ => True) (fun _ _ _ _ => ⟨trivial, trivial⟩) p trivial

theorem loaded_set : ((ServerConfigs.loadAs Manifest.json manifest user).run.run
    (host (files []) (fun _ => none) 0)).1 = .ok set :=
  Spot.load_of_stands (s := spot) (h := host _ _ 0) rfl (sound none) (plain none) (fun _ => rfl) .missing

theorem performed_set : ((change.perform set).run.run (host (files []) (fun _ => none) 0)).1 =
    .ok launching := by
  have parent : manifest.parent? = some ⟨"/m"⟩ := rfl
  have draft : Manifest.draftPath manifest = ⟨"/m/i.json.tmp"⟩ := rfl
  rw [Change.perform_eq]
  change ((do Manifest.publish manifest text; pure launching : Program.Fallible _).run.run _).1 = _
  unfold Manifest.publish
  rw [parent, draft]
  simp only [bind_assoc]
  refine (congrArg Prod.fst (Program.run_io_ok (answer_home rfl none) _)).trans ?_
  refine (congrArg Prod.fst (Program.run_io_ok (answer_draft rfl none _) _)).trans ?_
  exact congrArg Prod.fst (Program.run_io_ok (answer_replace rfl none _) _)

end Sample

/-- A registered server is launched with the arguments and variables that the user sets. -/
theorem registered_server_is_launched_as_set : Sample.user.Ordered ∧
    Sample.set.After [Sample.change] Sample.launching ∧
    ∃ l, Sample.launching.get? "a" = some l ∧ l.binary.path = ⟨"/a"⟩ ∧ l.binary.args = ["-v"] ∧
      l.binary.env.get? "K" = some "v" ∧ l.enabled = true := by
  have loaded := Sample.runs_anyMachine (ServerConfigs.loadAs Manifest.json Sample.manifest Sample.user).run
    (Sample.host (Sample.files []) (fun _ => none) 0)
  rw [Sample.loaded_set] at loaded
  have run := Sample.runs_anyMachine (Sample.change.perform Sample.set).run
    (Sample.host (Sample.files []) (fun _ => none) 0)
  rw [Sample.performed_set] at run
  have reached : Sample.set.After [Sample.change] Sample.launching := .done .begun run
  obtain ⟨absent, layered, -⟩ := user_stays_on_top Sample.ordered_user loaded reached "a"
  refine ⟨Sample.ordered_user, reached, ?_⟩
  obtain ⟨l, launched⟩ := Option.ne_none_iff_exists'.mp fun nothing => nomatch (absent.mp nothing).2
  have layers := layered l launched
  obtain ⟨server, registered, path, -⟩ := layers.base rfl
  cases registered
  exact ⟨l, launched, path, layers.args _ rfl, layers.env "K" "v" rfl, layers.flag rfl⟩

end Registry

end LanguageHost
