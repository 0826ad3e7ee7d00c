import Mathlib
import LanguageHost.Proofs.Files.Slot
import LanguageHost.Proofs.Install.Pinned
import LanguageHost.Proofs.Package.Grammar
import LanguageHost.Proofs.Text.Blank

/-! Builds from source. What git prints of a checkout is compared with the pin letter by letter, so that the
right checkout is refused where the pin is written in another way than git prints it. -/
namespace LanguageHost

/-- A full hash in the letters that git prints it in. -/
def Pin.IsPrinted (hash : String) : Prop :=
  IsCommit hash ∧ hash.toList.map Text.asciiLower = hash.toList

/-- Nothing is trimmed from a hash. -/
theorem Pin.IsPrinted.trim {hash : String} (printed : IsPrinted hash) : Text.trim hash = hash := by
  have solid : ∀ c ∈ hash.toList, Text.isBlank c = false :=
    fun c there => Text.isBlank_of_isHexDigit (printed.1.2 c there)
  have same : Text.trimmed hash.toList = hash.toList :=
    Text.trimmed_of_ends (fun c first => solid c (List.mem_of_mem_head? first))
      fun c last => solid c (List.mem_of_mem_getLast? last)
  rw [Text.trim, same, String.ofList_toList]

/-- A repository, by what its references stand for. -/
structure Repository where
  commits : List String
  /-- the commit that is checked out where none is asked for -/
  head : String
  branch? : String → Option String
  tag? : String → Option String
  /-- what any text stands for that is no full hash, as the beginning of a hash does, or a branch -/
  revision? : String → Option String
  /-- of the tags of a commit the one that is printed for it -/
  described? : String → Option String
  printed : ∀ commit ∈ commits, Pin.IsPrinted commit
  head_mem : head ∈ commits
  branch_mem : ∀ name commit, branch? name = some commit → commit ∈ commits
  tag_mem : ∀ name commit, tag? name = some commit → commit ∈ commits
  revision_mem : ∀ text commit, revision? text = some commit → commit ∈ commits
  tag_described : ∀ commit name, described? commit = some name → tag? name = some commit
  described_isSome : ∀ name commit, tag? name = some commit → (described? commit).isSome

namespace Repository
variable (repo : Repository)

/-- The commit that a pin stands for. The letters of a full hash may be of either case, and a branch goes
before a tag of its name. -/
def target? : Pin → Option String
  | .revision text =>
    if Pin.isCommitHash text then
      repo.commits.find? (· == String.ofList (text.toList.map Text.asciiLower))
    else repo.revision? text
  | .tag name => if name = latest then some repo.head else (repo.branch? name).or (repo.tag? name)

/-- The line that is printed of a commit when it is checked against a pin. -/
def line? (pin : Pin) (commit : String) : Option String :=
  match pin with
  | .revision _ => some commit
  | .tag _ => repo.described? commit

/-- What git does on a machine: a fetch that ends well leaves the commit checked out that the pin stands for,
and of the commit that is checked out the line is printed. What is checked out is told by the files. -/
structure Obeyed (dir : Path) (url : String) (pin : Pin) (checkout? : Files → Option String) (h : Host) :
    Prop where
  fetched : ∀ c, (Checkout.cloneCommands dir url (some pin)).getLast? = some c →
    (h.execute c .reported).1.outcome = .ok () →
    ∃ commit, repo.target? pin = some commit ∧ checkout? (h.execute c .reported).2.files = some commit
  shown : ∀ commit expected c line, checkout? h.files = some commit →
    Checkout.check? dir (some pin) = some (expected, c) → repo.line? pin commit = some line →
    (h.execute c .quiet).1 = ⟨[line], .ok ()⟩
  untold : ∀ commit expected c, checkout? h.files = some commit →
    Checkout.check? dir (some pin) = some (expected, c) → repo.line? pin commit = none →
    ∃ e, (h.execute c .quiet).1.outcome = .error e

variable {repo}

theorem target_mem {pin : Pin} {commit : String} (target : repo.target? pin = some commit) :
    commit ∈ repo.commits := by
  cases pin with
  | revision text =>
    simp only [target?] at target
    split at target
    · exact List.mem_of_find?_eq_some target
    · exact repo.revision_mem _ _ target
  | tag name =>
    simp only [target?] at target
    split at target
    · cases target
      exact repo.head_mem
    · rcases Option.or_eq_some_iff.mp target with branch | ⟨-, tag⟩
      · exact repo.branch_mem _ _ branch
      · exact repo.tag_mem _ _ tag

/-- A revision is the hash that is printed for it if and only if it is written as one. -/
theorem eq_target_iff {text commit : String} (target : repo.target? (.revision text) = some commit) :
    commit = text ↔ Pin.IsPrinted text := by
  constructor
  · rintro rfl
    exact repo.printed _ (target_mem target)
  · intro printed
    simp only [target?, Pin.isCommitHash_iff.mpr printed.1, if_true] at target
    have same := List.find?_some target
    rw [beq_iff_eq, printed.2, String.ofList_toList] at same
    exact same

end Repository

namespace Package

/-- What is hosted there has a repository, and its version is the value of its pin. -/
theorem exists_pin_of_github {id : String} {p : Package} (read : ofId? id = some p)
    (hosted : p.ecosystem = .github) :
    ∃ url pin, p.repository = some url ∧ p.pin = some pin ∧ pin.value = p.version := by
  have wf := wellFormed_of_ofId? read
  have known : p.repository.isSome := by
    rw [ofId?_eq, Option.bind_eq_some_iff] at read
    obtain ⟨t, -, made⟩ := read
    obtain ⟨name, version, q, options, reads⟩ := Parts.read?_eq_some_iff.mp made
    rw [reads.package] at hosted ⊢
    exact (isSome_assemble_repository _ _ _ _ _ _).mpr (.inl hosted)
  obtain ⟨url, repository⟩ := Option.isSome_iff_exists.mp known
  cases pinned : p.pin with
  | none => cases (wf.fixed pinned).symm.trans repository
  | some pin => exact ⟨url, pin, repository, rfl, wf.pinned pin pinned⟩

end Package

namespace Install
open Program (Logged)

section steps
variable {dir : Path} {p : Package} {url : String} {log : List Occasion} {t t' : Files} {o o' : Operation}

/-- What the last of some commands in a row has left. -/
theorem logged_commands {cs : List Command} {c : Command} (last : cs.getLast? = some c)
    (made : Logged log t ((forIn cs PUnit.unit fun c _ => do
      Installing.command c
      pure (ForInStep.yield PUnit.unit) : Installing PUnit).run.run o) (.ok (), o') t') :
    ∃ h : Host, ⟨h, .run c .reported⟩ ∈ log ∧ (h.execute c .reported).1.outcome = .ok () ∧
      t' = (h.execute c .reported).2.files := by
  induction cs generalizing log t o with
  | nil => cases last
  | cons first cs ih =>
    rw [List.forIn_cons] at made
    obtain ⟨before, after, step, o₁, t₁, rfl, ran, onward⟩ := Installing.logged_bind_ok made
    obtain ⟨run, rest, _, o₂, t₂, rfl, ran, done⟩ := Installing.logged_bind_ok ran
    cases done
    cases cs with
    | nil =>
      cases last
      cases onward
      obtain ⟨h, -, rfl, ok, files⟩ := Installing.Tells.logged_command ran
      exact ⟨h, by simp, ok.symm, files⟩
    | cons second cs =>
      rw [List.getLast?_cons_cons] at last
      obtain ⟨h, there, ends⟩ := ih last onward
      exact ⟨h, List.mem_append_right _ there, ends⟩

theorem logged_fetch {c : Command} (from_git : p.repository = some url)
    (last : (Checkout.cloneCommands dir url p.pin).getLast? = some c)
    (made : Logged log t ((Checkout.fetch dir p).run.run o) (.ok (), o') t') :
    ∃ h : Host, ⟨h, .run c .reported⟩ ∈ log ∧ (h.execute c .reported).1.outcome = .ok () ∧
      t' = (h.execute c .reported).2.files := by
  unfold Checkout.fetch at made
  rw [from_git] at made
  obtain ⟨ran, rest, _, o₁, t₁, rfl, ran, done⟩ := Installing.logged_bind_ok made
  cases done
  rw [List.append_nil]
  exact logged_commands last ran

theorem exists_last_command (dir : Path) (url : String) (pin : Option Pin) :
    ∃ c, (Checkout.cloneCommands dir url pin).getLast? = some c := by
  unfold Checkout.cloneCommands
  split
  · exact ⟨_, rfl⟩
  · split <;> exact ⟨_, rfl⟩
  · exact ⟨_, rfl⟩

/-- A checkout that has something to be checked against is checked by one command. -/
theorem logged_verify {expected : String} {c : Command} {r : Except Error Unit}
    (checked : Checkout.check? dir p.pin = some (expected, c))
    (made : Logged log t ((Checkout.verify dir p).run.run o) (r, o') t') :
    ∃ h : Host, h.files = t ∧ log = [⟨h, .run c .quiet⟩] ∧
      (∀ e, (h.execute c .quiet).1.outcome = .error e → r = .error e) ∧
      ∀ line, (h.execute c .quiet).1 = ⟨[line], .ok ()⟩ → r = if Text.trim line = expected then .ok () else
        .error (.installFailed p.name ("checked out " ++ Text.trim line ++ ", wanted " ++ expected)) := by
  unfold Checkout.verify at made
  rw [checked] at made
  dsimp only at made
  rw [Installing.run_bind] at made
  obtain ⟨ran, rest, ⟨answer, o₁⟩, t₁, rfl, ran, onward⟩ := Program.logged_bind made
  obtain ⟨captured, rfl, called⟩ := Installing.Tells.logged_lift ran
  obtain ⟨h, files, rfl, -, rfl⟩ := logged_capture called
  refine ⟨h, files, ?_⟩
  cases outcome : (h.execute c .quiet).1.outcome with
  | error e =>
    rw [outcome] at onward
    cases onward
    refine ⟨rfl, fun e' failed => failed, fun line shown => ?_⟩
    cases outcome.symm.trans (congrArg RunReport.outcome shown)
  | ok u =>
    rw [outcome] at onward
    dsimp only [Except.map, Installing.ofExcept] at onward
    rw [pure_bind] at onward
    -- the run is over, however the comparison ends
    have single : rest = [] ∧ r = if Text.trim (String.intercalate "\n"
        ((h.execute c .quiet).1.lines.take captureLimit)) = expected then .ok () else
      .error (.installFailed p.name ("checked out " ++ Text.trim (String.intercalate "\n"
        ((h.execute c .quiet).1.lines.take captureLimit)) ++ ", wanted " ++ expected)) := by
      split at onward
      · next same =>
        cases onward
        exact ⟨rfl, (if_pos same).symm⟩
      · next other =>
        cases onward
        exact ⟨rfl, (if_neg other).symm⟩
    obtain ⟨rfl, ends⟩ := single
    refine ⟨rfl, fun e failed => (by cases failed), fun line shown => ?_⟩
    have text : String.intercalate "\n" ((h.execute c .quiet).1.lines.take captureLimit) = line := by
      rw [shown]
      rfl
    rw [ends, text]

/-- On a machine where git does as it should, what is printed of the checkout decides. -/
theorem verified_by_line {repo : Repository} {pin : Pin} {checkout? : Files → Option String}
    {commit expected : String} {c : Command} {r : Except Error Unit} (pinned : p.pin = some pin)
    (checked : Checkout.check? dir (some pin) = some (expected, c)) (checkout : checkout? t = some commit)
    (git : ∀ m ∈ log, repo.Obeyed dir url pin checkout? m.host)
    (made : Logged log t ((Checkout.verify dir p).run.run o) (r, o') t') :
    (∀ line, repo.line? pin commit = some line → r = if Text.trim line = expected then .ok () else
      .error (.installFailed p.name ("checked out " ++ Text.trim line ++ ", wanted " ++ expected))) ∧
    (repo.line? pin commit = none → ∃ e, r = .error e) := by
  obtain ⟨h, rfl, rfl, ends⟩ := logged_verify (pinned ▸ checked) made
  have obeyed := git _ (List.mem_singleton.mpr rfl)
  constructor
  · intro line told
    exact ends.2 line (obeyed.shown commit expected c line checkout checked told)
  · intro silent
    obtain ⟨e, failed⟩ := obeyed.untold commit expected c checkout checked silent
    exact ⟨e, ends.1 e failed⟩

/-- A revision is checked out if it is the hash that git prints. -/
theorem verified_revision {repo : Repository} {text : String} {checkout? : Files → Option String}
    {commit : String} {r : Except Error Unit} (pinned : p.pin = some (.revision text))
    (target : repo.target? (.revision text) = some commit) (checkout : checkout? t = some commit)
    (git : ∀ m ∈ log, repo.Obeyed dir url (.revision text) checkout? m.host)
    (made : Logged log t ((Checkout.verify dir p).run.run o) (r, o') t') :
    (r = .ok () ↔ Pin.IsPrinted text) ∧ (r = .ok () ∨ r = .error
      (.installFailed p.name ("checked out " ++ Text.trim commit ++ ", wanted " ++ text))) := by
  have printed := repo.printed commit (Repository.target_mem target)
  have written := Repository.eq_target_iff target
  have ends := (verified_by_line pinned rfl checkout git made).1 commit rfl
  by_cases same : commit = text
  · rw [if_pos (printed.trim.trans same)] at ends
    exact ⟨iff_of_true ends (written.mp same), .inl ends⟩
  · rw [printed.trim, if_neg same] at ends
    rw [printed.trim]
    refine ⟨iff_of_false ?_ (mt written.mpr same), .inr ends⟩
    rw [ends]
    rintro ⟨⟩

/-- A tag is checked out if it is the one that git prints. -/
theorem verified_tag {repo : Repository} {name : String} {checkout? : Files → Option String}
    {commit : String} {r : Except Error Unit} (pinned : p.pin = some (.tag name)) (named : name ≠ latest)
    (checkout : checkout? t = some commit)
    (git : ∀ m ∈ log, repo.Obeyed dir url (.tag name) checkout? m.host)
    (made : Logged log t ((Checkout.verify dir p).run.run o) (r, o') t') :
    (r = .ok () ↔ (repo.described? commit).map Text.trim = some name) ∧
    ∀ line, repo.described? commit = some line → r = .ok () ∨ r = .error
      (.installFailed p.name ("checked out " ++ Text.trim line ++ ", wanted " ++ name)) := by
  have checked : Checkout.check? dir (some (.tag name)) =
      some (name, Checkout.git dir ["describe", "--tags", "--exact-match"]) := if_neg named
  obtain ⟨decided, refused⟩ := verified_by_line pinned checked checkout git made
  cases told : repo.described? commit with
  | none =>
    obtain ⟨e, rfl⟩ := refused told
    simp
  | some line =>
    have ends := decided line told
    constructor
    · rw [ends]
      simp
    · rintro _ ⟨⟩
      rw [ends]
      split
      · exact .inl rfl
      · exact .inr rfl

end steps

/-- A checkout of the commit that its pin stands for is taken if and only if the pin is written as git prints
it: a revision as the full hash in small letters, and a tag as the one that is printed of the commit. -/
theorem checkout_is_taken_iff_pin_is_printed {id : String} {p : Package}
    (read : Package.ofId? id = some p) (hosted : p.ecosystem = .github) (dir : Path) (repo : Repository)
    (checkout? : Files → Option String) :
    ∃ url pin, p.repository = some url ∧ p.pin = some pin ∧
      ∀ {before after : List Occasion} {t t₁ t' : Files} {o o₁ o' : Operation} {r : Except Error Unit},
        Logged before t ((Checkout.fetch dir p).run.run o) (.ok (), o₁) t₁ →
        Logged after t₁ ((Checkout.verify dir p).run.run o₁) (r, o') t' →
        (∀ m ∈ before ++ after, repo.Obeyed dir url pin checkout? m.host) →
        ∃ commit, repo.target? pin = some commit ∧ checkout? t₁ = some commit ∧
          (r = .ok () ↔ (pin = .revision p.version ∧ Pin.IsPrinted p.version) ∨
            (pin = .tag p.version ∧ (p.version = latest ∨
              (repo.described? commit).map Text.trim = some p.version))) ∧
          ∀ line, repo.line? pin commit = some line → r = .ok () ∨ r = .error
            (.installFailed p.name ("checked out " ++ Text.trim line ++ ", wanted " ++ p.version)) := by
  obtain ⟨url, pin, from_git, pinned, version⟩ := Package.exists_pin_of_github read hosted
  refine ⟨url, pin, from_git, pinned, fun {before after t t₁ t' o o₁ o' r} fetched verified git => ?_⟩
  -- the last of the commands has left the commit that the pin stands for
  obtain ⟨c, last⟩ := exists_last_command dir url pin
  obtain ⟨h, there, ok, files⟩ := logged_fetch from_git (pinned ▸ last) fetched
  obtain ⟨commit, target, checkout⟩ := (git _ (List.mem_append_left _ there)).fetched c last ok
  rw [← files] at checkout
  refine ⟨commit, target, checkout, ?_⟩
  rw [← version]
  have answers := fun m (there : m ∈ after) => git m (List.mem_append_right _ there)
  cases pin with
  | revision text =>
    obtain ⟨taken, told⟩ := verified_revision pinned target checkout answers verified
    refine ⟨by simp [Pin.value, taken], ?_⟩
    rintro line ⟨⟩
    exact told
  | tag name =>
    by_cases newest : name = latest
    · have unchecked : Checkout.verify dir p = pure () := by
        rw [Checkout.verify, pinned, newest]
        rfl
      rw [unchecked] at verified
      cases verified
      exact ⟨iff_of_true rfl (.inr ⟨rfl, .inl newest⟩), fun _ _ => .inl rfl⟩
    · obtain ⟨taken, told⟩ := verified_tag pinned newest checkout answers verified
      exact ⟨by simp [Pin.value, taken, newest], told⟩

/-! A commit with the tags `v1` and `v1.0`, of which git prints the second. -/

namespace Twice

def hash : String := "abcdef0123456789abcdef0123456789abcdef01"

def package : Package where
  id := "pkg:github/o/r@v1"
  ecosystem := .github
  name := "o/r"
  version := "v1"
  repository := some "https://github.com/o/r"
  pin := some (.tag "v1")
  options := []

theorem read : Package.ofId? "pkg:github/o/r@v1" = some package := by decide +kernel

def rooted (source : List (String × Files)) : Files := .dir (("git", .file [] true) :: source)

/-- A machine where git prints the second tag, and clones by a new directory. -/
def machine (source : List (String × Files)) : Host :=
  { Sample.host (rooted source) with
    env := [("PATH", "/")]
    programs := fun inv _ =>
      if "describe" ∈ inv.argv then ⟨[.out (Utf8.ofString "v1.0\n")], .exit 0⟩
      else ⟨[.makeDirs ⟨"src"⟩], .exit 0⟩ }

def clone : Command :=
  (Command.ofArgs "git" ["clone", "--depth", "1", "--branch", "v1", "https://github.com/o/r", "src"]).within
    ⟨"/"⟩

theorem locate_git (source : List (String × Files)) : (rooted source).locate true ⟨"/git"⟩ = .ok ["git"] := by
  have parts : Path.components ⟨"/git"⟩ = [.root, .name "git"] := by cbv
  rw [Files.locate_eq (by decide), parts]
  cbv

theorem startable_git (source : List (String × Files)) : (machine source).startable ⟨"/git"⟩ = .ok () := by
  have found : (rooted source).find ⟨"/git"⟩ = .ok (.file [] true) := by
    rw [Files.find, locate_git]
    rfl
  exact Host.startable_of_find (h := machine source) found

/-- The program is found wherever a command runs. -/
theorem invocation_git {source : List (String × Files)} {c : Command} {dir : Path} (plain : c.hasZero = false)
    (program : c.program = "git") (env : c.env = [])
    (within : c.cwd.elim (machine source).cwd (machine source).absolute = dir)
    (here : Host.canonical (rooted source) dir = .ok dir) (directory : (rooted source).isDirectoryAt dir = true) :
    (machine source).invocation c = .ok ⟨⟨"/git"⟩, "git" :: c.args, dir, [("PATH", "/")]⟩ := by
  have joined : dir / "/" / "git" = ⟨"/git"⟩ := by
    rw [show dir / "/" = ⟨"/"⟩ from Path.join_absolute (by decide)]
    cbv
  have found : (machine source).programFile dir [("PATH", "/")] "git" = .ok ⟨"/git"⟩ :=
    Host.programFile_eq (by decide) (by decide) rfl joined (startable_git source)
  have real : Host.canonical (rooted source) ⟨"/git"⟩ = .ok ⟨"/git"⟩ := by
    rw [Host.canonical, locate_git]
    cbv
  have unset : (machine source).env.insertAll c.env = [("PATH", "/")] := by
    rw [env]
    rfl
  rw [← unset, ← program] at found
  have started := Host.invocation_eq plain within here directory found real
  rwa [unset, program] at started

def cloned : List (String × Files) := [("src", .dir [])]

theorem makeDirs_src {source : List (String × Files)} (either : source = [] ∨ source = cloned) :
    (rooted source).makeDirs ⟨"/src"⟩ = .ok (rooted cloned) := by
  have written : Files.check ⟨"/src"⟩ = .ok () := by decide
  have parts : Path.components ⟨"/src"⟩ = [.root, .name "src"] := by cbv
  rw [Files.makeDirs, if_pos (by decide), written, parts]
  refine (Files.makeDirsFrom_there (p := ⟨"/"⟩) (by cbv) (Files.locate_root _) rfl).trans ?_
  have place (follow : Bool) : (rooted source).locate follow ⟨"/src"⟩ = .ok ["src"] := by
    rw [Files.locate_eq (by decide), parts]
    rcases either with rfl | rfl <;> cbv
  rcases either with rfl | rfl
  · exact Files.makeDirsFrom_new (p := ⟨"/src"⟩) (by cbv) place rfl
  · exact Files.makeDirsFrom_there (p := ⟨"/src"⟩) (by cbv) place rfl

theorem execute_clone {source : List (String × Files)} (either : source = [] ∨ source = cloned) :
    ((machine source).execute clone .reported).1 = ⟨[], .ok ()⟩ ∧
      ((machine source).execute clone .reported).2.files = rooted cloned := by
  have within : (machine source).absolute ⟨"/"⟩ = ⟨"/"⟩ := Path.join_absolute (by decide)
  have here : Host.canonical (rooted source) ⟨"/"⟩ = .ok ⟨"/"⟩ := by
    rw [Host.canonical, Files.locate_root]
    cbv
  have directory := Files.find_dir_of_locate (Files.locate_root (rooted source) true) rfl
  have started : (machine source).invocation clone = _ :=
    invocation_git (by decide) rfl rfl within here directory
  have calm : ¬ ((machine source).isCancelled = true ∧ RunMode.reported ≠ .steady) := by
    rintro ⟨cancelled, -⟩
    cases cancelled
  have place : (⟨"/"⟩ : Path) / "src" = ⟨"/src"⟩ := by cbv
  have touched : Host.touch (rooted source) ⟨"/"⟩ (.makeDirs ⟨"src"⟩) = rooted cloned := by
    rw [Host.touch, place, makeDirs_src either]
    rfl
  unfold Host.execute
  rw [if_neg calm, started]
  constructor
  · rfl
  · exact touched

def describe : Command :=
  (Command.ofArgs "git" ["describe", "--tags", "--exact-match"]).within ⟨"/src"⟩

theorem execute_describe : ((machine cloned).execute describe .quiet).1 = ⟨["v1.0"], .ok ()⟩ := by
  have within : (machine cloned).absolute ⟨"/src"⟩ = ⟨"/src"⟩ := Path.join_absolute (by decide)
  have place (follow : Bool) : (rooted cloned).locate follow ⟨"/src"⟩ = .ok ["src"] := by
    have parts : Path.components ⟨"/src"⟩ = [.root, .name "src"] := by cbv
    rw [Files.locate_eq (by decide), parts]
    cbv
  have here : Host.canonical (rooted cloned) ⟨"/src"⟩ = .ok ⟨"/src"⟩ := by
    rw [Host.canonical, place]
    cbv
  have started : (machine cloned).invocation describe = _ :=
    invocation_git (by decide) rfl rfl within here (Files.find_dir_of_locate (place true) rfl)
  have calm : ¬ ((machine cloned).isCancelled = true ∧ RunMode.quiet ≠ .steady) := by
    rintro ⟨cancelled, -⟩
    cases cancelled
  unfold Host.execute
  rw [if_neg calm, started]
  cbv

def fetching : List Occasion := [⟨machine [], .run clone .reported⟩]

def verifying : List Occasion := [⟨machine cloned, .run describe .quiet⟩]

theorem logged_fetching (o : Operation) : Logged fetching (rooted [])
    ((Checkout.fetch ⟨"/"⟩ package).run.run o) (.ok (), o) (rooted cloned) := by
  have ran : (machine []).answer (.run clone .reported) =
      (⟨[], .ok ()⟩, ((machine []).execute clone .reported).2) := Prod.ext (execute_clone (.inl rfl)).1 rfl
  refine .call rfl ?_
  rw [ran, ← (execute_clone (.inl rfl)).2]
  exact .done

theorem logged_verifying (o : Operation) : Logged verifying (rooted cloned)
    ((Checkout.verify ⟨"/"⟩ package).run.run o)
    (.error (.installFailed "o/r" "checked out v1.0, wanted v1"), o)
    ((machine cloned).execute describe .quiet).2.files := by
  have ran : (machine cloned).answer (.run describe .quiet) =
      (⟨["v1.0"], .ok ()⟩, ((machine cloned).execute describe .quiet).2) := Prod.ext execute_describe rfl
  have checked : Checkout.check? ⟨"/"⟩ package.pin = some ("v1", describe) := by decide
  unfold Checkout.verify
  rw [checked]
  refine .call rfl ?_
  rw [ran]
  have found : Text.trim (String.intercalate "\n" (["v1.0"].take captureLimit)) = "v1.0" := by cbv
  change Logged [] _ ((if Text.trim (String.intercalate "\n" (["v1.0"].take captureLimit)) = "v1" then pure ()
    else Backend.failed package ("checked out " ++ Text.trim (String.intercalate "\n"
      (["v1.0"].take captureLimit)) ++ ", wanted " ++ "v1") : Installing Unit).run.run o) _ _
  rw [found, if_neg (by decide)]
  exact .done

def repo : Repository where
  commits := [hash]
  head := hash
  branch? _ := none
  tag? name := if name = "v1" ∨ name = "v1.0" then some hash else none
  revision? _ := none
  described? commit := if commit = hash then some "v1.0" else none
  printed := by
    intro commit there
    obtain rfl := List.mem_singleton.mp there
    have digits : hash.toList.all Text.isHexDigit = true := by decide
    exact ⟨⟨by decide, List.all_eq_true.mp digits⟩, by decide⟩
  head_mem := by decide
  branch_mem _ _ there := by cases there
  tag_mem name commit there := by
    split at there
    · cases there
      decide
    · cases there
  revision_mem _ _ there := by cases there
  tag_described commit name there := by
    split at there
    · next same =>
      cases there
      rw [same]
      rfl
    · cases there
  described_isSome name commit there := by
    split at there
    · cases there
      rfl
    · cases there

/-- The one commit is checked out wherever there is a checkout. -/
def checkout? (t : Files) : Option String := (t.get? ["src"]).map fun _ => hash

theorem obeyed {source : List (String × Files)} (either : source = [] ∨ source = cloned) :
    repo.Obeyed ⟨"/"⟩ "https://github.com/o/r" (.tag "v1") checkout? (machine source) where
  fetched c last _ := by
    cases (show some clone = some c from last)
    refine ⟨hash, by decide, ?_⟩
    rw [(execute_clone either).2]
    rfl
  shown commit expected c line there checked told := by
    rcases either with rfl | rfl
    · cases there
    · cases there
      cases (show some ("v1", describe) = some (expected, c) from checked)
      cases told
      exact execute_describe
  untold commit expected c there checked silent := by
    rcases either with rfl | rfl
    · cases there
    · cases there
      cases silent

end Twice

theorem other_tag_of_the_commit_is_refused : ∃ o o',
    Logged Twice.fetching (Twice.rooted [])
      ((Checkout.fetch ⟨"/"⟩ Twice.package).run.run (.start "s")) (.ok (), o) (Twice.rooted Twice.cloned) ∧
    Logged Twice.verifying (Twice.rooted Twice.cloned)
      ((Checkout.verify ⟨"/"⟩ Twice.package).run.run o)
      (.error (.installFailed "o/r" "checked out v1.0, wanted v1"), o')
      ((Twice.machine Twice.cloned).execute Twice.describe .quiet).2.files ∧
    Twice.repo.target? (.tag "v1") = some Twice.hash ∧
    (Twice.repo.described? Twice.hash).map Text.trim ≠ some "v1" := by
  obtain ⟨url, pin, ⟨⟩, ⟨⟩, taken⟩ :=
    checkout_is_taken_iff_pin_is_printed Twice.read rfl ⟨"/"⟩ Twice.repo Twice.checkout?
  have fetched := Twice.logged_fetching (.start "s")
  have verified := Twice.logged_verifying (.start "s")
  obtain ⟨commit, target, checkout, printed, -⟩ := taken fetched verified fun m there => by
    rcases List.mem_cons.mp there with rfl | there
    · exact Twice.obeyed (.inl rfl)
    · obtain rfl := List.mem_singleton.mp there
      exact Twice.obeyed (.inr rfl)
  cases checkout
  refine ⟨_, _, fetched, verified, target, fun same => ?_⟩
  cases printed.mpr (.inr ⟨rfl, .inr same⟩)

end Install

end LanguageHost
