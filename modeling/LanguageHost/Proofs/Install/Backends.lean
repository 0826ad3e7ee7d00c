import LanguageHost.Proofs.Install.Confined

/-! The backends, one by one: what they prepare, install and clean up stays in the directory. -/
namespace LanguageHost.Install
open Files

/-! Looking at files, whatever for. -/

section looks
variable {fair : Fairness} {I : Files → Prop}

theorem keeps_readText (file : Path) : Program.Keeps fair I (Program.readText file) := by
  refine .bind (.look trivial) fun r => ?_
  cases r with
  | error e => exact .pure _
  | ok bs =>
      dsimp only
      split <;> exact .pure _

theorem keeps_packageOf (m : InstallMethod) : Installing.Keeps fair I (Backend.packageOf m) := by
  cases m with
  | package source => exact .pure _
  | _ => exact .fail _

theorem keeps_failed (p : Package) (reason : String) :
    Installing.Keeps fair I (Backend.failed p reason : Installing α) := .fail _

theorem keeps_readOrFail (p : Package) (file : Path) (reason : String) :
    Installing.Keeps fair I (Backend.readOrFail p file reason) := by
  refine .bind (.lift (keeps_readText file)) fun r => ?_
  cases r with
  | ok text => exact .pure _
  | error e => exact keeps_failed p reason

theorem keeps_readJson (file : Path) : Installing.Keeps fair I (Npm.readJson file) := by
  refine .bind (.lift (keeps_readText file)) fun r => ?_
  cases r with
  | error e => exact .fail _
  | ok text =>
      dsimp only
      split
      · exact .pure _
      · exact .fail _

theorem keeps_npm_verify (dir : Path) (p : Package) : Installing.Keeps fair I (Npm.verify dir p) := by
  refine .bind (keeps_readJson _) fun manifest => ?_
  dsimp only
  split
  · exact keeps_failed _ _
  · split
    · exact .pure _
    · refine .bind (.tryCatch (keeps_readJson _) fun _ => keeps_failed _ _) fun installed => ?_
      split
      · exact .pure _
      · exact keeps_failed _ _

theorem keeps_cargo_verify (dir : Path) (p : Package) :
    Installing.Keeps fair I (Cargo.verify dir p) := by
  refine .bind (keeps_readOrFail _ _ _) fun text => ?_
  split
  · exact .fail _
  · split
    · exact keeps_failed _ _
    · split
      · exact .pure _
      · exact keeps_failed _ _

theorem keeps_gem_verify (dir : Path) (p : Package) : Installing.Keeps fair I (Gem.verify dir p) := by
  unfold Gem.verify
  split
  · refine .bind (.look trivial) fun r => ?_
    cases r with
    | error e => exact keeps_failed _ _
    | ok names =>
        dsimp only
        split
        · exact .pure _
        · exact keeps_failed _ _
  · refine .bind (.exists? _) fun there => ?_
    split
    · exact .pure _
    · exact keeps_failed _ _

theorem keeps_golang_verify (dir : Path) (p : Package) :
    Installing.Keeps fair I (Golang.verify dir p) := by
  refine .bind (keeps_readOrFail _ _ _) fun text => ?_
  split
  · exact keeps_failed _ _
  · split
    · exact .pure _
    · exact keeps_failed _ _

end looks

namespace Site
variable {servers : Path} {name : String} {manifest : Path} {s : Site servers name manifest}
  {own : List String} {kept before : Option Files}

/-- The backend leaves an attempt under way. What it installs may count on what it has prepared. -/
def Stays (s : Site servers name manifest) (own : List String) (kept before : Option Files)
    (m : InstallMethod) (b : Backend) : Prop :=
  let I := s.Underway own kept before
  ∃ ready : Files → Prop, (∀ t, ready t → I t) ∧
    Installing.Holds (s.Fair own) I b.prepare (fun _ => ready) I I ∧
    Installing.Holds (s.Fair own) ready (b.install m) (fun _ => I) I I ∧
    Installing.Keeps (s.Fair own) I b.cleanup

theorem stays_of_keeps {m : InstallMethod} {b : Backend}
    (prepare : Installing.Keeps (s.Fair own) (s.Underway own kept before) b.prepare)
    (install : Installing.Keeps (s.Fair own) (s.Underway own kept before) (b.install m))
    (cleanup : Installing.Keeps (s.Fair own) (s.Underway own kept before) b.cleanup) :
    s.Stays own kept before m b :=
  ⟨_, fun _ h => h, prepare, install, cleanup⟩

theorem keeps_writeText {n : String} (hn : IsName n) (hown : n ∈ own) (text : String) :
    Installing.Keeps (s.Fair own) (s.Underway own kept before)
      (Installing.io (Program.writeText (s.path / n) text)) := by
  refine .io (keeps_write (tail_of_isName hn) ?_ _)
  rintro m same
  cases same
  exact hown

theorem stays_npm (m : InstallMethod) (hown : ".npmrc" ∈ own) :
    s.Stays own kept before m (Npm.backend s.path) := by
  refine stays_of_keeps ?_ ?_ ?_
  · refine .bind (keeps_requireTool _ _ _) fun _ => ?_
    refine .bind (.io keeps_makeDirs) fun _ => ?_
    refine .bind (.exists? _) fun there => ?_
    dsimp only
    split
    · exact .bind (keeps_command _) fun _ => keeps_writeText (by decide) hown _
    · exact keeps_writeText (by decide) hown _
  · refine .bind (keeps_packageOf m) fun p => ?_
    exact .bind (keeps_command _) fun _ => keeps_npm_verify _ _
  · exact .bind (keeps_remove (by decide)) fun _ => keeps_remove (by decide)

theorem stays_cargo (m : InstallMethod) : s.Stays own kept before m (Cargo.backend s.path) := by
  refine stays_of_keeps ?_ ?_ (.pure _)
  · exact .bind (keeps_requireTool _ _ _) fun _ => .io keeps_makeDirs
  · refine .bind (keeps_packageOf m) fun p => ?_
    exact .bind (keeps_command _) fun _ => keeps_cargo_verify _ _

theorem keeps_pip_verify (dir : Path) (p : Package) :
    Installing.Keeps (s.Fair own) (s.Underway own kept before) (Pip.verify dir p) := by
  refine .bind (.lift (keeps_capture _ _)) fun r => ?_
  cases r with
  | error e => exact keeps_failed _ _
  | ok output =>
      dsimp only
      split
      · exact keeps_failed _ _
      · split
        · exact .pure _
        · exact keeps_failed _ _

theorem stays_pip (m : InstallMethod) (hown : Pip.requirementsFile ∈ own) :
    s.Stays own kept before m (Pip.backend s.path) := by
  have write : ∀ text, Installing.Keeps (s.Fair own) (s.Underway own kept before)
      (Installing.io (Program.writeText (s.path / Pip.requirementsFile) text)) :=
    keeps_writeText (by decide) hown
  refine stays_of_keeps ?_ ?_ ?_
  · refine .bind (keeps_requireTool _ _ _) fun _ => ?_
    refine .bind (.io keeps_makeDirs) fun _ => ?_
    refine .bind (.exists? _) fun there => ?_
    dsimp only
    split
    · exact .bind (keeps_command _) fun _ => write _
    · exact write _
  · refine .bind (keeps_packageOf m) fun p => ?_
    refine .bind (write _) fun _ => ?_
    exact .bind (keeps_command _) fun _ => keeps_pip_verify _ _
  · refine .bind (.exists? _) fun there => ?_
    split
    · exact write _
    · exact .pure _

theorem stays_gem (m : InstallMethod) : s.Stays own kept before m (Gem.backend s.path) := by
  refine stays_of_keeps ?_ ?_ (keeps_remove (by decide))
  · exact .bind (keeps_requireTool _ _ _) fun _ =>
      .io (keeps_makeDirs_entry (by decide) (by decide))
  · refine .bind (keeps_packageOf m) fun p => ?_
    refine .bind (.ofExcept _) fun c => ?_
    exact .bind (keeps_command _) fun _ => keeps_gem_verify _ _

theorem stays_golang (m : InstallMethod) : s.Stays own kept before m (Golang.backend s.path) := by
  refine stays_of_keeps ?_ ?_ ?_
  · refine .bind (keeps_requireTool _ _ _) fun _ => ?_
    refine .bind (.io keeps_makeDirs) fun _ => ?_
    refine .bind (.exists? _) fun there => ?_
    split
    · exact keeps_command _
    · exact .pure _
  · refine .bind (keeps_packageOf m) fun p => ?_
    refine .bind (keeps_command _) fun _ => ?_
    exact .bind (keeps_command _) fun _ => keeps_golang_verify _ _
  · exact .bind (keeps_remove (by decide)) fun _ => keeps_remove (by decide)

theorem keeps_fetch (dir : Path) (p : Package) :
    Installing.Keeps (s.Fair own) (s.Underway own kept before) (Checkout.fetch dir p) := by
  unfold Checkout.fetch
  split
  · exact keeps_failed _ _
  · exact .bind (.forEach fun c _ => .bind (keeps_command c) fun _ => .pure _) fun _ => .pure _

theorem keeps_checkout_verify (dir : Path) (p : Package) :
    Installing.Keeps (s.Fair own) (s.Underway own kept before) (Checkout.verify dir p) := by
  unfold Checkout.verify
  split
  · exact .pure _
  · refine .bind (.lift (keeps_capture _ _)) fun r => ?_
    refine .bind (.ofExcept r) fun output => ?_
    dsimp only
    split
    · exact .pure _
    · exact keeps_failed _ _

theorem stays_checkout (m : InstallMethod) : s.Stays own kept before m (Checkout.backend s.path) := by
  refine stays_of_keeps ?_ ?_ (keeps_remove (by decide))
  · refine .bind (keeps_requireTool _ _ _) fun _ => ?_
    exact .bind (.io keeps_makeDirs) fun _ => keeps_remove (by decide)
  · cases m with
    | sourceBuild p build =>
        refine .bind (keeps_fetch _ p) fun _ => ?_
        exact .bind (keeps_checkout_verify _ p) fun _ => keeps_command _
    | _ => exact .fail _

/-! Releases. Where the name of an asset is none of a file, nothing is ever downloaded. -/

/-- The directory of the install is there. -/
def Placed (s : Site servers name manifest) (t : Files) : Prop :=
  ∃ es, t.get? s.place = some (.dir es)

theorem keeps_request (hops : Nat) (u : Url) {fair : Fairness} {I : Files → Prop} :
    Program.Keeps fair I (Release.request hops u) := by
  induction hops generalizing u with
  | zero =>
      unfold Release.request
      refine .bind (.look trivial) fun r => ?_
      cases r with
      | none => exact .pure _
      | some reply =>
          dsimp only
          split
          · exact .pure _
          · split
            · exact .pure _
            · split <;> exact .pure _
  | succ hops ih =>
      unfold Release.request
      refine .bind (.look trivial) fun r => ?_
      cases r with
      | none => exact .pure _
      | some reply =>
          dsimp only
          split
          · exact ih _
          · split
            · exact .pure _
            · split <;> exact .pure _

/-- What two writes of a file need and leave, a download needs and leaves. -/
theorem holds_download {fair : Fairness} {P Q I : Files → Prop} {url : String} {file : Path}
    (pre : ∀ t, P t → I t) (post : ∀ t, Q t → I t)
    (first : ∀ content, Installing.Holds fair P (Installing.io (.writeFile file content))
      (fun _ => Q) I I)
    (again : ∀ content, Installing.Holds fair Q (Installing.io (.writeFile file content))
      (fun _ => Q) I I) :
    Installing.Holds fair P (Release.download url file) (fun _ => Q) I I := by
  have before : ∀ {α} {x : Installing α}, Installing.Keeps fair P x →
      Installing.Holds fair P x (fun _ => P) I I :=
    fun keeps => keeps.mono (fun _ h => h) (fun _ _ h => h) pre pre
  have after : ∀ {α} {x : Installing α}, Installing.Keeps fair Q x →
      Installing.Holds fair Q x (fun _ => Q) I I :=
    fun keeps => keeps.mono (fun _ h => h) (fun _ _ h => h) post post
  have inv : ∀ t, I t → I t := fun _ h => h
  unfold Release.download
  refine (before (.tell _)).bind (fun _ => ?_) inv
  split
  · exact .fail pre pre
  · refine (before (.lift (keeps_request _ _))).bind (fun r => ?_) inv
    cases r with
    | error reason => exact .fail pre pre
    | ok reply =>
        refine (first _).bind (fun _ => ?_) inv
        have asked : Installing.Keeps fair Q (Installing.lift (Program.ask .cancelled)) :=
          .look trivial
        refine (after asked).bind (fun cancelled => ?_) inv
        split
        · exact .fail post post
        · refine (again _).bind (fun _ => ?_) inv
          split
          · have waited : Installing.Keeps fair Q (Installing.lift (Program.ask .awaitCancel)) :=
              .look trivial
            exact (after waited).bind (fun _ => .fail post post) inv
          · exact .fail post post
          · split
            · exact .fail post post
            · exact after (.tell _)

/-- Where a directory is no file can be written. -/
theorem holds_write_placed {p : Path} {tail : List Path.Component} (hp : Tail p tail s)
    (none : ∀ n, tail ≠ [.name n]) (content : Octets) :
    Installing.Holds (s.Fair own) (fun t => s.Underway own kept before t ∧ s.Placed t)
      (Installing.io (.writeFile p content)) (fun _ _ => False) (s.Underway own kept before)
      (s.Underway own kept before) := by
  refine .io (fun h start fair => ?_) (fun t h => h.1) (fun _ _ h => h.elim) fun _ h => h
  obtain ⟨start, fs, placed⟩ := start
  rcases h.change_cases fun t => t.write (h.absolute p) content
    with ⟨e, refused, same⟩ | ⟨t, made, _, _⟩
  · refine ⟨fun a done => ?_, fun e' _ => ?_⟩
    · cases refused.symm.trans done
    · exact same ▸ start
  · exfalso
    obtain ⟨ns, executable, found, notDir, _⟩ := write_cases made
    rcases locate_tail start.sound start.calm hp (fun _ n same => absurd same (none n))
      (absolute_of_locate fair.cwd found) with rfl | ⟨n, same, _⟩ | ⟨es, _, dir⟩
    · exact notDir fs placed
    · exact none n same
    · exact notDir es dir

theorem tail_shape {n : String} (plain : '/' ∉ n.toList) :
    Path.parts n = [] ∨ Path.parts n = [.parent] ∨ ∃ m, Path.parts n = [.name m] ∧ IsName m := by
  rcases Path.parts_piece plain with nothing | up | ⟨itself, hn⟩
  · exact .inl nothing
  · exact .inr (.inl up)
  · exact .inr (.inr ⟨n, itself, hn⟩)

theorem tail_of_plain {n : String} (plain : '/' ∉ n.toList) :
    Tail (s.path / n) (Path.parts n) s :=
  ⟨Path.components_from s.absolute (Path.relative_of_plain plain), tail_shape plain⟩

/-- An archive of one file is unpacked beside itself. -/
theorem tail_unpacked {n : String} (hn : IsName n) :
    Tail ((s.path / n).withExtension "") (Path.parts (Path.cutExtension n).1) s := by
  have stem : '/' ∉ (Path.cutExtension n).1.toList := fun inside => hn.2 (Path.stem_subset inside)
  have asset : Path.parts (s.path / n).text = Path.parts s.path.text ++ [.name n] := by
    rw [Path.parts_join hn.relative, hn.parts]
  have path : Path.parts s.path.text = Path.parts servers.text ++ [.name name] := by
    rw [Site.path, Path.parts_join s.name_ordinary.relative, s.name_ordinary.parts]
  have ordinary : ∀ c ∈ Path.parts s.path.text, c.Ordinary := fun c hc =>
    Path.ordinary_of_mem_parts hc
  refine ⟨?_, tail_shape stem⟩
  rw [Path.withExtension_eq asset "", if_pos rfl, Path.components_from_ofComponents s.absolute,
    Path.reading_append, Path.reading_ordinary ordinary, ← List.append_assoc,
    Path.components_from_self s.absolute s.path]
  · have same : Path.origin s.cwd (s.path / n) = Path.origin s.cwd s.path := by
      rw [Path.origin, Path.isAbsolute_join hn.relative, Path.origin]
    have last : Path.reading [.name (Path.cutExtension n).1] = Path.parts (Path.cutExtension n).1 := by
      simp [Path.reading, Path.Component.text]
    rw [same, last]
  · intro c hc
    refine ordinary c (List.mem_of_head? ?_)
    rw [path] at hc ⊢
    cases hs : Path.parts servers.text with
    | nil => rwa [hs] at hc
    | cons d ds => rwa [hs] at hc

theorem assetName?_plain {url n : String} (h : Release.assetName? url = some n) : '/' ∉ n.toList := by
  unfold Release.assetName? at h
  split at h
  · cases h
  · cases h
  · next last =>
      cases h
      exact Path.plain_of_mem_split (List.mem_of_getLast? last)

theorem keeps_unpack {n : String} (hn : IsName n) (asset : n ∈ own)
    (stem : (Path.cutExtension n).1 ∈ own) :
    Installing.Keeps (s.Fair own) (s.Underway own kept before)
      (Release.unpack s.path (s.path / n)) := by
  unfold Release.unpack
  split
  · exact .bind (keeps_command _) fun _ => keeps_remove hn
  · exact .bind (keeps_command _) fun _ => keeps_remove hn
  · refine .bind (keeps_command _) fun _ => .io (keeps_allowRun (tail_unpacked hn) ?_)
    intro m same
    have plain : '/' ∉ (Path.cutExtension n).1.toList := fun inside => hn.2 (Path.stem_subset inside)
    rcases Path.parts_piece plain with nothing | up | ⟨itself, _⟩
    · rw [nothing] at same
      cases same
    · rw [up] at same
      cases same
    · rw [itself] at same
      cases same
      exact stem
  · refine .io (keeps_allowRun (tail_of_isName hn) ?_)
    rintro m same
    cases same
    exact asset

/-- The names that are listed in the directory are names. -/
theorem list_names {h : Host} (start : s.Underway own kept before h.files)
    (fair : s.Fair own _ h (.list s.path)) {names : List String}
    (listed : (h.answer (.list s.path)).1 = .ok names) : ∀ n ∈ names, IsName n := by
  have seen : h.files.list (h.absolute s.path) = .ok names := Host.look_eq listed
  unfold list find at seen
  cases found : h.files.locate true (h.absolute s.path) with
  | error e =>
      rw [found] at seen
      cases seen
  | ok ns =>
      rw [found] at seen
      simp only [bind, Except.bind] at seen
      have here : ns = s.place := by
        have tail : Tail s.path [] s := ⟨(List.append_nil _).symm, .inl rfl⟩
        rcases locate_tail start.sound start.calm tail (fun _ n same => by cases same)
          (absolute_of_locate fair.cwd found) with here | ⟨n, same, _⟩ | ⟨es, same, _⟩
        · exact here
        · cases same
        · cases same
      subst here
      cases there : h.files.get? s.place with
      | none => simp [there] at seen
      | some x =>
          cases x with
          | dir es =>
              simp only [there, Except.ok.injEq] at seen
              exact seen ▸ start.calm.names es there
          | file content executable => simp [there] at seen
          | link target => simp [there] at seen

theorem keeps_release_cleanup :
    Installing.Keeps (s.Fair own) (s.Underway own kept before) (Release.cleanup s.path) := by
  let listed : Except IoError (List String) → Files → Prop := fun r t =>
    s.Underway own kept before t ∧ ∀ names, r = .ok names → ∀ n ∈ names, IsName n
  have asked : Program.Holds (s.Fair own) (s.Underway own kept before)
      (Program.ask (.list s.path)) listed (s.Underway own kept before) := by
    refine .ask (fun _ h => h) fun h start fair => ?_
    have same : (h.answer (.list s.path)).2.files = h.files := h.files_look _
    rw [same]
    exact ⟨⟨start, fun names answer => list_names start fair answer⟩, start⟩
  refine Installing.Holds.bind (.lift asked fun _ _ h => h.1) (fun r => ?_) fun _ h => h
  cases r with
  | error e =>
      cases e <;> first
        | exact .pure (fun _ h => h.1) fun _ h => h.1
        | exact .fail (fun _ h => h.1) fun _ h => h.1
  | ok names =>
      refine .of_fact (fun t h => h.2 names rfl) fun named => ?_
      have cleared : Installing.Keeps (s.Fair own) (s.Underway own kept before) (do
          for n in names do
            if Release.Archive.ofName n ≠ .plain then Installing.remove (s.path / n)) := by
        refine .bind (.forEach fun n hn => ?_) fun _ => .pure _
        split
        · exact .bind (keeps_remove (named n hn)) fun _ => .pure _
        · exact .pure _
      exact cleared.mono (fun _ h => h.1) (fun _ _ h => h) (fun _ h => h) fun _ h => h

theorem holds_release_install (p : Package) (url : String)
    (hown : ∀ asset, Release.assetName? url = some asset →
      asset ∈ own ∧ (Path.cutExtension asset).1 ∈ own) :
    Installing.Holds (s.Fair own) (fun t => s.Underway own kept before t ∧ s.Placed t)
      (Release.install s.path (.binaryDownload p url)) (fun _ => s.Underway own kept before)
      (s.Underway own kept before) (s.Underway own kept before) := by
  have drop : ∀ t, s.Underway own kept before t ∧ s.Placed t → s.Underway own kept before t :=
    fun _ h => h.1
  have same : ∀ t, s.Underway own kept before t → s.Underway own kept before t := fun _ h => h
  cases hasset : Release.assetName? url with
  | none =>
      simp only [Release.install, hasset]
      exact .fail drop drop
  | some n =>
      simp only [Release.install, hasset]
      have plain := assetName?_plain hasset
      have tail := tail_of_plain (s := s) plain
      by_cases isName : IsName n
      · obtain ⟨asset, stem⟩ := hown n hasset
        have own_tail : ∀ m, Path.parts n = [.name m] → m ∈ own := by
          intro m parts
          rw [isName.parts] at parts
          cases parts
          exact asset
        have write : ∀ content, Installing.Keeps (s.Fair own) (s.Underway own kept before)
            (Installing.io (.writeFile (s.path / n) content)) :=
          fun content => .io (keeps_write tail own_tail content)
        refine (holds_download drop same ?_ write).bind (fun _ => ?_) same
        · exact fun content => (write content).mono drop (fun _ _ h => h) same same
        · have read : Installing.Keeps (s.Fair own) (s.Underway own kept before)
              (Installing.lift (Program.ask (.readFile (s.path / n)))) := .look trivial
          refine read.bind fun r => ?_
          split
          · exact keeps_unpack isName asset stem
          · exact keeps_failed _ _
      · have bad : ∀ m, Path.parts n ≠ [.name m] := by
          intro m parts
          rcases Path.parts_piece plain with nothing | up | ⟨_, ordinary⟩
          · cases nothing.symm.trans parts
          · cases up.symm.trans parts
          · exact isName ordinary
        have nothing : Installing.Holds (s.Fair own)
            (fun t => s.Underway own kept before t ∧ s.Placed t) (Release.download url (s.path / n))
            (fun _ _ => False) (s.Underway own kept before) (s.Underway own kept before) :=
          holds_download drop (fun _ h => h.elim) (holds_write_placed tail bad) fun _ => .never
        exact nothing.bind (fun _ => .never) same

theorem stays_release (m : InstallMethod)
    (hown : ∀ p url, m = .binaryDownload p url → ∀ asset, Release.assetName? url = some asset →
      asset ∈ own ∧ (Path.cutExtension asset).1 ∈ own) :
    s.Stays own kept before m (Release.backend s.path) := by
  refine ⟨fun t => s.Underway own kept before t ∧ s.Placed t, fun _ h => h.1, ?_, ?_,
    keeps_release_cleanup⟩
  · refine .io (fun h start fair => ?_) (fun _ h => h) (fun _ _ h => h.1) fun _ h => h
    have kept := keeps_makeDirs h start fair
    exact ⟨fun _ made => ⟨kept, makeDirs_place start fair made⟩, fun _ _ => kept⟩
  · cases m with
    | binaryDownload p url => exact holds_release_install p url (hown p url rfl)
    | _ => exact .fail (fun _ h => h.1) fun _ h => h.1

/-- Every backend leaves an attempt under way. -/
theorem stays_of_method {m : InstallMethod} {b : Backend}
    (chosen : Backend.ofMethod m s.path = .ok b) :
    s.Stays (ownFiles m) kept before m b := by
  unfold Backend.ofMethod at chosen
  split at chosen
  · next p =>
      split at chosen
      · next npm =>
          cases chosen
          exact stays_npm _ (by simp [ownFiles, npm])
      · cases chosen
        exact stays_cargo _
      · next pypi =>
          cases chosen
          exact stays_pip _ (by simp [ownFiles, pypi])
      · cases chosen
        exact stays_gem _
      · cases chosen
        exact stays_golang _
      · cases chosen
  · next p url =>
      cases chosen
      refine stays_release _ fun p' url' same asset named => ?_
      cases same
      simp [ownFiles, named]
  · cases chosen
    exact stays_checkout _
  · cases chosen

end Site

end LanguageHost.Install
