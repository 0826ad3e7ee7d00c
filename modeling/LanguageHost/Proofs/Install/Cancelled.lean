import LanguageHost.Proofs.Install.Interrupted
import LanguageHost.Proofs.Install.Steps

/-! What becomes of a cancellation while an install runs. It is not lost before the last look for one, and
the calls that tell of it decide that the install ends as cancelled; two of its parts do not tell: the query
of a Python package, and the request for a release. -/
namespace LanguageHost

/-! Cancellations stay. -/

theorem Host.isCancelled_play {h : Host} (cancelled : h.isCancelled = true) (mode : RunMode) (cwd : Path)
    (r : Running) (acts : List Act) : (h.play mode cwd r acts).2.1.isCancelled = true := by
  induction acts generalizing h r with
  | nil => exact cancelled
  | cons a rest ih =>
      have acted : (h.act cwd r a).1.isCancelled = true := by cases a <;> exact cancelled
      unfold play
      generalize h.act cwd r a = after at acted
      have settled : ∀ n, (after.1.settle n).isCancelled = true := by
        intro n
        simp only [settle, acted, Bool.true_or]
      dsimp only
      split
      · exact settled _
      · exact ih (settled _) _

theorem Host.isCancelled_enterLines {h : Host} (cancelled : h.isCancelled = true) (mode : RunMode)
    (lines : List String) : (h.enterLines mode lines).isCancelled = true := by
  cases mode with
  | reported => simp only [enterLines, settle, cancelled, Bool.true_or]
  | _ => exact cancelled

theorem Host.isCancelled_execute {h : Host} (cancelled : h.isCancelled = true) (c : Command)
    (mode : RunMode) : (h.execute c mode).2.isCancelled = true := by
  unfold execute
  split
  · exact cancelled
  · split
    · exact cancelled
    · next inv _ =>
        have begun : { h with started := h.started ++ [inv] }.isCancelled = true := cancelled
        have played := isCancelled_play begun mode inv.cwd ⟨.empty, .empty, []⟩
          (h.programs inv h.files).acts
        dsimp only
        split
        · exact isCancelled_enterLines played _ _
        · split
          · rfl
          · exact isCancelled_enterLines played _ _

theorem Host.isCancelled_look (h : Host) (f : Files → Except IoError α) :
    (h.look f).2.isCancelled = h.isCancelled := by
  unfold look
  split <;> rfl

theorem Host.isCancelled_change (h : Host) (f : Files → Except IoError Files) :
    (h.change f).2.isCancelled = h.isCancelled := by
  unfold change
  split
  · rfl
  · split <;> rfl

theorem Host.isCancelled_answer {h : Host} (cancelled : h.isCancelled = true) (c : Call β) :
    (h.answer c).2.isCancelled = true := by
  cases c with
  | readFile p => exact (h.isCancelled_look _).trans cancelled
  | list p => exact (h.isCancelled_look _).trans cancelled
  | run c mode => exact isCancelled_execute cancelled c mode
  | tell line => simp only [answer, settle, cancelled, Bool.true_or]
  | awaitCancel => rfl
  | kind p follow => exact cancelled
  | canonical p => exact cancelled
  | envVar name => exact cancelled
  | accountHome => exact cancelled
  | workingDir => exact cancelled
  | findProgram name => exact cancelled
  | cancelled => exact cancelled
  | fetch url agent => exact cancelled
  | now => exact cancelled
  | _ => exact (h.isCancelled_change _).trans cancelled

/-- Nobody takes a cancellation back between two calls. -/
def Lasting (log : List Occasion) : Prop :=
  log.IsChain fun m n => m.after.isCancelled = true → n.host.isCancelled = true

/-- Neither before nor after the call is there a cancellation. -/
def Occasion.Free (m : Occasion) : Prop := m.host.isCancelled = false ∧ m.after.isCancelled = false

theorem Occasion.free_of_after {m : Occasion} (free : m.after.isCancelled = false) : m.Free := by
  refine ⟨?_, free⟩
  cases cancelled : m.host.isCancelled with
  | false => rfl
  | true => cases free.symm.trans (Host.isCancelled_answer cancelled m.call)

/-- Where there is no cancellation there was none before. -/
theorem Lasting.free {before after : List Occasion} {look : Occasion}
    (lasting : Lasting (before ++ look :: after)) (free : look.host.isCancelled = false) :
    ∀ m ∈ before, m.Free := by
  induction before with
  | nil => exact fun _ => nofun
  | cons m before ih =>
      obtain ⟨next, rest⟩ := List.isChain_cons.mp (show Lasting (m :: (before ++ look :: after)) from lasting)
      have later := ih rest
      have following : ∀ n ∈ (before ++ look :: after).head?, n.host.isCancelled = false := by
        cases before with
        | nil =>
            rintro n ⟨⟩
            exact free
        | cons n before =>
            rintro _ ⟨⟩
            exact (later n List.mem_cons_self).1
      have here : m.Free := by
        obtain ⟨n, head⟩ : ∃ n, n ∈ (before ++ look :: after).head? := by
          cases before <;> exact ⟨_, rfl⟩
        refine Occasion.free_of_after (Bool.eq_false_iff.mpr fun cancelled => ?_)
        cases (following n head).symm.trans (next n head cancelled)
      intro m' there
      rcases List.mem_cons.mp there with rfl | there
      · exact here
      · exact later m' there

end LanguageHost

namespace LanguageHost.Install
open Files
open Program (Logged)
open Installing (Tells)

/-! What the steps of an install tell. -/

section tells
variable {muffled : Prop} {log : List Occasion} {t t' : Files} {o o' : Operation}

theorem tells_setAside (dir aside : Path) : Tells muffled (setAside dir aside) := by
  have moves : Tells muffled (do
      if ← Installing.exists? dir then
        Installing.io (.rename dir aside)
        pure true
      else pure false : Installing Bool) := by
    refine .bind (.exists? dir) fun there => ?_
    cases there with
    | true => exact .bind (.io trivial) fun _ => .pure _
    | false => exact .pure _
  refine .bind (.exists? aside) fun left => ?_
  cases left with
  | false => exact moves
  | true =>
      refine .bind (.exists? dir) fun there => ?_
      cases there with
      | true => exact .bind (.remove _) fun _ => moves
      | false => exact .bind (.io trivial) fun _ => moves

theorem tells_perform {m : InstallMethod} {b : Backend} (heard : Heard muffled m b) (e : RegistryEntry)
    (version : String) (platform : Platform) : Tells muffled (perform b e m version platform) := by
  refine .bind (.update _) fun _ => .bind heard.prepare fun _ => .bind (.update _) fun _ => ?_
  refine .bind heard.install fun _ => .bind (.update _) fun _ => ?_
  cases platform.expand e.executables.primary version with
  | error reason => exact .fail nofun
  | ok primary =>
      refine .bind (.exists? _) fun there => ?_
      cases there with
      | true => exact .pure _
      | false => exact .fail nofun

variable {configs : ServerConfigs}

theorem deaf_io {c : Call (Except IoError α)} (deaf : c.Deaf) : (Program.io c).run.Deaf := by
  refine .bind (.ask deaf) fun r => ?_
  cases r <;> exact .pure _

theorem deaf_publish (p : Path) (text : String) : (Manifest.publish p text).run.Deaf := by
  have replaced : Program.Deaf (do
      Program.io (Program.writeText (Manifest.draftPath p) text)
      Program.io (.rename (Manifest.draftPath p) p) : Program.Fallible Unit).run := by
    refine Program.Deaf.bind (deaf_io (c := Program.writeText _ text) trivial) fun r => ?_
    cases r with
    | error error => exact .pure _
    | ok u => exact deaf_io (c := .rename _ p) trivial
  unfold Manifest.publish
  cases p.parent? with
  | none => exact replaced
  | some dir =>
      refine Program.Deaf.bind (deaf_io (c := .makeDirs dir) trivial) fun r => ?_
      cases r with
      | error error => exact .pure _
      | ok u => exact replaced

theorem deaf_register (e : RegistryEntry) (m : InstallMethod) (version : String) (b : ServerBinary) :
    (register configs e m version b).run.Deaf := by
  refine Program.Deaf.bind (.bind (.ask trivial) fun _ => .pure _) ?_
  rintro (error | date)
  · exact .pure _
  · refine Program.Deaf.bind ?_ fun r => by cases r <;> exact .pure _
    unfold Manifest.save
    split
    · exact .pure _
    · exact deaf_publish _ _

end tells

namespace Sample

def release : RegistryEntry :=
  { entry with source := ⟨"pkg:github/o/n@v1?repository_url=http://[::1]/o/n", some "a", none⟩ }

def asset : Package :=
  { source with
    id := "pkg:github/o/n@v1?repository_url=http://[::1]/o/n", repository := some "http://[::1]/o/n" }

def link : String := "http://[::1]/o/n/releases/download/v1/a"

theorem method_release : release.method installer.platform = .binaryDownload asset link := by cbv

theorem planned_release : plan installer.servers release installer.platform =
    .ok ⟨.binaryDownload asset link, asset, Release.backend ⟨"/s/n"⟩⟩ := by
  unfold plan
  rw [method_release]
  rfl

theorem assetName_link : Release.assetName? link = some "a" := by cbv

def address : Url where
  scheme := "http"
  authority := some ⟨"", none, "[::1]", none⟩
  path := .segments ["o", "n", "releases", "download", "v1", "a"]
  query := none
  fragment := none

theorem target_link : Release.target link = .ok address := by cbv


theorem removeTree_begun : begun.removeTree (site.cwd / site.path.text) = .ok cleared :=
  Site.place_slot.removeTree_eq sound_begun.extends_ground rfl rfl

theorem rename_cleared : cleared.rename (site.cwd / site.asidePath.text) (site.cwd / site.path.text) =
    .ok files :=
  fits.slot.rename_eq (extends_empty _) rfl Site.place_slot (by decide) rfl

theorem list_begun : begun.list (site.cwd / site.path.text) = .ok [] := by cbv

theorem kind_begun : Host.kind begun (site.cwd / site.path.text) false = .ok .directory :=
  Site.place_slot.kind_eq sound_begun.extends_ground sound_begun.base (by rintro target ⟨⟩)


/-- Somebody has cancelled. -/
def stopped (t : Files) : Host := { host t with isCancelled := true }

def leaving : List Occasion :=
  [⟨host files, .kind site.asidePath true⟩, ⟨host files, .kind site.path true⟩,
    ⟨host files, .rename site.path site.asidePath⟩]

/-- Somebody cancels while the request is under way, and nobody replies to it. -/
def requesting : List Occasion :=
  [⟨host begun, .tell ("Downloading " ++ link)⟩, ⟨stopped begun, .fetch address.text Release.agent⟩]

def performing : List Occasion := ⟨host cleared, .makeDirs site.path⟩ :: requesting

def returning : List Occasion :=
  [⟨stopped begun, .list site.path⟩, ⟨stopped begun, .kind site.path false⟩,
    ⟨stopped begun, .removeTree site.path⟩, ⟨stopped cleared, .rename site.asidePath site.path⟩]

def moments : List Occasion := leaving ++ (performing ++ returning)

def reason : String := "error sending request" ++ (" for url (" ++ address.text ++ ")")

theorem logged_setAside (o : Operation) : Logged leaving files
    ((setAside site.path site.asidePath).run.run o) (.ok true, o) cleared := by
  have aside : (host files).answer (.kind site.asidePath true) = (.error .notFound, host files) :=
    Prod.ext kind_aside rfl
  have place : (host files).answer (.kind site.path true) = (.ok .directory, host files) :=
    Prod.ext kind_path rfl
  have moved : (host files).answer (.rename site.path site.asidePath) =
      (.ok (), { host files with operations := 1, files := cleared }) :=
    Host.rename_made rfl rename_files
  refine .call rfl ?_
  rw [aside]
  refine .call rfl ?_
  rw [place]
  refine .call rfl ?_
  rw [moved]
  exact .done

theorem logged_download (o : Operation) : ∃ o', Logged requesting begun
    ((Release.download link ⟨"/s/n/a"⟩).run.run o) (.error (.download link reason), o') begun := by
  have told : Logged [⟨host begun, .tell ("Downloading " ++ link)⟩] begun
      ((Installing.tell ("Downloading " ++ link)).run.run o)
      (.ok (), o.addLine ("Downloading " ++ link)) begun := .call rfl .done
  have asked : Logged [⟨stopped begun, .fetch address.text Release.agent⟩] begun
      (Release.request Release.redirectLimit address) (.error reason) begun := by
    unfold Release.redirectLimit Release.request
    exact .call rfl .done
  unfold Release.download
  rw [target_link]
  exact ⟨_, Installing.logged_seq told (Installing.logged_seq (Installing.logged_of_lift asked) .done)⟩

theorem logged_install_release (o : Operation) : ∃ o', Logged requesting begun
    ((Release.install ⟨"/s/n"⟩ (.binaryDownload asset link)).run.run o)
    (.error (.download link reason), o') begun := by
  obtain ⟨o', run⟩ := logged_download o
  simp only [Release.install, assetName_link]
  exact ⟨o', Installing.logged_stop run⟩

theorem logged_perform (o : Operation) : ∃ o', Logged performing cleared
    ((perform (Release.backend ⟨"/s/n"⟩) release (.binaryDownload asset link) "v1"
      installer.platform).run.run o) (.error (.download link reason), o') begun := by
  have made : (host cleared).answer (.makeDirs site.path) =
      (.ok (), { host cleared with operations := 1, files := begun }) :=
    Host.makeDirs_made rfl makeDirs_cleared
  have prepared : ∀ o, Logged [⟨host cleared, .makeDirs site.path⟩] cleared
      ((Release.backend ⟨"/s/n"⟩).prepare.run.run o) (.ok (), o) begun := by
    intro o
    refine .call rfl ?_
    rw [made]
    exact .done
  obtain ⟨o', installed⟩ := logged_install_release ((o.enter .preparing 10).enter .installing 30)
  exact ⟨o', Installing.logged_update (Installing.logged_seq (prepared _) (Installing.logged_update (Installing.logged_stop installed)))⟩

theorem logged_rollback (o : Operation) : Logged returning begun
    ((rollback (Release.backend ⟨"/s/n"⟩) site.path (some site.asidePath)).run.run o) (.ok (), o)
    files := by
  have absolute : ∀ t, (stopped t).absolute site.path = site.cwd / site.path.text :=
    fun t => absolute_of_ne Site.path_ne_empty
  have listed : (stopped begun).answer (.list site.path) =
      (.ok [], { stopped begun with operations := 1 }) := by
    change (begun.list _, _) = _
    rw [absolute, list_begun]
    rfl
  have seen : (stopped begun).answer (.kind site.path false) = (.ok .directory, stopped begun) :=
    Prod.ext kind_begun rfl
  have removed : (stopped begun).answer (.removeTree site.path) =
      (.ok (), { stopped begun with operations := 1, files := cleared }) := by
    refine Host.change_made (h := stopped begun) (f := fun t => t.removeTree _) rfl ?_
    exact removeTree_begun
  have back : (stopped cleared).answer (.rename site.asidePath site.path) =
      (.ok (), { stopped cleared with operations := 1, files := files }) :=
    Host.rename_made rfl rename_cleared
  refine .call rfl ?_
  rw [listed]
  refine .call rfl ?_
  rw [seen]
  refine .call rfl ?_
  rw [removed]
  refine .call rfl ?_
  rw [back]
  exact .done

theorem logged_moments : ∃ i', Logged moments files (installer.install release)
    (.error (.download link reason), i') files := by
  obtain ⟨o', performed⟩ := logged_perform (.start "n")
  have tried : Logged performing cleared ((tryCatch (Except.ok <$> attempt installer.configs release
      ⟨.binaryDownload asset link, asset, Release.backend ⟨"/s/n"⟩⟩ installer.platform)
      fun error => pure (.error error)).run.run (.start "n"))
      (.ok (.error (.download link reason)), o') begun := by
    have attempted : Logged performing cleared ((attempt installer.configs release
        ⟨.binaryDownload asset link, asset, Release.backend ⟨"/s/n"⟩⟩ installer.platform).run.run
        (.start "n")) (.error (.download link reason), o') begun := Installing.logged_stop performed
    rw [Installing.run_tryCatch, Installing.run_map, ← List.append_nil performing]
    refine Logged.bind (a := (.error (.download link reason), o')) ?_ .done
    rw [← List.append_nil performing]
    exact Logged.bind attempted .done
  have ran : Logged moments files ((run installer.servers installer.configs release installer.platform).run.run
      (.start "n")) (.error (.download link reason), o') files := by
    unfold run
    rw [planned_release]
    refine Installing.logged_seq (logged_setAside _) (Installing.logged_seq tried ?_)
    rw [← List.append_nil returning]
    exact Installing.logged_seq (logged_rollback _) .done
  let ended : Except Error (ServerBinary × ServerConfigs) := .error (.download link reason)
  refine ⟨{ installer with operation := some (o'.finish ended) }, ?_⟩
  unfold Installer.install Installer.reserve
  rw [← List.append_nil moments]
  exact ran.bind .done

theorem lasting_moments : Lasting moments := by
  have moved : ∀ t f, ((host t).change f).2.isCancelled ≠ true :=
    fun t f cancelled => nomatch ((host t).isCancelled_change f).symm.trans cancelled
  refine .cons_cons nofun (.cons_cons nofun (.cons_cons ?_ (.cons_cons ?_ (.cons_cons nofun ?_))))
  · exact fun cancelled => absurd cancelled (moved _ _)
  · exact fun cancelled => absurd cancelled (moved _ _)
  · refine .cons_cons (fun _ => rfl) (.cons_cons (fun _ => rfl) (.cons_cons (fun _ => rfl) ?_))
    exact .cons_cons (fun _ => rfl) (.singleton _)

end Sample

end LanguageHost.Install
