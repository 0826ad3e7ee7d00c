import LanguageHost.Proofs.Files.Leaf
import LanguageHost.Proofs.Install.Pinned
import LanguageHost.Proofs.Package.Resolution
import LanguageHost.Proofs.Package.Template

/-! The asset of a release and the program that is looked for. The name of the one comes from the asset
template, by way of a URL, the name of the other from the entry; where the templates agree, up to the ending
of a compressed file, both name one file, and it is what was downloaded. -/
namespace LanguageHost

/-! What a download does. -/

namespace Release
open Installing (gives_bind_iff gives_io_iff gives_ask_iff gives_lift_iff gives_tell not_gives_fail)

theorem run_fetch (url agent : String) (h : Host) :
    (Program.ask (.fetch url agent)).run h = (h.network url agent, h) := rfl

/-- A request changes nothing on the machine, and is answered by the network alone. -/
theorem run_request (hops : Nat) (u : Url) {h h' : Host} (same : h'.network = h.network) :
    (request hops u).run h' = (((request hops u).run h).1, h') := by
  induction hops generalizing u with
  | zero =>
      unfold request
      simp only [Program.run_bind, run_fetch, same]
      cases h.network u.text agent with
      | none => rfl
      | some reply =>
          dsimp only
          cases redirect? u reply with
          | some next => rfl
          | none =>
              dsimp only
              split
              · rfl
              · split <;> rfl
  | succ hops ih =>
      unfold request
      simp only [Program.run_bind, run_fetch, same]
      cases h.network u.text agent with
      | none => rfl
      | some reply =>
          dsimp only
          cases redirect? u reply with
          | some next => exact ih next
          | none =>
              dsimp only
              split
              · rfl
              · split <;> rfl

section download
variable {url : String} {file : Path} {s s' : Operation × Host}

theorem change_of_gives {c : Call (Except IoError Unit)} {a : Unit} (f : Files → Except IoError Files)
    (changes : s.2.answer c = s.2.change f) (given : (Installing.io c).Gives s a s') :
    f s.2.files = .ok s'.2.files := by
  obtain ⟨answer, -⟩ := gives_io_iff.mp given
  rw [changes] at answer
  rcases s.2.change_cases f with ⟨e, refused, -⟩ | ⟨t, made, -, files⟩
  · rw [answer] at refused
    cases refused
  · rw [answer] at files
    rw [made, files]

theorem write_of_gives {content : Octets} {a : Unit}
    (given : (Installing.io (.writeFile file content)).Gives s a s') :
    s.2.files.write (s.2.absolute file) content = .ok s'.2.files :=
  change_of_gives (fun t => t.write (s.2.absolute file) content) rfl given

/-- A download that goes well has emptied the file, and has written the body of the reply to it. -/
theorem writes_of_download (given : (download url file).Gives s () s') : ∃ u reply t,
    target url = .ok u ∧ ((request redirectLimit u).run s.2).1 = .ok reply ∧ reply.body ≠ [] ∧
      s.2.files.write (s.2.absolute file) [] = .ok t ∧
      t.write (s.2.absolute file) reply.body = .ok s'.2.files := by
  unfold download at given
  obtain ⟨⟨⟩, s₁, told, given⟩ := gives_bind_iff.mp given
  obtain ⟨-, rfl⟩ := told.unique (gives_tell s)
  cases sent : target url with
  | error reason =>
      rw [sent] at given
      exact absurd given not_gives_fail
  | ok u =>
      rw [sent] at given
      obtain ⟨r, s₂, asked, given⟩ := gives_bind_iff.mp given
      obtain ⟨ran, -⟩ := gives_lift_iff.mp asked
      have replied := @run_request redirectLimit u s.2 (s.2.answer (.tell ("Downloading " ++ url))).2 rfl
      obtain ⟨answered, still⟩ := Prod.mk.inj (replied.symm.trans ran)
      cases r with
      | error reason => exact absurd given not_gives_fail
      | ok reply =>
          obtain ⟨⟨⟩, s₃, emptied, given⟩ := gives_bind_iff.mp given
          obtain ⟨cancelled, s₄, looked, given⟩ := gives_bind_iff.mp given
          obtain ⟨look, -⟩ := gives_ask_iff.mp looked
          have same : s₄.2 = s₃.2 := (congrArg Prod.snd look).symm
          have first := write_of_gives emptied
          have here : s₂.2.absolute file = s.2.absolute file :=
            Host.absolute_eq (asked.fixed.trans told.fixed) file
          have there : s₄.2.absolute file = s.2.absolute file :=
            Host.absolute_eq (looked.fixed.trans (emptied.fixed.trans (asked.fixed.trans told.fixed))) file
          rw [here, ← still] at first
          cases cancelled with
          | true => exact absurd given not_gives_fail
          | false =>
              obtain ⟨⟨⟩, s₅, written, given⟩ := gives_bind_iff.mp given
              have second := write_of_gives written
              rw [there, same] at second
              cases ending : reply.ending with
              | stalled =>
                  rw [ending] at given
                  obtain ⟨_, _, -, given⟩ := gives_bind_iff.mp given
                  exact absurd given not_gives_fail
              | broken reason =>
                  rw [ending] at given
                  exact absurd given not_gives_fail
              | complete =>
                  rw [ending] at given
                  by_cases empty : reply.body.isEmpty = true
                  · change (if _ then _ else _ : Installing Unit).Gives _ _ _ at given
                    rw [if_pos empty] at given
                    exact absurd given not_gives_fail
                  · change (if _ then _ else _ : Installing Unit).Gives _ _ _ at given
                    rw [if_neg empty] at given
                    obtain ⟨-, rfl⟩ := given.unique (gives_tell _)
                    exact ⟨u, reply, _, rfl, answered, by simpa using empty, first, second⟩

end download

/-! Names of assets, and of what they hold. -/

theorem Archive.ofName_plain {name : String}
    (other : ∀ ending ∈ [".tar.gz", ".tgz", ".zip", ".gz"], ¬ Text.endsWith ending name) :
    Archive.ofName name = .plain := by
  simp only [List.mem_cons, List.not_mem_nil, or_false, forall_eq_or_imp, forall_eq] at other
  obtain ⟨tar, tgz, zip, gz⟩ := other
  unfold Archive.ofName
  rw [if_neg (by simp [tar, tgz]), if_neg zip, if_neg gz]

theorem endsWith_gz (ending name : String) :
    Text.endsWith (ending ++ ".gz") (name ++ ".gz") = Text.endsWith ending name := by
  unfold Text.endsWith
  rw [String.toList_append, String.toList_append, List.reverse_append, List.reverse_append]
  rfl

theorem reverse_gz (name : String) :
    (name ++ ".gz").toList.reverse = ['z', 'g'] ++ '.' :: name.toList.reverse := by
  rw [String.toList_append, List.reverse_append]
  rfl

theorem Archive.ofName_gzip {name : String} (other : ¬ Text.endsWith ".tar" name) :
    Archive.ofName (name ++ ".gz") = .gzip := by
  have tar : Text.endsWith ".tar.gz" (name ++ ".gz") = Text.endsWith ".tar" name := endsWith_gz ".tar" name
  have gz : Text.endsWith ".gz" (name ++ ".gz") = true := endsWith_gz "" name
  have apart {ending : String} (different : Text.afterStart? ending.toList.reverse
      (['z', 'g'] ++ '.' :: name.toList.reverse) = none) : Text.endsWith ending (name ++ ".gz") = false := by
    unfold Text.endsWith
    rw [reverse_gz, different]
    rfl
  have tgz : Text.endsWith ".tgz" (name ++ ".gz") = false := apart rfl
  have zip : Text.endsWith ".zip" (name ++ ".gz") = false := apart rfl
  unfold Archive.ofName
  rw [if_neg (by simp [tar, tgz, other]), if_neg (by simp [zip]), if_pos gz]

theorem assetName?_eq {file : String} (ne : file ≠ "") (plain : '/' ∉ file.toList) (base : String) :
    assetName? (base ++ "/" ++ file) = some file := by
  have single : Text.split '/' file = [file] := by
    rw [Text.split, Text.fields_of_not_mem plain, List.map_singleton, String.ofList_toList]
  unfold assetName?
  rw [Path.split_append, single, List.getLast?_concat]
  split
  · next none => cases none
  · next empty => exact absurd (Option.some.inj empty) ne
  · next same => exact same.symm

theorem assetName?_releaseUrl {file : String} (ne : file ≠ "") (plain : '/' ∉ file.toList)
    (repository tag : String) : assetName? (InstallMethod.releaseUrl repository tag file) = some file := by
  unfold InstallMethod.releaseUrl
  dsimp only
  split
  · have place : "/releases/latest/download/" = "/releases/latest/download" ++ "/" := by decide
    rw [place, ← String.append_assoc]
    exact assetName?_eq ne plain _
  · exact assetName?_eq ne plain _

theorem cutExtension_gz {name : String} (ne : name ≠ "") :
    Path.cutExtension (name ++ ".gz") = (name, some "gz") := by
  have filled : name.toList.reverse.isEmpty = false := by simpa using ne
  unfold Path.cutExtension
  dsimp only
  rw [reverse_gz, Text.cut?_append (by decide)]
  dsimp only
  rw [filled, if_neg (by decide), List.reverse_reverse, String.ofList_toList]
  rfl

/-- How an asset holds a program. -/
inductive Packing where
  | bare
  | gzipped
deriving DecidableEq, Repr

namespace Packing

/-- What the name of the asset has behind the name of the program. -/
def ending : Packing → String
  | bare => ""
  | gzipped => ".gz"

/-- What an asset holds, where `unzip` tells what is compressed in some octets. -/
def held? (unzip : Octets → Option Octets) : Packing → Octets → Option Octets
  | bare, content => some content
  | gzipped, content => unzip content

/-- A name for a program: that of a file, which is taken for no archive. -/
structure Names (k : Packing) (name : String) : Prop where
  proper : name ∉ ["", ".", ".."]
  plain : '/' ∉ name.toList
  archive : ∀ ending ∈ [".tar.gz", ".tgz", ".zip", ".gz"], ¬ Text.endsWith ending name
  tar : k = gzipped → ¬ Text.endsWith ".tar" name

variable {k : Packing} {name : String}

theorem Names.ne (h : k.Names name) : name ≠ "" := by
  rintro rfl
  exact h.proper (by decide)

theorem Names.ordinary (h : k.Names name) : (Path.Component.name name).Ordinary := by
  obtain ⟨empty, here, up⟩ : name ≠ "" ∧ name ≠ "." ∧ name ≠ ".." := by
    simpa only [List.mem_cons, List.not_mem_nil, or_false, not_or] using h.proper
  refine ⟨?_, h.plain⟩
  change Path.component? name = _
  unfold Path.component?
  rw [if_neg (not_or.mpr ⟨empty, here⟩), if_neg up]

theorem Names.asset_plain (h : k.Names name) : '/' ∉ (name ++ k.ending).toList := by
  rw [String.toList_append, List.mem_append, not_or]
  refine ⟨h.plain, ?_⟩
  cases k <;> decide

theorem Names.asset_ne (h : k.Names name) : name ++ k.ending ≠ "" := by
  simp [h.ne]

theorem Names.asset_ordinary (h : k.Names name) : (Path.Component.name (name ++ k.ending)).Ordinary := by
  cases k with
  | bare =>
      rw [ending, String.append_empty]
      exact h.ordinary
  | gzipped =>
      refine ⟨Path.component?_of_long ?_, h.asset_plain⟩
      have filled : name.length ≠ 0 := by simpa using h.ne
      have three : ".gz".length = 3 := by decide
      change 2 < (name ++ ".gz").length
      rw [String.length_append]
      omega

end Packing

end Release

/-! Unpacking. -/

/-- A file with the ending of a compressed one. -/
def Path.zipped (p : Path) : Path := ⟨p.text ++ ".gz"⟩

/-- What is run to have a compressed file replaced by what it holds. -/
def Release.gunzip (file : Path) : Command := .ofArgs "gzip" ["-df", file.zipped.text]

/-- On the machine the command goes well, and does what it is for: the file is then there, no link, with what
was compressed, where `unzip` tells what is compressed in some octets. -/
structure Host.Gunzips (unzip : Octets → Option Octets) (h : Host) (file : Path) : Prop where
  ends : (h.answer (.run (Release.gunzip file) .reported)).1.outcome = .ok ()
  regular : Host.kind (h.answer (.run (Release.gunzip file) .reported)).2.files (h.absolute file) false =
    .ok .file
  replaces : ∀ content executable, h.files.find (h.absolute file.zipped) = .ok (.file content executable) →
    ∃ held executable', unzip content = some held ∧
      (h.answer (.run (Release.gunzip file) .reported)).2.files.find (h.absolute file) =
        .ok (.file held executable')

namespace Release
open Files
open Installing (gives_bind_iff gives_io_iff gives_ask_iff gives_command not_gives_fail)

variable {unzip : Octets → Option Octets} {k : Packing} {dir : Path} {primary : String}

theorem asset_gzipped (named : Packing.gzipped.Names primary) :
    dir / (primary ++ Packing.gzipped.ending) = (dir / primary).zipped := by
  have asset : (Path.mk (primary ++ ".gz")).isAbsolute = false := Path.relative_of_plain named.asset_plain
  have program : (Path.mk primary).isAbsolute = false := Path.relative_of_plain named.plain
  change Path.join dir (primary ++ ".gz") = ⟨(Path.join dir primary).text ++ ".gz"⟩
  simp only [Path.join, asset, program, Bool.false_eq_true, if_false]
  split
  · rfl
  · split
    · simp only [String.append_assoc]
    · simp only [String.append_assoc]

/-- The name of a compressed asset less its ending is that of the program. -/
theorem withExtension_gzipped (named : Packing.gzipped.Names primary) :
    (dir / (primary ++ Packing.gzipped.ending)).withExtension "" =
      Path.ofComponents (dir / primary).components := by
  have asset := Path.components_child (p := dir) named.asset_ordinary
  have name : (dir / (primary ++ Packing.gzipped.ending)).fileName? = some (primary ++ ".gz") := by
    unfold Path.fileName?
    rw [asset, List.getLast?_concat]
    rfl
  unfold Path.withExtension
  rw [name, asset, List.dropLast_concat, Path.components_child named.ordinary]
  dsimp only
  rw [cutExtension_gz named.ne, if_pos rfl]

theorem ofName_asset (named : k.Names primary) : Archive.ofName (primary ++ k.ending) =
    match k with
    | .bare => .plain
    | .gzipped => .gzip := by
  cases k with
  | bare =>
      rw [Packing.ending, String.append_empty]
      exact Archive.ofName_plain named.archive
  | gzipped => exact Archive.ofName_gzip (named.tar rfl)

theorem allowRun_of_gives {s s' : Operation × Host} {file : Path} {a : Unit}
    (given : (Installing.io (.allowRun file)).Gives s a s') :
    s.2.files.allowRun (s.2.absolute file) = .ok s'.2.files :=
  change_of_gives (fun t => t.allowRun (s.2.absolute file)) rfl given

theorem gives_allowRun {s : Operation × Host} {file : Path} {t : Files} (quiet : ∀ n, s.2.faults n = none)
    (made : s.2.files.allowRun (s.2.absolute file) = .ok t) :
    ∃ s', (Installing.io (.allowRun file)).Gives s () s' :=
  ⟨(s.1, { s.2 with operations := s.2.operations + 1, files := t }), gives_io_iff.mpr
    ⟨Host.change_made (f := fun t => t.allowRun (s.2.absolute file)) (quiet _) made, rfl⟩⟩

/-- A file below a directory may be named by what is written of its components. -/
theorem allowRun_rewritten {h : Host} {name : String} {x : Files} (ordinary : (Path.Component.name name).Ordinary)
    (abs : h.cwd.isAbsolute = true) (there : h.files.find (h.absolute (dir / name)) = .ok x) :
    h.files.allowRun (h.absolute (Path.ofComponents (dir / name).components)) =
      h.files.allowRun (h.absolute (dir / name)) := by
  obtain ⟨place, located, -⟩ := locate_of_find there
  have some : Path.parts (dir / name).text ≠ [] := by
    rw [Path.parts_child ordinary]
    exact List.concat_ne_nil _ _
  have written := check_of_locate located
  rw [Host.absolute_child ordinary] at written
  rw [Host.absolute_child ordinary, absolute_of_ne (Path.rewritten_ne_empty some)]
  unfold allowRun
  rw [locate_rewritten abs some written]

/-- Unpacking the asset goes well unless an operation fails, and makes a program of it: what it holds is
there, may be run, and is no link, unless the asset was one. -/
theorem gives_unpack {s : Operation × Host} {body : Octets} {executable : Bool} (named : k.Names primary)
    (abs : s.2.cwd.isAbsolute = true)
    (there : s.2.files.find (s.2.absolute (dir / (primary ++ k.ending))) = .ok (.file body executable))
    (unzips : k = .gzipped → s.2.Gunzips unzip (dir / primary)) :
    ∃ content, k.held? unzip body = some content ∧
      ((∀ n, s.2.faults n = none) → ∃ s', (unpack dir (dir / (primary ++ k.ending))).Gives s () s') ∧
      ∀ s', (unpack dir (dir / (primary ++ k.ending))).Gives s () s' →
        s'.2.files.find (s'.2.absolute (dir / primary)) = .ok (.file content true) ∧
        ∀ target, s'.2.HasChild dir primary (.link target) →
          s.2.HasChild dir (primary ++ k.ending) (.link target) := by
  have name : (dir / (primary ++ k.ending)).fileName?.getD "" = primary ++ k.ending := by
    rw [Path.fileName?, Path.components_child named.asset_ordinary, List.getLast?_concat]
    rfl
  unfold unpack
  rw [name, ofName_asset named]
  cases k with
  | bare =>
      dsimp only
      rw [Packing.ending, String.append_empty] at there ⊢
      obtain ⟨t, allowed, found, filed⟩ :=
        find_allowRun (Host.components_absolute_child named.ordinary abs) there
      obtain ⟨place, located, -⟩ := locate_of_find there
      refine ⟨body, rfl, fun quiet => gives_allowRun quiet allowed, fun s' given => ?_⟩
      obtain rfl := Except.ok.inj (allowed.symm.trans (allowRun_of_gives given))
      refine ⟨Host.absolute_eq given.fixed _ ▸ found, fun target link => ?_⟩
      exact Host.hasChild_of_filed named.ordinary abs located filed given.fixed link
  | gzipped =>
      dsimp only
      rw [asset_gzipped named] at there ⊢
      obtain ⟨ends, regular, replaces⟩ := unzips rfl
      obtain ⟨content, executable', held, replaced⟩ := replaces _ _ there
      obtain ⟨o, ran⟩ := gives_command ends
      have rewritten : (dir / primary).zipped.withExtension "" = Path.ofComponents (dir / primary).components :=
        asset_gzipped named ▸ withExtension_gzipped named
      generalize (s.2.answer (.run (gunzip (dir / primary)) .reported)).2 = g at regular replaced ran
      have abs' : g.cwd.isAbsolute = true := (congrArg _ (Host.cwd_eq ran.fixed)).trans abs
      rw [← Host.absolute_eq ran.fixed] at regular replaced
      obtain ⟨t, allowed, found, filed⟩ :=
        find_allowRun (Host.components_absolute_child named.ordinary abs') replaced
      rw [← allowRun_rewritten named.ordinary abs' replaced, ← rewritten] at allowed
      obtain ⟨place, located, -⟩ := locate_of_find replaced
      refine ⟨content, held, fun quiet => ?_, fun s' given => ?_⟩
      · have quiet' (n) : g.faults n = none := (congrFun (Host.faults_eq ran.fixed) n).trans (quiet n)
        obtain ⟨s', given⟩ := @gives_allowRun (o, g) _ t quiet' allowed
        exact ⟨s', ran.bind given⟩
      · obtain ⟨⟨⟩, s₁, first, given⟩ := gives_bind_iff.mp given
        obtain ⟨-, rfl⟩ := first.unique ran
        have made := allowRun_of_gives given
        rw [allowed] at made
        obtain rfl := Except.ok.inj made
        refine ⟨Host.absolute_eq given.fixed _ ▸ found, fun target link => ?_⟩
        have before := Host.hasChild_of_filed named.ordinary abs' located filed given.fixed link
        cases regular.symm.trans (Host.kind_of_hasChild_link named.ordinary abs' located before)

/-- What is left of an install once the asset is downloaded. -/
theorem gives_install_iff {s s₁ s₂ : Operation × Host} {url file : String} (p : Package)
    (asset : assetName? url = some file) (downloaded : (download url (dir / file)).Gives s () s₁) :
    (install dir (.binaryDownload p url)).Gives s () s₂ ↔
      (∃ octet octets, (s₁.2.answer (.readFile (dir / file))).1 = .ok (octet :: octets)) ∧
        (unpack dir (dir / file)).Gives (s₁.1, (s₁.2.answer (.readFile (dir / file))).2) () s₂ := by
  have looked : (Installing.lift (Program.ask (.readFile (dir / file)))).Gives s₁
      (s₁.2.answer (.readFile (dir / file))).1 (s₁.1, (s₁.2.answer (.readFile (dir / file))).2) :=
    gives_ask_iff.mpr ⟨rfl, rfl⟩
  unfold install
  dsimp only
  rw [asset]
  constructor
  · intro given
    obtain ⟨⟨⟩, s', first, given⟩ := gives_bind_iff.mp given
    obtain ⟨-, rfl⟩ := first.unique downloaded
    obtain ⟨seen, s', second, given⟩ := gives_bind_iff.mp given
    obtain ⟨rfl, rfl⟩ := second.unique looked
    cases seen : (s'.2.answer (.readFile (dir / file))).1 with
    | error e =>
        rw [seen] at given
        exact absurd given not_gives_fail
    | ok octets =>
        rw [seen] at given
        cases octets with
        | nil => exact absurd given not_gives_fail
        | cons octet octets => exact ⟨⟨octet, octets, rfl⟩, given⟩
  · rintro ⟨⟨octet, octets, seen⟩, unpacked⟩
    refine downloaded.bind (looked.bind ?_)
    rw [seen]
    exact unpacked

/-- Once the asset is downloaded the installation goes well, unless an operation fails, and then the program is
there: what the asset holds, which may be run, and no link unless the asset was one before. -/
theorem delivers {s s₁ : Operation × Host} {url : String} (p : Package) (named : k.Names primary)
    (abs : s.2.cwd.isAbsolute = true) (asset : assetName? url = some (primary ++ k.ending))
    (downloaded : (download url (dir / (primary ++ k.ending))).Gives s () s₁)
    (unzips : k = .gzipped →
      (s₁.2.answer (.readFile (dir / (primary ++ k.ending)))).2.Gunzips unzip (dir / primary)) :
    ∃ u reply content, target url = .ok u ∧ ((request redirectLimit u).run s.2).1 = .ok reply ∧
      k.held? unzip reply.body = some content ∧
      ((∀ n, s.2.faults n = none) → ∃ s₂, (install dir (.binaryDownload p url)).Gives s () s₂) ∧
      ∀ s₂, (install dir (.binaryDownload p url)).Gives s () s₂ →
        s₂.2.files.find (s₂.2.absolute (dir / primary)) = .ok (.file content true) ∧
        ∀ target, s₂.2.HasChild dir primary (.link target) →
          Host.kind s.2.files (s.2.absolute (dir / (primary ++ k.ending))) false = .ok .link := by
  obtain ⟨u, reply, t, sent, replied, filled, emptied, written⟩ := writes_of_download downloaded
  have looked {s₂} := @gives_install_iff dir s s₁ s₂ url _ p asset downloaded
  have read := s₁.2.fixed_answer (.readFile (dir / (primary ++ k.ending)))
  have kept := s₁.2.files_look fun t => t.read (s₁.2.absolute (dir / (primary ++ k.ending)))
  have shown (quiet : ∀ n, s₁.2.faults n = none) := s₁.2.look_quiet (quiet _)
    fun t => t.read (s₁.2.absolute (dir / (primary ++ k.ending)))
  change ((s₁.2.answer (.readFile (dir / (primary ++ k.ending)))).2).files = _ at kept
  change ∀ _, (s₁.2.answer (.readFile (dir / (primary ++ k.ending)))).1 = _ at shown
  generalize s₁.2.answer (.readFile (dir / (primary ++ k.ending))) = seen at looked read kept shown unzips
  have same := read.trans downloaded.fixed
  have abs' : seen.2.cwd.isAbsolute = true := (congrArg _ (Host.cwd_eq same)).trans abs
  have child : (s.2.absolute (dir / (primary ++ k.ending))).components = _ :=
    Host.components_absolute_child named.asset_ordinary abs
  obtain ⟨place, -, located, -⟩ := write_cases emptied
  obtain ⟨-, first⟩ := find_write child emptied
  obtain ⟨⟨executable, there⟩, second⟩ := find_write child written
  have filed : Filed s.2.files seen.2.files := kept ▸ first.trans second
  have found : seen.2.files.find (seen.2.absolute (dir / (primary ++ k.ending))) =
      .ok (.file reply.body executable) := by
    rw [kept, Host.absolute_eq same, there]
  obtain ⟨content, held, goes, leaves⟩ := gives_unpack (s := (s₁.1, seen.2)) named abs' found unzips
  refine ⟨u, reply, content, sent, replied, held, fun quiet => ?_, fun s₂ given => ?_⟩
  · have quiet₁ (n) : s₁.2.faults n = none := (congrFun (Host.faults_eq downloaded.fixed) n).trans (quiet n)
    have quiet' (n) : seen.2.faults n = none := (congrFun (Host.faults_eq same) n).trans (quiet n)
    obtain ⟨s₂, unpacked⟩ := goes quiet'
    obtain ⟨octet, octets, body⟩ := List.exists_cons_of_ne_nil filled
    refine ⟨s₂, looked.mpr ⟨⟨octet, octets, ?_⟩, unpacked⟩⟩
    rw [shown quiet₁, Files.read, Host.absolute_eq downloaded.fixed, there, body]
    rfl
  · obtain ⟨-, unpacked⟩ := looked.mp given
    obtain ⟨program, linked⟩ := leaves s₂ unpacked
    refine ⟨program, fun target link => ?_⟩
    have before : s.2.HasChild dir (primary ++ k.ending) (.link target) :=
      Host.hasChild_of_filed named.asset_ordinary abs located filed same (linked target link)
    exact Host.kind_of_hasChild_link named.asset_ordinary abs located before

end Release

namespace Install
open Files
open Release (Packing)
open Installing (gives_bind_iff gives_lift_iff gives_pure_iff gives_update not_gives_fail)

section delivered
variable {servers : Path} {e : RegistryEntry} {platform : Platform} {p : Package}
  {repository primary : String} {k : Packing}
  (read : Package.ofId? e.source.id = some p) (hosted : p.ecosystem = .github)
  (kept : p.repository = some repository)
  (asset : e.source.asset = some (e.executables.primary ++ k.ending))
  (expanded : platform.expand e.executables.primary p.version = .ok primary)

include expanded in
theorem expand_asset :
    platform.expand (e.executables.primary ++ k.ending) p.version = .ok (primary ++ k.ending) := by
  have ending : platform.expand k.ending p.version = .ok k.ending := by
    cases k with
    | bare => exact @Platform.expand_literal platform p.version [] (by decide)
    | gzipped => exact @Platform.expand_literal platform p.version ['.', 'g', 'z'] (by decide)
  rw [Platform.expand_append expanded, ending]
  rfl

include read hosted kept asset expanded in
theorem plan_release : plan servers e platform =
    .ok ⟨.binaryDownload p (InstallMethod.releaseUrl repository p.version (primary ++ k.ending)), p,
      Release.backend (place servers e)⟩ := by
  have method : e.method platform = .binaryDownload p _ :=
    PackageOrigin.method_of_expanded read hosted asset (expand_asset expanded) kept
  unfold plan
  rw [method]
  rfl

end delivered

/-- What is performed after the preparation is the installation, and then a look for the binary. -/
theorem gives_perform_iff {b : Backend} {e : RegistryEntry} {m : InstallMethod} {version primary : String}
    {platform : Platform} {s s₁ s' : Operation × Host} {binary : ServerBinary}
    (prepared : b.prepare.Gives (s.1.enter .preparing 10, s.2) () s₁)
    (expanded : platform.expand e.executables.primary version = .ok primary) :
    (perform b e m version platform).Gives s binary s' ↔
      ∃ s₂, (b.install m).Gives (s₁.1.enter .installing 30, s₁.2) () s₂ ∧
        (s₂.2.answer (.kind (b.binaryPath primary) true)).1.isOk = true ∧
        binary = { ServerBinary.ofPath (b.binaryPath primary) with
          args := e.executables.args, env := b.binaryEnv } ∧ s' = (s₂.1.enter .verifying 95, s₂.2) := by
  have seen (s₂ : Operation × Host) : (Installing.exists? (b.binaryPath primary)).Gives s₂
      (s₂.2.answer (.kind (b.binaryPath primary) true)).1.isOk s₂ := gives_lift_iff.mpr ⟨rfl, rfl⟩
  unfold perform
  rw [expanded]
  constructor
  · intro given
    obtain ⟨⟨⟩, s₂, entered, given⟩ := gives_bind_iff.mp given
    obtain ⟨-, rfl⟩ := entered.unique (gives_update s)
    obtain ⟨⟨⟩, s₂, first, given⟩ := gives_bind_iff.mp given
    obtain ⟨-, rfl⟩ := first.unique prepared
    obtain ⟨⟨⟩, s₃, entered, given⟩ := gives_bind_iff.mp given
    obtain ⟨-, rfl⟩ := entered.unique (gives_update s₂)
    obtain ⟨⟨⟩, s₄, installed, given⟩ := gives_bind_iff.mp given
    obtain ⟨⟨⟩, s₅, entered, given⟩ := gives_bind_iff.mp given
    obtain ⟨-, rfl⟩ := entered.unique (gives_update s₄)
    obtain ⟨there, s₆, looked, given⟩ := gives_bind_iff.mp given
    obtain ⟨rfl, rfl⟩ := looked.unique (seen _)
    change (if _ then _ else _ : Installing ServerBinary).Gives _ _ _ at given
    split at given
    · next there =>
        obtain ⟨same, rfl⟩ := gives_pure_iff.mp given
        exact ⟨s₄, installed, there, same, rfl⟩
    · exact absurd given not_gives_fail
  · rintro ⟨s₂, installed, there, rfl, rfl⟩
    refine Installing.Gives.bind (gives_update s) (prepared.bind ?_)
    refine Installing.Gives.bind (gives_update s₁) (installed.bind ?_)
    refine Installing.Gives.bind (gives_update s₂) ((seen _).bind ?_)
    change (if _ then _ else _ : Installing ServerBinary).Gives _ _ _
    rw [if_pos there]
    exact gives_pure_iff.mpr ⟨rfl, rfl⟩

/-- An install from a release, where the asset template is that of the program, or that with the ending of a
compressed file, and the program has an ordinary name. Once the asset is downloaded, and replaced by what it
holds if it is compressed, the install goes well unless an operation fails. Where it goes well its binary is a
file in the directory of the install that is what the asset holds, and that may be run. The path that the binary
is registered with leads there too, unless a `..` in it comes after a link; and under its name the directory has
the file itself, unless a link stood there before. -/
theorem downloaded_asset_is_the_binary {servers : Path} {e : RegistryEntry} {platform : Platform} {p : Package}
    {repository primary : String} {k : Packing} {unzip : Octets → Option Octets} {o o₁ o₂ : Operation}
    {h h₁ h₂ : Host} (read : Package.ofId? e.source.id = some p) (hosted : p.ecosystem = .github)
    (kept : p.repository = some repository)
    (asset : e.source.asset = some (e.executables.primary ++ k.ending))
    (expanded : platform.expand e.executables.primary p.version = .ok primary) (named : k.Names primary)
    (abs : h.cwd.isAbsolute = true)
    (prepared : (Release.backend (place servers e)).prepare.Gives (o.enter .preparing 10, h) () (o₁, h₁))
    (downloaded : (Release.download (InstallMethod.releaseUrl repository p.version (primary ++ k.ending))
      (place servers e / (primary ++ k.ending))).Gives (o₁.enter .installing 30, h₁) () (o₂, h₂))
    (unzips : k = .gzipped → (h₂.answer (.readFile (place servers e / (primary ++ k.ending)))).2.Gunzips unzip
      (place servers e / primary)) :
    let url := InstallMethod.releaseUrl repository p.version (primary ++ k.ending)
    let b := Release.backend (place servers e)
    let performed := (perform b e (.binaryDownload p url) p.version platform).Gives (o, h)
    plan servers e platform = .ok ⟨.binaryDownload p url, p, b⟩ ∧
    (b.binaryPath primary).components = (place servers e).components ++ [.name primary] ∧
    ∃ u reply content,
      Release.target url = .ok u ∧ ((Release.request Release.redirectLimit u).run h₁).1 = .ok reply ∧
      k.held? unzip reply.body = some content ∧
      ((∀ n, h.faults n = none) → ∃ binary s, performed binary s) ∧
      ∀ binary o' h', performed binary (o', h') →
        binary.path = (b.binaryPath primary).clean ∧
        h'.files.find (h'.absolute (b.binaryPath primary)) = .ok (.file content true) ∧
        (Straight h'.files h'.cwd (b.binaryPath primary) →
          h'.files.find (h'.absolute binary.path) = .ok (.file content true)) ∧
        (h'.HasChild (place servers e) primary (.file content true) ∨
          (∃ target, h'.HasChild (place servers e) primary (.link target)) ∧
            Host.kind h₁.files (h₁.absolute (place servers e / (primary ++ k.ending))) false = .ok .link) := by
  intro url b performed
  refine ⟨plan_release read hosted kept asset expanded, Path.components_child named.ordinary, ?_⟩
  have abs₁ : h₁.cwd.isAbsolute = true := (congrArg _ (Host.cwd_eq prepared.fixed)).trans abs
  have file : Release.assetName? url = some (primary ++ k.ending) :=
    Release.assetName?_releaseUrl named.asset_ne named.asset_plain repository p.version
  have delivered := @Release.delivers unzip k (place servers e) primary (o₁.enter .installing 30, h₁) (o₂, h₂)
    url p named abs₁ file downloaded unzips
  obtain ⟨u, reply, content, sent, replied, held, goes, leaves⟩ := delivered
  have performed_iff {binary s'} := @gives_perform_iff b e (.binaryDownload p url) p.version primary platform
    (o, h) (o₁, h₁) s' binary prepared expanded
  refine ⟨u, reply, content, sent, replied, held, fun quiet => ?_, fun binary o' h' given => ?_⟩
  · obtain ⟨s, installed⟩ := goes fun n => (congrFun (Host.faults_eq prepared.fixed) n).trans (quiet n)
    obtain ⟨found, -⟩ := leaves s installed
    refine ⟨_, _, performed_iff.mpr ⟨s, installed, ?_, rfl, rfl⟩⟩
    change (Host.kind s.2.files (s.2.absolute (place servers e / primary)) true).isOk = true
    rw [kind_of_find found]
    rfl
  · obtain ⟨s, installed, -, rfl, same⟩ := performed_iff.mp given
    obtain ⟨-, rfl⟩ := Prod.mk.inj same
    obtain ⟨found, linked⟩ := leaves s installed
    have abs' : s.2.cwd.isAbsolute = true := (congrArg _ (Host.cwd_eq installed.fixed)).trans abs₁
    refine ⟨rfl, found, fun straight => find_clean abs' straight found, ?_⟩
    rcases Host.hasChild_of_find named.ordinary abs' found with itself | ⟨target, link⟩
    · exact .inl itself
    · exact .inr ⟨⟨target, link⟩, linked target link⟩

/-! A release whose asset is a compressed file, on a machine that has `gzip`. -/

namespace Zipped
open Files

def entry : RegistryEntry :=
  { Sample.entry with
    source := ⟨"pkg:github/o/n@v1?repository_url=http://[::1]/o/n", some "s-\x7bversion\x7d.gz", none⟩
    executables := ⟨"s-\x7bversion\x7d", [], []⟩ }

def package : Package :=
  { Sample.source with
    id := "pkg:github/o/n@v1?repository_url=http://[::1]/o/n", repository := some "http://[::1]/o/n" }

def platform : Platform := ⟨"linux", "x86_64"⟩

def link : String := "http://[::1]/o/n/releases/download/v1/s-v1.gz"

theorem read : Package.ofId? entry.source.id = some package := by cbv
theorem url_eq : InstallMethod.releaseUrl "http://[::1]/o/n" package.version
    ("s-v1" ++ Release.Packing.gzipped.ending) = link := by cbv
theorem expanded : platform.expand entry.executables.primary package.version = .ok "s-v1" := by cbv
def address : Url where
  scheme := "http"
  authority := some ⟨"", none, "[::1]", none⟩
  path := .segments ["o", "n", "releases", "download", "v1", "s-v1.gz"]
  query := none
  fragment := none
theorem target_link : Release.target link = .ok address := by cbv

def program : Octets := [35, 33]

/-- The program in the form of a compressed file. -/
def packed : Octets :=
  [31, 139, 8, 0, 0, 0, 0, 0, 0, 3, 1, 2, 0, 253, 255, 35, 33, 192, 117, 25, 179, 2, 0, 0, 0]

def unzip (octets : Octets) : Option Octets := if octets = packed then some program else none

def rooted (install : List (String × Files)) : Files := .dir (("gzip", .file [] true) :: install)

def reply : Reply := ⟨200, none, packed, .complete⟩

def host (t : Files) (operations : Nat) (told : List String) : Host :=
  { Sample.host t with
    env := [("PATH", "/")]
    programs := fun inv _ =>
      if inv.argv = ["gzip", "-df", "/n/s-v1.gz"] then
        ⟨[.write ⟨"/n/s-v1"⟩ program, .remove ⟨"/n/s-v1.gz"⟩], .exit 0⟩
      else ⟨[], .exit 1⟩
    network := fun _ _ => some reply
    operations := operations
    told := told }

def begun : Files := rooted [("n", .dir [])]
def fetched (content : Octets) : Files := rooted [("n", .dir [("s-v1.gz", .file content false)])]
def replaced : Files := rooted [("n", .dir [("s-v1", .file program false)])]

theorem makeDirs_n : (rooted []).makeDirs ⟨"/n"⟩ = .ok begun := by cbv

theorem components_asset : Path.components ⟨"/n/s-v1.gz"⟩ = [.root, .name "n", .name "s-v1.gz"] := by cbv

theorem write_begun (content : Octets) : begun.write ⟨"/n/s-v1.gz"⟩ content = .ok (fetched content) := by
  rw [write, locate_eq (by decide), components_asset]
  cbv

theorem write_fetched (content content' : Octets) :
    (fetched content).write ⟨"/n/s-v1.gz"⟩ content' = .ok (fetched content') := by
  rw [write, locate_eq (by decide), components_asset]
  cbv

theorem request_address (t : Files) (operations : Nat) (told : List String) :
    (Release.request Release.redirectLimit address).run (host t operations told) =
      (.ok reply, host t operations told) := by
  unfold Release.redirectLimit Release.request
  rfl

theorem gives_prepare (o : Operation) :
    (Release.backend ⟨"/n"⟩).prepare.Gives (o, host (rooted []) 0 []) () (o, host begun 1 []) :=
  Installing.gives_io_iff.mpr ⟨Host.makeDirs_made (h := host (rooted []) 0 []) rfl makeDirs_n, rfl⟩

/-- What has been told once the download begins, and once it has ended. -/
def downloading : List String := ["Downloading " ++ link]

def told : List String := downloading ++ ["Downloaded " ++ toString packed.length ++ " bytes"]

theorem gives_download (o : Operation) : ∃ o', (Release.download link ⟨"/n/s-v1.gz"⟩).Gives
    (o, host begun 1 []) () (o', host (fetched packed) 3 told) := by
  obtain ⟨o', begins⟩ : ∃ o', (Installing.tell ("Downloading " ++ link)).Gives (o, host begun 1 []) ()
      (o', host begun 1 downloading) := ⟨_, Installing.gives_tell _⟩
  have asks : (Installing.lift (Release.request Release.redirectLimit address)).Gives
      (o', host begun 1 downloading) (.ok reply) (o', host begun 1 downloading) :=
    Installing.gives_lift_iff.mpr ⟨request_address _ _ _, rfl⟩
  have empties : (Installing.io (.writeFile ⟨"/n/s-v1.gz"⟩ [])).Gives (o', host begun 1 downloading) ()
      (o', host (fetched []) 2 downloading) :=
    Installing.gives_io_iff.mpr ⟨Host.write_made (h := host begun 1 downloading) rfl (write_begun []), rfl⟩
  have goesOn : (Installing.lift (Program.ask .cancelled)).Gives (o', host (fetched []) 2 downloading) false
      (o', host (fetched []) 2 downloading) := Installing.gives_ask_iff.mpr ⟨rfl, rfl⟩
  have writes : (Installing.io (.writeFile ⟨"/n/s-v1.gz"⟩ packed)).Gives
      (o', host (fetched []) 2 downloading) () (o', host (fetched packed) 3 downloading) :=
    Installing.gives_io_iff.mpr
    ⟨Host.write_made (h := host (fetched []) 2 downloading) rfl (write_fetched [] packed), rfl⟩
  unfold Release.download
  rw [target_link]
  exact ⟨_, begins.bind (asks.bind (empties.bind (goesOn.bind (writes.bind (Installing.gives_tell _)))))⟩

section unzip
variable (install : List (String × Files))

theorem locate_gzip : (rooted install).locate true ⟨"/gzip"⟩ = .ok ["gzip"] := by
  have parts : Path.components ⟨"/gzip"⟩ = [.root, .name "gzip"] := by cbv
  rw [locate_eq (by decide), parts]
  cbv

theorem invocation_gzip (operations : Nat) : (host (rooted install) operations told).invocation
    (Release.gunzip ⟨"/n/s-v1"⟩) = .ok ⟨⟨"/gzip"⟩, ["gzip", "-df", "/n/s-v1.gz"], ⟨"/"⟩, [("PATH", "/")]⟩ := by
  have here : Host.canonical (rooted install) ⟨"/"⟩ = .ok ⟨"/"⟩ := by
    rw [Host.canonical, locate_root]
    cbv
  have directory : (rooted install).isDirectoryAt ⟨"/"⟩ = true := find_dir_of_locate (locate_root _ _) rfl
  have there : (rooted install).find ⟨"/gzip"⟩ = .ok (.file [] true) := by
    rw [find, locate_gzip]
    rfl
  have startable := Host.startable_of_find (h := host (rooted install) operations told) there
  have found : (host (rooted install) operations told).programFile ⟨"/"⟩ [("PATH", "/")] "gzip" =
      .ok ⟨"/gzip"⟩ := Host.programFile_eq (by decide) (by decide) rfl (by cbv) startable
  have real : Host.canonical (rooted install) ⟨"/gzip"⟩ = .ok ⟨"/gzip"⟩ := by
    rw [Host.canonical, locate_gzip]
    cbv
  exact Host.invocation_eq (by decide) rfl here directory found real

end unzip

theorem components_program : Path.components ⟨"/n/s-v1"⟩ = [.root, .name "n", .name "s-v1"] := by cbv

/-- Both files, while the one is made of the other. -/
def both : Files := rooted [("n", .dir [("s-v1", .file program false), ("s-v1.gz", .file packed false)])]

theorem makeDirs_parent : (fetched packed).makeDirs ⟨"/n"⟩ = .ok (fetched packed) := by
  have written : check ⟨"/n"⟩ = .ok () := by decide
  have parts : Path.components ⟨"/n"⟩ = [.root, .name "n"] := by cbv
  have place (follow : Bool) : (fetched packed).locate follow ⟨"/n"⟩ = .ok ["n"] := by
    rw [locate_eq written, parts]
    cbv
  rw [makeDirs, if_pos (by decide), written, parts]
  refine (makeDirsFrom_there (p := ⟨"/"⟩) (by cbv) (locate_root _) rfl).trans ?_
  exact makeDirsFrom_there (p := ⟨"/n"⟩) (by cbv) place rfl

theorem write_program : Host.touch (fetched packed) ⟨"/"⟩ (.write ⟨"/n/s-v1"⟩ program) = both := by
  have place : (⟨"/"⟩ : Path) / "/n/s-v1" = ⟨"/n/s-v1"⟩ := by cbv
  have parent : Path.parent? ⟨"/n/s-v1"⟩ = some ⟨"/n"⟩ := by cbv
  simp only [Host.touch, place, parent, makeDirs_parent, Host.orSame, write]
  rw [locate_eq (by decide), components_program]
  cbv

theorem remove_packed : Host.touch both ⟨"/"⟩ (.remove ⟨"/n/s-v1.gz"⟩) = replaced := by
  have place : (⟨"/"⟩ : Path) / "/n/s-v1.gz" = ⟨"/n/s-v1.gz"⟩ := by cbv
  simp only [Host.touch, place, Host.removeAny, removeFile]
  rw [locate_eq (by decide), components_asset]
  cbv

theorem execute_gzip (operations : Nat) :
    let ran := (host (fetched packed) operations told).execute (Release.gunzip ⟨"/n/s-v1"⟩) .reported
    ran.1.outcome = .ok () ∧ ran.2.files = replaced := by
  have calm : ¬ ((host (fetched packed) operations told).isCancelled = true ∧ RunMode.reported ≠ .steady) := by
    rintro ⟨cancelled, -⟩
    cases cancelled
  have started : (host (fetched packed) operations told).invocation (Release.gunzip ⟨"/n/s-v1"⟩) = _ :=
    invocation_gzip _ operations
  unfold Host.execute
  rw [if_neg calm, started]
  dsimp only
  have acts : (host (fetched packed) operations told).programs ⟨⟨"/gzip"⟩, ["gzip", "-df", "/n/s-v1.gz"], ⟨"/"⟩,
      [("PATH", "/")]⟩ (fetched packed) =
        ⟨[.write ⟨"/n/s-v1"⟩ program, .remove ⟨"/n/s-v1.gz"⟩], .exit 0⟩ := rfl
  rw [show (host (fetched packed) operations told).files = fetched packed from rfl, acts]
  simp only [Host.play, Host.act, Host.settle, write_program, remove_packed]
  constructor <;> rfl

theorem locate_packed : (fetched packed).locate true ⟨"/n/s-v1.gz"⟩ = .ok ["n", "s-v1.gz"] := by
  rw [locate_eq (by decide), components_asset]
  cbv

theorem locate_program : replaced.locate false ⟨"/n/s-v1"⟩ = .ok ["n", "s-v1"] ∧
    replaced.locate true ⟨"/n/s-v1"⟩ = .ok ["n", "s-v1"] := by
  rw [locate_eq (by decide), locate_eq (by decide), components_program]
  constructor <;> cbv

theorem gunzips (operations : Nat) : (host (fetched packed) operations told).Gunzips unzip ⟨"/n/s-v1"⟩ := by
  obtain ⟨ends, files⟩ := execute_gzip operations
  obtain ⟨place, followed⟩ := locate_program
  have program_at : (host (fetched packed) operations told).absolute ⟨"/n/s-v1"⟩ = ⟨"/n/s-v1"⟩ := by
    rw [Host.absolute, if_neg (by decide)]
    cbv
  have asset_at : (host (fetched packed) operations told).absolute (Path.zipped ⟨"/n/s-v1"⟩) =
      ⟨"/n/s-v1.gz"⟩ := by
    rw [Host.absolute, if_neg (by decide)]
    cbv
  refine ⟨ends, ?_, fun content executable there => ⟨program, false, ?_, ?_⟩⟩
  · change Host.kind ((host (fetched packed) operations told).execute _ _).2.files _ _ = _
    rw [files, program_at, Host.kind, place]
    rfl
  · rw [asset_at] at there
    change (fetched packed).find ⟨"/n/s-v1.gz"⟩ = _ at there
    rw [find, locate_packed] at there
    obtain ⟨rfl, -⟩ : packed = content ∧ false = executable := by simpa using Except.ok.inj there
    rfl
  · change ((host (fetched packed) operations told).execute _ _).2.files.find _ = _
    rw [files, program_at, find, followed]
    rfl

theorem named : Release.Packing.gzipped.Names "s-v1" := ⟨by decide, by decide, by decide, fun _ => by decide⟩

theorem asset : entry.source.asset = some (entry.executables.primary ++ Release.Packing.gzipped.ending) := rfl

end Zipped

open Zipped in
theorem zipped_asset_is_the_binary : ∃ binary s, (perform (Release.backend ⟨"/n"⟩) entry
      (.binaryDownload package link) "v1" platform).Gives (.start "n", host (rooted []) 0 []) binary s ∧
    binary.path = ⟨"/n/s-v1"⟩ ∧ s.2.files.find (s.2.absolute ⟨"/n/s-v1"⟩) = .ok (.file program true) := by
  obtain ⟨o, downloaded⟩ := gives_download (((Operation.start "n").enter .preparing 10).enter .installing 30)
  rw [← url_eq] at downloaded
  have seen : ((host (fetched packed) 3 told).answer (.readFile ⟨"/n/s-v1.gz"⟩)).2 =
      host (fetched packed) 4 told := rfl
  obtain ⟨-, -, u, reply, content, sent, replied, held, goes, leaves⟩ :=
    @downloaded_asset_is_the_binary ⟨"/"⟩ entry platform package "http://[::1]/o/n" "s-v1" .gzipped unzip
      (.start "n") _ _ _ _ _ read rfl rfl asset expanded named (by decide) (gives_prepare _) downloaded
      fun _ => seen ▸ gunzips 4
  obtain ⟨binary, s, performed⟩ := goes fun _ => rfl
  obtain ⟨path, found, -⟩ := leaves binary s.1 s.2 performed
  have clean : Path.clean ⟨"/n/s-v1"⟩ = ⟨"/n/s-v1"⟩ := by
    unfold Path.clean
    rw [components_program]
    rfl
  rw [url_eq] at sent performed
  obtain rfl := Except.ok.inj (target_link.symm.trans sent)
  rw [request_address] at replied
  obtain rfl := Except.ok.inj replied
  obtain rfl : program = content := Option.some.inj held
  exact ⟨binary, s, performed, path.trans clean, found⟩

end Install

end LanguageHost
