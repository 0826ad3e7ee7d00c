import LanguageHost.Install.Release
import LanguageHost.Proofs.Package.Resolution
import LanguageHost.Proofs.Url.Appended

/-! What the URL of a release's file denotes. It is put together from a name, a version and a file as they are,
so it denotes the file exactly if none of them holds what a URL reads otherwise. -/
namespace LanguageHost

namespace Url

/-- The URL of the forge is sent as it is read. -/
theorem target_forge {cs : List Char} (hash : '#' ∉ cs) (mark : '?' ∉ cs) :
    Release.target (String.ofList (forge ++ cs)) = .ok (ofTrail (trail cs)) := by
  have bare : Release.withoutCredentials (ofTrail (trail cs)) = ofTrail (trail cs) := by
    simp [Release.withoutCredentials, ofTrail]
  have nameable : Release.isNameable (ofTrail (trail cs)) = true := by
    change ("github.com".toList.all fun c => c != '"' && c != '\x60' && c != '\x7b' && c != '\x7d') = true
    decide
  unfold Release.target
  rw [ofText?_forge hash mark, Option.map_some, bare]
  exact if_pos ⟨.inr rfl, nameable⟩

theorem free_of_target {cs : List Char} {u : Url} (sent : Release.target (String.ofList (forge ++ cs)) = .ok u)
    (query : u.query = none) (fragment : u.fragment = none) : '#' ∉ cs ∧ '?' ∉ cs := by
  unfold Release.target at sent
  cases read : ofText? (String.ofList (forge ++ cs)) with
  | none =>
      rw [read] at sent
      cases sent
  | some whole =>
      rw [read] at sent
      simp only [Option.map_some] at sent
      split at sent
      · cases sent
        have kept : (Release.withoutCredentials whole).query = whole.query ∧
            (Release.withoutCredentials whole).fragment = whole.fragment := by
          unfold Release.withoutCredentials
          split
          · exact ⟨rfl, rfl⟩
          · dsimp only
            split <;> exact ⟨rfl, rfl⟩
        exact free_of_ofText? read (kept.1 ▸ query) (kept.2 ▸ fragment)
      · cases sent

end Url

namespace Package
open Url (Rooted Literal)

/-- Without an option for it the repository is that of the name. -/
theorem repository_of_github {id : String} {p : Package} {s : Spelling} (proper : s.Proper)
    (written : Text.trimmed id.toList = s.text) (read : ofId? id = some p) (hosted : p.ecosystem = .github)
    (plain : ∀ f ∈ s.fields, ¬ f.IsRepository) : p.repository = some ("https://github.com/" ++ p.name) := by
  rw [proper.ofId?_eq written] at read
  obtain ⟨name, version, q, options, reads⟩ := Parts.read?_eq_some_iff.mp read
  obtain ⟨said, decoded, together⟩ := Spelling.exists_said proper reads
  have none : q.repository = none := by
    cases found : q.repository with
    | none => rfl
    | some url =>
        obtain ⟨f, there, is⟩ := (Spelling.isSome_repository decoded together).mp (by rw [found]; rfl)
        exact absurd is (plain f there)
  obtain rfl := reads.package
  change s.ecosystem = .github at hosted
  simp [assemble, none, hosted, Spelling.parts]

end Package

/-- The request for the URL is one for the file of the release: its path is that of the repository, the place
of its releases, and a text that stands for the version and the file. -/
def Release.Denotes (url repository tag file : String) : Prop :=
  ∃ u r rest, Release.target url = .ok u ∧ Url.ofText? repository = some r ∧
    u.query = none ∧ u.fragment = none ∧ u.pathText = r.pathText ++ "/releases/download/" ++ rest ∧
    Percent.decode? rest.toList = some (tag ++ "/" ++ file).toList

/-- Nothing in the name, the version and the file is read otherwise in a URL. -/
structure Release.Addressable (name tag file : String) : Prop where
  free : ∀ c ∈ (name ++ tag ++ file).toList, c ≠ '#' ∧ c ≠ '?'
  rooted : Url.Rooted name.toList
  literal : Url.Literal (tag ++ "/" ++ file).toList

namespace Release
variable {name tag file : String}

/-- What stands behind the host in the URL of a release's file. -/
def behindForge (name tag file : String) : List Char :=
  name.toList ++ Url.releases ++ (tag ++ "/" ++ file).toList

theorem repository_forge (name : String) :
    "https://github.com/" ++ name = String.ofList (Url.forge ++ name.toList) := by
  apply String.toList_injective
  rw [String.toList_append]
  exact (String.toList_ofList (l := Url.forge ++ name.toList)).symm

theorem dropWhile_slash (owned : Package.IsOwned name.toList) :
    ("https://github.com/" ++ name).toList.reverse.dropWhile (· = '/') =
      ("https://github.com/" ++ name).toList.reverse := by
  obtain ⟨owner, repo, parts, -, repo_ne, -, free⟩ := owned
  have last : repo.getLast repo_ne ≠ '/' := by
    intro same
    exact free (same ▸ List.getLast_mem repo_ne)
  rw [String.toList_append, parts, ← List.dropLast_concat_getLast repo_ne, List.reverse_append,
    List.reverse_append, List.reverse_cons, List.reverse_concat]
  exact List.dropWhile_cons_of_neg (by simpa using last)

theorem releaseUrl_forge (owned : Package.IsOwned name.toList) (pinned : tag ≠ latest) :
    InstallMethod.releaseUrl ("https://github.com/" ++ name) tag file =
      String.ofList (Url.forge ++ behindForge name tag file) := by
  unfold InstallMethod.releaseUrl
  rw [dropWhile_slash owned, List.reverse_reverse, String.ofList_toList, if_neg pinned]
  apply String.toList_injective
  refine Eq.trans ?_ (String.toList_ofList (l := Url.forge ++ behindForge name tag file)).symm
  unfold behindForge Url.forge Url.releases
  rw [String.toList_append, String.toList_append, String.toList_append, String.toList_append,
    String.toList_append, String.toList_append, String.toList_append]
  generalize "https://github.com/".toList = front
  generalize "/releases/download/".toList = place
  simp only [List.append_assoc]

theorem mem_behindForge {c : Char} (other : c ∉ '/' :: Url.releases) :
    c ∈ behindForge name tag file ↔ c ∈ (name ++ tag ++ file).toList := by
  obtain ⟨slash, place⟩ := not_or.mp (mt List.mem_cons.mpr other)
  unfold behindForge
  rw [String.toList_append, String.toList_append, String.toList_append, String.toList_append]
  simp [place, slash]

theorem text_follows {t r : Url.Trail} {rest : String} : String.ofList t.text =
    String.ofList r.text ++ "/releases/download/" ++ rest ↔ t.text = r.text ++ Url.releases ++ rest.toList := by
  rw [← String.toList_inj, String.toList_append, String.toList_append,
    show (String.ofList t.text).toList = t.text from String.toList_ofList,
    show (String.ofList r.text).toList = r.text from String.toList_ofList]
  rfl

/-- The URL of a file of a release denotes it just when nothing in it is read otherwise. -/
theorem denotes_iff (owned : Package.IsOwned name.toList) (pinned : tag ≠ latest) :
    Denotes (InstallMethod.releaseUrl ("https://github.com/" ++ name) tag file) ("https://github.com/" ++ name)
      tag file ↔ Addressable name tag file := by
  have part {c : Char} (absent : c ∉ behindForge name tag file) : c ∉ name.toList := by
    intro there
    apply absent
    unfold behindForge
    simp [there]
  rw [releaseUrl_forge owned pinned, repository_forge]
  constructor
  · rintro ⟨u, r, rest, sent, read, query, fragment, path, decoded⟩
    obtain ⟨hash, mark⟩ := Url.free_of_target sent query fragment
    rw [Url.target_forge hash mark] at sent
    rw [Url.ofText?_forge (part hash) (part mark)] at read
    obtain rfl := Except.ok.inj sent
    obtain rfl := Option.some.inj read
    have follows : (Url.trail (behindForge name tag file)).Follows (Url.trail name.toList)
        (tag ++ "/" ++ file).toList := by
      refine ⟨rest.toList, ?_, decoded⟩
      rw [Url.pathText_ofTrail, Url.pathText_ofTrail] at path
      exact text_follows.mp path
    obtain ⟨rooted, literal⟩ := Url.follows_iff.mp follows
    refine ⟨?_, rooted, literal⟩
    intro c there
    constructor
    · rintro rfl
      exact hash ((mem_behindForge (by decide)).mpr there)
    · rintro rfl
      exact mark ((mem_behindForge (by decide)).mpr there)
  · rintro ⟨free, rooted, literal⟩
    have hash : '#' ∉ behindForge name tag file := by
      intro there
      exact (free _ ((mem_behindForge (by decide)).mp there)).1 rfl
    have mark : '?' ∉ behindForge name tag file := by
      intro there
      exact (free _ ((mem_behindForge (by decide)).mp there)).2 rfl
    obtain ⟨rest, path, decoded⟩ := Url.follows_iff.mpr ⟨rooted, literal⟩
    refine ⟨_, _, String.ofList rest, Url.target_forge hash mark, Url.ofText?_forge (part hash) (part mark),
      rfl, rfl, ?_, ?_⟩
    · rw [Url.pathText_ofTrail, Url.pathText_ofTrail]
      apply text_follows.mpr
      rw [String.toList_ofList]
      exact path
    · rwa [String.toList_ofList]

end Release

namespace PackageOrigin

/-- An origin on the forge with an asset and a version of its own is downloaded from its repository, and the
URL denotes the file of the release exactly if the name, the version and the file are addressable. Where one
is not, the URL still is the text of them put together: nothing is escaped. -/
theorem download_denotes_iff_addressable {s : Package.Spelling} {origin : PackageOrigin} {platform : Platform}
    {p : Package} {template file : String} (proper : s.Proper)
    (written : Text.trimmed origin.id.toList = s.text) (plain : ∀ f ∈ s.fields, ¬ f.IsRepository)
    (read : Package.ofId? origin.id = some p) (hosted : p.ecosystem = .github) (pinned : p.version ≠ latest)
    (asset : origin.asset = some template) (expanded : platform.expand template p.version = .ok file) :
    p.repository = some ("https://github.com/" ++ p.name) ∧
      ∃ url, origin.method platform = .binaryDownload p url ∧
        (Release.Denotes url ("https://github.com/" ++ p.name) p.version file ↔
          Release.Addressable p.name p.version file) := by
  have kept := Package.repository_of_github proper written read hosted plain
  refine ⟨kept, _, method_of_expanded read hosted asset expanded kept, ?_⟩
  exact Release.denotes_iff (Package.isOwned_of_github read hosted) pinned

/-- A version with the sign of a fragment, written as it has to be. -/
def candidate : Package.Spelling where
  ecosystem := .github
  name := "owner/tool".toList
  version := some "v1%23rc".toList
  query := none
  fragment := none
  trailing := none

theorem candidate_is_misread :
    let origin : PackageOrigin := ⟨"pkg:github/owner/tool@v1%23rc", some "tool-\x7bos\x7d", none⟩
    ∃ p url, origin.method ⟨"linux", "x86_64"⟩ = .binaryDownload p url ∧ p.version = "v1#rc" ∧
      url = "https://github.com/owner/tool/releases/download/v1#rc/tool-linux" ∧
      ¬ Release.Denotes url "https://github.com/owner/tool" p.version "tool-linux" := by
  intro origin
  let p : Package := ⟨origin.id, .github, "owner/tool", "v1#rc", some "https://github.com/owner/tool",
    some (.tag "v1#rc"), []⟩
  have read : Package.ofId? origin.id = some p := by decide +kernel
  have written : Text.trimmed origin.id.toList = candidate.text := by decide +kernel
  have proper : candidate.Proper := by
    constructor
    · decide
    · decide
    · decide
    · rintro f ⟨⟩
    · decide
    · decide
  have expanded : (Platform.mk "linux" "x86_64").expand "tool-\x7bos\x7d" p.version = .ok "tool-linux" := by
    decide +kernel
  have method : origin.method ⟨"linux", "x86_64"⟩ =
      .binaryDownload p "https://github.com/owner/tool/releases/download/v1#rc/tool-linux" := by
    decide +kernel
  obtain ⟨-, url, resolved, denotes⟩ := download_denotes_iff_addressable proper written
    (by rintro f ⟨⟩) read rfl (by decide) rfl expanded
  obtain rfl := (InstallMethod.binaryDownload.inj (resolved.symm.trans method)).2
  refine ⟨p, _, resolved, rfl, rfl, fun denoted => ?_⟩
  have addressable := denotes.mp denoted
  exact (addressable.free '#' (by decide)).1 rfl

end PackageOrigin

end LanguageHost
