import LanguageHost.Package.Method
import LanguageHost.Proofs.Package.Grammar

/-! What an origin is resolved to: by whether its identifier is read and names a repository, and by its asset
and its build. -/
namespace LanguageHost

namespace Package

section read
variable {id : String} {p : Package} (read : ofId? id = some p) (hosted : p.ecosystem = .github)
include read

theorem exists_reads : ∃ t name version q options, Parts.Reads t id name version q options p := by
  rw [ofId?_eq, Option.bind_eq_some_iff] at read
  obtain ⟨t, -, made⟩ := read
  exact ⟨t, Parts.read?_eq_some_iff.mp made⟩

include hosted

theorem isSome_repository_of_github : p.repository.isSome := by
  obtain ⟨t, name, version, q, options, reads⟩ := exists_reads read
  obtain rfl := reads.package
  exact (isSome_assemble_repository ..).mpr (.inl hosted)

/-- The name of a package of the forge is an owner and a repository. -/
theorem isOwned_of_github : IsOwned p.name.toList := by
  obtain ⟨t, name, version, q, options, reads⟩ := exists_reads read
  obtain rfl := reads.package
  rw [show (assemble id t.ecosystem (String.ofList name) _ q options).name = String.ofList name from rfl,
    String.toList_ofList]
  exact isOwnerRepo_iff.mp (reads.owned hosted)

end read

end Package

namespace PackageOrigin

/-- Why nothing can be installed for an origin. -/
inductive Unresolved (origin : PackageOrigin) (platform : Platform) : Prop
  | unread : Package.ofId? origin.id = none → Unresolved origin platform
  | unexpanded {p : Package} {template : String} {e : TemplateError} : Package.ofId? origin.id = some p →
      p.ecosystem = .github → origin.asset = some template →
      platform.expand template p.version = .error e → Unresolved origin platform
  | bare {p : Package} : Package.ofId? origin.id = some p → p.ecosystem = .github → origin.asset = none →
      origin.build = none → Unresolved origin platform

/-- What an origin is resolved to. -/
inductive Resolved (origin : PackageOrigin) (platform : Platform) : InstallMethod → Prop
  | managed {p : Package} : Package.ofId? origin.id = some p → p.ecosystem ≠ .github →
      Resolved origin platform (.package p)
  | download {p : Package} {template file repository : String} : Package.ofId? origin.id = some p →
      p.ecosystem = .github → origin.asset = some template →
      platform.expand template p.version = .ok file → p.repository = some repository →
      Resolved origin platform (.binaryDownload p (InstallMethod.releaseUrl repository p.version file))
  | build {p : Package} {build : String} : Package.ofId? origin.id = some p → p.ecosystem = .github →
      p.repository.isSome → origin.asset = none → origin.build = some build →
      Resolved origin platform (.sourceBuild p build)

variable {origin : PackageOrigin} {platform : Platform} {p : Package}

theorem method_of_unread (unread : Package.ofId? origin.id = none) : origin.method platform = .unknown := by
  unfold method
  rw [unread]

theorem method_of_managed (read : Package.ofId? origin.id = some p) (managed : p.ecosystem ≠ .github) :
    origin.method platform = .package p := by
  unfold method
  rw [read]
  exact if_pos managed

section hosted
variable (read : Package.ofId? origin.id = some p) (hosted : p.ecosystem = .github)
include read hosted

theorem method_of_expanded {template file repository : String} (asset : origin.asset = some template)
    (expanded : platform.expand template p.version = .ok file) (kept : p.repository = some repository) :
    origin.method platform =
      .binaryDownload p (InstallMethod.releaseUrl repository p.version file) := by
  unfold method
  simp only [read, hosted, asset, expanded, kept, ne_eq, not_true_eq_false, if_false]

theorem method_of_unexpanded {template : String} {e : TemplateError} (asset : origin.asset = some template)
    (failed : platform.expand template p.version = .error e) : origin.method platform = .unknown := by
  unfold method
  simp only [read, hosted, asset, failed, ne_eq, not_true_eq_false, if_false]

theorem method_of_build {build : String} (asset : origin.asset = none) (built : origin.build = some build) :
    origin.method platform = .sourceBuild p build := by
  unfold method
  simp only [read, hosted, asset, built, ne_eq, not_true_eq_false, if_false]

theorem method_of_bare (asset : origin.asset = none) (built : origin.build = none) :
    origin.method platform = .unknown := by
  unfold method
  simp only [read, hosted, asset, built, ne_eq, not_true_eq_false, if_false]

end hosted

theorem Unresolved.method (h : origin.Unresolved platform) : origin.method platform = .unknown := by
  cases h with
  | unread unread => exact method_of_unread unread
  | unexpanded read hosted asset failed => exact method_of_unexpanded read hosted asset failed
  | bare read hosted asset built => exact method_of_bare read hosted asset built

theorem unresolved_or_resolved (origin : PackageOrigin) (platform : Platform) :
    origin.Unresolved platform ∨ origin.Resolved platform (origin.method platform) := by
  cases read : Package.ofId? origin.id with
  | none => exact .inl (.unread read)
  | some p =>
      by_cases hosted : p.ecosystem = .github
      · have kept := Package.isSome_repository_of_github read hosted
        obtain ⟨repository, there⟩ := Option.isSome_iff_exists.mp kept
        cases asset : origin.asset with
        | some template =>
            cases expanded : platform.expand template p.version with
            | error e => exact .inl (.unexpanded read hosted asset expanded)
            | ok file =>
                rw [method_of_expanded read hosted asset expanded there]
                exact .inr (.download read hosted asset expanded there)
        | none =>
            cases built : origin.build with
            | none => exact .inl (.bare read hosted asset built)
            | some build =>
                rw [method_of_build read hosted asset built]
                exact .inr (.build read hosted kept asset built)
      · rw [method_of_managed read hosted]
        exact .inr (.managed read hosted)

theorem Resolved.ne_unknown {m : InstallMethod} (h : origin.Resolved platform m) : m ≠ .unknown := by
  rintro rfl
  cases h

theorem method_eq_unknown_iff : origin.method platform = .unknown ↔ origin.Unresolved platform := by
  refine ⟨fun unknown => ?_, Unresolved.method⟩
  rcases unresolved_or_resolved origin platform with unresolved | resolved
  · exact unresolved
  · exact absurd unknown resolved.ne_unknown

end PackageOrigin

end LanguageHost
