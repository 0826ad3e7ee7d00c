import LanguageHost.Proofs.Fleet.Introductions
import LanguageHost.Proofs.Install.Pinned

/-!
Initialization options, from a registry entry to the first request. An install does not look at those of its
entry, and a launch configuration has only those that the user sets. So these are what a server is told, and
none where the user sets none.
-/
namespace LanguageHost

namespace ServerConfigs

/-- The initialization options that the user sets for a language. -/
def userOptions (c : ServerConfigs) (language : String) : Option Json :=
  (c.overrides.get? language).bind (·.initOptions)

theorem initOptions_of_get? {c : ServerConfigs} {language : String} {config : LaunchConfig}
    (h : c.get? language = some config) : config.initOptions = c.userOptions language := by
  unfold get? at h
  dsimp only at h
  split at h
  · cases h
    rfl
  · cases h
    rfl
  · cases h

/-- Without an override a server is launched as it was installed, without options and settings. -/
theorem get?_unset {c : ServerConfigs} {language : String} (unset : c.overrides.get? language = none) :
    c.get? language =
      (c.installed.get? language).map fun server => ⟨server.binary, server.enabled, none, none⟩ := by
  unfold get?
  rw [unset]
  cases c.installed.get? language with
  | none => rfl
  | some server => rfl

end ServerConfigs

/-- The method of a request that is queued. -/
def Outbound.method? : Outbound → Option String
  | .message (.request r) => some r.method
  | _ => none

theorem Outbound.exists_of_method? {o : Outbound} {method : String} (h : o.method? = some method) :
    ∃ r : Request, o = .message (.request r) ∧ r.method = method := by
  unfold method? at h
  split at h
  · cases h
    exact ⟨_, rfl, rfl⟩
  · cases h

namespace Install
open Program (Logged)

variable {i i' : Installer} {e : RegistryEntry} {b : ServerBinary} {log : List Occasion} {t t' : Files}

/-- What an install does is the same whatever options its entry has. -/
theorem install_initOptions (i : Installer) (e : RegistryEntry) (options : Option Json) :
    i.install { e with initOptions := options } = i.install e := rfl

/-- An install that ends well leaves the configuration with its binary registered, and the rest as it was. -/
theorem registered_of_install (made : Logged log t (i.install e) (.ok b, i') t') :
    ∃ plan date, Install.plan i.servers e i.platform = .ok plan ∧
      i'.configs = { i.configs with
        installed := enrolled i.configs.installed e (entered e plan.method plan.source.version date b) } := by
  obtain ⟨ended, o, ran, -, ends⟩ := logged_install (idle_of_install made) made
  rcases ends with ⟨error, _, failed, _⟩ | ⟨b', configs', rfl, same, rfl⟩
  · cases failed
  cases same
  cases planned : plan i.servers e i.platform with
  | error error =>
      unfold run at ran
      rw [planned] at ran
      cases ran
  | ok plan =>
      have heard : Heard (IsPython plan.method) plan.method plan.backend :=
        heard_ofMethod (plan_cases planned).2
      obtain ⟨first, performed, look, registered, last, had, o₁, t₁, o₂, t₂, -, -, -, -, registers, -, -⟩ :=
        logged_run_ok planned heard.cleanup ran
      obtain ⟨now, published, date, text, -, entries, -, -⟩ := logged_register registers
      exact ⟨plan, date, rfl, entries⟩

/-- The options of an entry reach no server. An install of it is the same with any others; where it ends well,
each language of the entry that the user says nothing about is launched with the new binary and without
options, also once the manifest has been read again. In every run of a host with some configuration, whatever
first request is queued for a server tells the options that the user has set for its language. Where the user
says nothing it tells none, and so what the entry says only if that is nothing too. A server that others are told
of was sent such a request. -/
theorem entry_options_reach_no_server (made : Logged log t (i.install e) (.ok b, i') t') :
    (∀ options, i.install { e with initOptions := options } = i.install e) ∧
      i'.configs.overrides = i.configs.overrides ∧
      (∀ c : ServerConfigs, c.installed = i'.configs.installed → ∀ language ∈ registeredLanguages e,
        c.overrides.get? language = none → c.get? language = some ⟨b, true, none, none⟩) ∧
      ∀ (c : ServerConfigs) (timeout : Nat) (launcher : Launcher) (moves : List Traffic.Move),
        (∀ move ∈ moves, move.IsProper c.userOptions) →
        let begun := Traffic.start c.get? timeout launcher
        let s := begun.run moves
        (∀ (j : Nat) (l : Link) (r : Request), s.fleet.links[j]? = some l →
          .message (.request r) ∈ l.client.outbound → r.method = "initialize" →
          r.params.get? "initializationOptions" = c.userOptions l.client.language ∧
            (c.overrides.get? l.client.language = none →
              (r.params.get? "initializationOptions" = e.initOptions ↔ e.initOptions = none))) ∧
        ∀ language j, (s.fleet.slot language).running.map Prod.fst = some j → s.fleet.Serves language j ∧
          ∃ before, before <+: moves ∧ (begun.run before).fleet.Introduces j := by
  obtain ⟨plan, date, -, left⟩ := registered_of_install made
  refine ⟨install_initOptions i e, by rw [left], fun c same language named unset => ?_, ?_⟩
  · rw [ServerConfigs.get?_unset unset, same, left, get?_enrolled i.configs.installed _ named]
    rfl
  · intro c timeout launcher moves proper begun s
    have known : s.Introduced c.userOptions fun j =>
        ∃ before, before <+: moves ∧ (begun.run before).fleet.Introduces j := by
      refine (Traffic.Introduced.start (fun _ _ => ServerConfigs.initOptions_of_get?) timeout launcher).run
        (Traffic.sound_start c.get? timeout launcher) proper ?_
      exact fun before short j shown => ⟨before, short, shown⟩
    refine ⟨fun j l r there queued first => ?_, known.running⟩
    have told : r.params.get? "initializationOptions" = c.userOptions l.client.language := by
      rw [known.conveys j l there _ queued r rfl first, known.configured j l there]
    refine ⟨told, fun unset => ?_⟩
    have none_told : c.userOptions l.client.language = none := by
      rw [ServerConfigs.userOptions, unset, Option.bind_none]
    rw [told, none_told]
    exact eq_comm

namespace Linked

/-- The same entry with options. -/
def tuned : RegistryEntry := { entry with initOptions := some (.obj [("checks", .bool true)]) }

/-- A host with what has been installed, whose servers never answer. -/
def launching (c : ServerConfigs) : Traffic := .start c.get? 9 fun _ _ _ => .ok ⟨.ofScript .empty, none⟩

/-- A start up to its first request. -/
def introducing : List Traffic.Move :=
  [.begin (.start ⟨"n", ⟨"/"⟩, [], .reject⟩ .fresh)] ++ List.replicate 9 (.turn 0)

theorem logged_tuned : Logged moments atFirst (installer.install tuned)
    (.ok binary, { installer with
      configs := configs
      operation := some ((shown (.start "n")).finish (.ok (binary, configs))) })
    (registered (Utf8.ofString text)) := by
  rw [tuned, install_initOptions]
  exact logged_moments

theorem proper_introducing (options : String → Option Json) :
    ∀ move ∈ introducing, move.IsProper options := by
  simp [introducing, Traffic.Move.IsProper, Task.isProper]

end Linked

/-- A server that was installed from an entry with options is told none. -/
theorem tuned_entry_is_introduced_without_options :
    Linked.tuned.initOptions = some (.obj [("checks", .bool true)]) ∧
      ∃ i' t', Logged Linked.moments Linked.atFirst (Linked.installer.install Linked.tuned)
          (.ok Linked.binary, i') t' ∧
        i'.configs.get? "n" = some ⟨Linked.binary, true, none, none⟩ ∧
        ∃ (l : Link) (r : Request),
          ((Linked.launching i'.configs).run Linked.introducing).fleet.links[0]? = some l ∧
          .message (.request r) ∈ l.client.outbound ∧ r.method = "initialize" ∧
          r.params.get? "initializationOptions" = none := by
  obtain ⟨-, -, launched, told⟩ := entry_options_reach_no_server Linked.logged_tuned
  have queued : (((Linked.launching Linked.configs).run Linked.introducing).fleet.links[0]?.map fun l =>
      (l.client.language, l.client.outbound.map Outbound.method?)) = some ("n", [some "initialize"]) := by
    decide +kernel
  obtain ⟨l, there, found⟩ := Option.map_eq_some_iff.mp queued
  obtain ⟨language, outbound⟩ := Prod.mk.inj found
  obtain ⟨o, front, named⟩ := List.map_eq_singleton_iff.mp outbound
  obtain ⟨r, rfl, first⟩ := Outbound.exists_of_method? named
  have member : .message (.request r) ∈ l.client.outbound := by simp [front]
  refine ⟨rfl, _, _, Linked.logged_tuned, launched _ rfl "n" (by decide) rfl, l, r, there, member, first, ?_⟩
  obtain ⟨requests, -⟩ := told Linked.configs 9 _ Linked.introducing (Linked.proper_introducing _)
  obtain ⟨options, -⟩ := requests 0 l r there member first
  rw [options]
  rfl

end Install

end LanguageHost
