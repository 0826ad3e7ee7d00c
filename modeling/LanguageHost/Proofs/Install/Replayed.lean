import LanguageHost.Proofs.Install.Cancelled
import LanguageHost.Proofs.Install.Channel

/-! Every run of an install on an idle installer is one that a call on it can make, with each answer of the
machine as it was: the call comes to its end, and has done just this. So its output, which is what its calls
have reported, has all that the run reports. -/
namespace LanguageHost

namespace Install
open Program (Logged)

/-- The program begins with a call. -/
def Asks : Program α → Prop
  | .done _ => False
  | .call .. => True

theorem logged_asks {p : Program α} {f : α → Program β} (asks : Asks p) {log : List Occasion}
    {t t' : Files} {b : β} (run : Logged log t (p >>= f) b t') :
    ∃ m rest, log = m :: rest ∧ m.host.files = t ∧ p.occasion? m.host = some m ∧
      Logged rest m.after.files (p.resume m.host >>= f) b t' := by
  cases p with
  | done a => exact asks.elim
  | call c next =>
      cases run with
      | call files on => exact ⟨_, _, rfl, files, rfl, on⟩

namespace Stage

/-- How many turns an install has left at most. -/
def rank : Stage → Nat
  | .placed => 8
  | .clearing .. => 7
  | .working _ _ .preparing _ => 6
  | .working _ _ .installing _ => 5
  | .working _ _ .verifying _ => 4
  | .draining .. => 3
  | .settling _ => 2
  | .closing .. => 1
  | .leaving .. => 0

theorem rank_turn {i : Installer} {e : RegistryEntry} {drained : Bool} {st : Stage}
    {next : Stage × Installer} (turns : st.turn i e drained = some next) : next.1.rank < st.rank := by
  cases turn_cases turns with
  | @fail _ _ part => cases part <;> simp [rank]
  | _ => simp [rank, start]

/-- The install goes on with a call to the machine. -/
def Asks : Stage → Prop
  | .clearing _ rest => Install.Asks rest
  | .working _ _ _ rest => Install.Asks rest
  | .settling rest => Install.Asks rest
  | _ => False

/-- An install that has not ended asks the machine, or takes a turn once its channel is empty. -/
theorem asks_or_turns (st : Stage) (i : Installer) (e : RegistryEntry) :
    (∃ r o, st = .leaving r o) ∨ st.Asks ∨ ∃ next, st.turn i e true = some next := by
  cases st with
  | placed =>
      refine .inr (.inr ?_)
      unfold turn
      cases plan i.servers e i.platform with
      | error error => exact ⟨_, rfl⟩
      | ok p => exact ⟨_, rfl⟩
  | clearing p rest =>
      obtain ⟨_ | _, o⟩ | _ := rest
      · exact .inr (.inr ⟨_, rfl⟩)
      · exact .inr (.inr ⟨_, rfl⟩)
      · exact .inr (.inl trivial)
  | working p had part rest =>
      obtain ⟨_ | _, o⟩ | _ := rest
      · exact .inr (.inr ⟨_, rfl⟩)
      · cases part <;> exact .inr (.inr ⟨_, rfl⟩)
      · exact .inr (.inl trivial)
  | draining p had r o => exact .inr (.inr ⟨_, rfl⟩)
  | settling rest =>
      obtain ⟨r, o⟩ | _ := rest
      · exact .inr (.inr ⟨_, rfl⟩)
      · exact .inr (.inl trivial)
  | closing r o => exact .inr (.inr ⟨_, rfl⟩)
  | leaving r o => exact .inl ⟨r, o, rfl⟩

/-- Where an install asks the machine, the log of what is left of it begins with this call. -/
theorem logged_rest {servers : Path} {configs : ServerConfigs} {e : RegistryEntry} {platform : Platform}
    {st : Stage} (asks : st.Asks) {log : List Occasion} {t t' : Files}
    {a : Except Error (ServerBinary × ServerConfigs) × Operation}
    (run : Logged log t (st.rest servers configs e platform) a t') :
    ∃ m rest, log = m :: rest ∧ m.host.files = t ∧ st.occasion? m.host = some m ∧
      Logged rest m.after.files ((st.resume m.host).rest servers configs e platform) a t' := by
  cases st with
  | clearing p rest => exact logged_asks asks run
  | working p had part rest => exact logged_asks asks run
  | settling rest => exact logged_asks asks run
  | _ => exact asks.elim

end Stage

/-- A cancellation stays from one call to the next, `cancelled` being whether there is one before. -/
def Lasts : Bool → List Occasion → Prop
  | _, [] => True
  | cancelled, m :: log => (cancelled = true → m.host.isCancelled = true) ∧ Lasts m.after.isCancelled log

theorem Lasts.of_lasting {cancelled : Bool} {log : List Occasion} (lasting : Lasting log)
    (first : ∀ m ∈ log.head?, cancelled = true → m.host.isCancelled = true) : Lasts cancelled log := by
  induction log generalizing cancelled with
  | nil => trivial
  | cons m log ih =>
      obtain ⟨next, rest⟩ := List.isChain_cons.mp lasting
      exact ⟨first m rfl, ih rest fun n there => next n there⟩

end Install

namespace Workshop
open Install (Visit Stage outputBuffer Lasts)
open Program (Logged)

variable {s : Workshop} {k : Nat} {v : Visit}

/-- The lines of a call can all be sent and taken. -/
theorem flushed (there : s.calls k = some v) (empty : v.channel = [])
    (listens : v.unsent ≠ [] → v.stage.listens = true) : ∃ moves,
    (s.run moves).calls k = some { v with unsent := [], channel := [] } ∧
      (s.run moves).files = s.files ∧ (s.run moves).signalled = s.signalled := by
  obtain ⟨entry, origin, found, stage, log, asked, unsent, channel⟩ := v
  cases empty
  induction unsent generalizing s with
  | nil => exact ⟨[], there, rfl, rfl⟩
  | cons line rest ih =>
      have sends := next_send there rfl (Nat.zero_lt_succ 63)
      have takes := next_take (calls_put s k ⟨entry, origin, found, stage, log, asked, rest, [line]⟩) rfl
        (listens nofun)
      have both : s.run [.send k, .take k] = _ := (congrArg (next · (.take k)) sends).trans takes
      obtain ⟨moves, calls, files, signalled⟩ := ih (s := s.run [.send k, .take k])
        (by rw [both]; exact calls_put _ k _) fun _ => listens nofun
      refine ⟨[.send k, .take k] ++ moves, ?_, ?_, ?_⟩
      · rw [run_append]
        exact calls
      · rw [run_append, files, both]
        rfl
      · rw [run_append, signalled, both]
        rfl

/-- The token of the call that has the place is signalled where it has to be. -/
theorem signals (sound : s.Sound) (there : s.calls k = some v) {cancelled : Bool}
    (lasts : k ∈ s.signalled → cancelled = true) :
    ∃ moves, (s.run moves).calls k = some v ∧ (s.run moves).files = s.files ∧
      cancelled = decide (k ∈ (s.run moves).signalled) := by
  by_cases before : k ∈ s.signalled
  · exact ⟨[], there, rfl, by simp [run, before, lasts before]⟩
  · cases cancelled with
    | false => exact ⟨[], there, rfl, by simp [run, before]⟩
    | true => exact ⟨[.cancel], there, rfl, by simp [run, next, cancel, sound.held there]⟩

/-- A call to the machine can be answered, with all its lines shown. -/
theorem answered_call (tidy : s.Tidy) (there : s.calls k = some v) (unasked : v.asked = none)
    (empty : v.channel = []) {m : Occasion} (files : m.host.files = s.files)
    (asks : v.stage.occasion? m.host = some m)
    (lasts : k ∈ s.signalled → m.host.isCancelled = true) : ∃ moves,
    (s.run moves).calls k = some { v with
      stage := v.stage.resume m.host, log := v.log ++ [m], asked := none, unsent := [], channel := [] } ∧
      (s.run moves).files = m.after.files ∧
      m.after.isCancelled = decide (k ∈ (s.run moves).signalled) := by
  obtain ⟨first, there₁, files₁, signalled₁⟩ := signals tidy.sound there lasts
  have asking := next_ask there₁ unasked (files.trans files₁.symm) signalled₁ asks
  obtain ⟨s₂, reached, there₂, signalled₂⟩ : ∃ s₂, s.run (first ++ [.ask k m.host]) = s₂ ∧
      s₂.calls k = some { v with asked := some m.host, unsent := m.lines } ∧
      s₂.signalled = (s.run first).signalled :=
    ⟨_, (run_append s first [.ask k m.host]).trans asking, calls_put _ k _, rfl⟩
  have tidy₂ : s₂.Tidy := reached ▸ tidy.run (first ++ [.ask k m.host])
  have listens (waits : m.lines ≠ []) : v.stage.listens = true := by
    cases still : v.stage.listens with
    | true => rfl
    | false => exact absurd ((tidy₂.accounts k _ there₂).still still).2 waits
  obtain ⟨second, there₃, files₃, signalled₃⟩ := flushed there₂ empty listens
  have cancels : k ∈ (s₂.run second).signalled → m.after.isCancelled = true := by
    rw [signalled₃, signalled₂]
    intro listed
    exact Host.isCancelled_answer (signalled₁.trans (decide_eq_true listed)) m.call
  obtain ⟨third, there₄, files₄, signalled₄⟩ := signals (tidy₂.run second).sound there₃ cancels
  have answering := next_answer there₄ rfl asks rfl fun cancelled =>
    of_decide_eq_true (signalled₄.symm.trans cancelled)
  have reached₅ : s.run (first ++ [.ask k m.host] ++ second ++ third ++ [.answer k]) =
      ((s₂.run second).run third).next (.answer k) := by
    rw [run_append, run_append _ _ third, run_append _ _ second, reached]
    rfl
  refine ⟨first ++ [.ask k m.host] ++ second ++ third ++ [.answer k], ?_⟩
  rw [reached₅, answering]
  exact ⟨calls_put _ k _, rfl, signalled₄⟩

/-- What is left of an install can be done just as in a run of it. A call to the machine shortens the log
that is left, and a turn lowers the rank of the stage. -/
theorem replayed_from {s : Workshop} {v : Visit} {log : List Occasion} (tidy : s.Tidy)
    (there : s.calls k = some v) (unasked : v.asked = none) (empty : v.channel = [])
    {a : Except Error (ServerBinary × ServerConfigs) × Operation} {t' : Files}
    (made : Logged log s.files
      (v.stage.rest v.origin.servers v.origin.configs v.entry v.origin.platform) a t')
    (lasts : Lasts (decide (k ∈ s.signalled)) log) : ∃ moves v',
    (s.run moves).calls k = some v' ∧ v'.stage = .leaving a.1 a.2 ∧ v'.log = v.log ++ log ∧
      (s.run moves).files = t' := by
  have follows := tidy.follows k v there
  rcases v.stage.asks_or_turns s.installer v.entry with ⟨r, o, leaving⟩ | asks | ⟨⟨stage, i⟩, turns⟩
  · rw [leaving] at made
    cases made
    exact ⟨[], v, there, leaving, (List.append_nil _).symm, rfl⟩
  · obtain ⟨m, rest, rfl, files, asking, after⟩ := Stage.logged_rest asks made
    obtain ⟨first, there₁, files₁, signalled₁⟩ := answered_call tidy there unasked empty files asking
      fun listed => lasts.1 (decide_eq_true listed)
    obtain ⟨moves, v', ends, leaving, logs, left⟩ := replayed_from (tidy.run first) there₁ rfl rfl
      (files₁ ▸ after) (signalled₁ ▸ lasts.2)
    refine ⟨first ++ moves, v', ?_, leaving, ?_, ?_⟩
    · rw [run_append]
      exact ends
    · rw [logs, List.append_assoc, List.singleton_append]
    · rw [run_append]
      exact left
  · have drained : v.stage.turn s.installer v.entry v.channel.isEmpty = some (stage, i) := by
      rw [empty]
      exact turns
    have turned : s.run [.turn k] = _ := next_turn there drained
    have same := Stage.rest_turn turns follows.configs
    rw [follows.servers, follows.platform] at same
    have lower := Stage.rank_turn turns
    have tidy₁ := tidy.run [.turn k]
    rw [turned] at tidy₁
    obtain ⟨moves, v', ends, leaving, logs, left⟩ := replayed_from tidy₁
      (calls_put (s.adopt i) k { v with stage := stage }) unasked empty (same ▸ made) lasts
    rw [← turned, ← run_append] at ends left
    exact ⟨_, v', ends, leaving, logs, left⟩
termination_by (log.length, v.stage.rank)

/-- Every run of an install on an installer that nobody has called is one that the call which has begun it
can make. -/
theorem replayed_begun {servers : Path} {configs : ServerConfigs} {platform : Platform} {e : RegistryEntry}
    {log : List Occasion} {t t' : Files} {r : Except Error ServerBinary} {i' : Installer}
    (made : Logged log t ((Installer.ofConfigs servers configs platform).install e) (r, i') t')
    (lasting : Lasting log) : ∃ moves v ended o,
    (((opened servers configs platform t).begin e).run moves).calls 0 = some v ∧
      v.stage = .leaving ended o ∧ ended.map Prod.fst = r ∧ v.log = log ∧
      (((opened servers configs platform t).begin e).run moves).files = t' := by
  obtain ⟨ended, o, ran, -, ends⟩ := Install.logged_install rfl made
  have answer : ended.map Prod.fst = r := by
    rcases ends with ⟨error, rfl, rfl, -⟩ | ⟨b, registered, rfl, rfl, -⟩ <;> rfl
  let found := opened servers configs platform t
  have begun : found.begin e = _ := begin_of_free (s := found) rfl e
  have tidy := (tidy_opened servers configs platform t).begin e
  rw [begun] at tidy
  obtain ⟨moves, v, there, leaving, logs, left⟩ := replayed_from tidy
    (calls_put _ 0 (.start e found.installer t)) rfl rfl ran (.of_lasting lasting fun _ _ => nofun)
  rw [← begun] at there left
  exact ⟨moves, v, ended, o, there, leaving, answer, logs, left⟩

theorem replayed {servers : Path} {configs : ServerConfigs} {platform : Platform} {e : RegistryEntry}
    {log : List Occasion} {t t' : Files} {r : Except Error ServerBinary} {i' : Installer}
    (made : Logged log t ((Installer.ofConfigs servers configs platform).install e) (r, i') t')
    (lasting : Lasting log) : ∃ moves v ended o,
    ((opened servers configs platform t).run moves).calls 0 = some v ∧ v.stage = .leaving ended o ∧
      ended.map Prod.fst = r ∧ v.log = log ∧
      ((opened servers configs platform t).run moves).files = t' :=
  let ⟨moves, v, ended, o, there⟩ := replayed_begun made lasting
  ⟨.begin e :: moves, v, ended, o, there⟩

end Workshop

end LanguageHost

/-! The output of an install is what its calls have reported, however it is passed on, and nobody waits for
ever to pass it on. -/
namespace LanguageHost.Workshop
open Install (Visit outputBuffer)
open Program (Logged)

/-- However the commands of an install, the orchestrator that shows their lines, cancellations and other
calls take turns: when a call returns, the output that is shown is what its calls have reported, line by
line in their order, and these calls are a run of the install, which has put out the same. And the channel
never holds more than its bound; where a command waits because it is full, a line is taken from it next. -/
theorem output_is_what_was_reported {servers : Path} {configs : ServerConfigs} {platform : Platform}
    {files : Files} {moves : List Move} {s : Workshop} {k : Nat} {v : Visit}
    (reached : (opened servers configs platform files).run moves = s) (there : s.calls k = some v) :
    (∀ r o, v.stage = .leaving r o →
      (s.next (.leave k)).returned k = some (r.map Prod.fst) ∧
      (∃ shown, (s.next (.leave k)).operation = some shown ∧ shown.output = reported v.log) ∧
      ∃ i, Logged v.log v.found (v.origin.install v.entry) (r.map Prod.fst, i) s.files ∧
        ∃ own, i.operation = some own ∧ own.output = reported v.log) ∧
    v.channel.length ≤ outputBuffer ∧
    (v.unsent ≠ [] → ¬ v.channel.length < outputBuffer →
      ∃ line rest o, v.channel = line :: rest ∧ rest.length < outputBuffer ∧ s.operation = some o ∧
        s.next (.take k) =
          { s with operation := some (o.addLine line) }.put k { v with channel := rest }) := by
  have tidy : s.Tidy := reached ▸ (tidy_opened servers configs platform files).run moves
  refine ⟨fun r o leaving => ?_, (tidy.accounts k v there).bound, tidy.takes_of_full there⟩
  have left : s.next (.leave k) = (s.release k).answers k (r.map Prod.fst) := by
    simp only [next, step, there, Workshop.left, leaving]
  have follows := tidy.follows k v there
  obtain ⟨shown, same, output⟩ := tidy.shown_of_leaving there leaving
  rw [left]
  refine ⟨by simp [answers], ⟨shown, same, output⟩, _, follows.installed leaving, _, rfl, ?_⟩
  rw [Operation.output_finish]
  have ran := follows.ran leaving
  simpa [Operation.start] using
    (Install.reports_run v.origin.servers v.origin.configs v.entry v.origin.platform).output ran

theorem download_is_shown : ∃ moves v,
    (Sample.idle.run moves).calls 0 = some v ∧ v.channel.length ≤ outputBuffer ∧
      ((Sample.idle.run moves).next (.leave 0)).returned 0 =
        some (.error (.download Install.Sample.link Install.Sample.reason)) ∧
      ∃ shown, ((Sample.idle.run moves).next (.leave 0)).operation = some shown ∧
        shown.output = ["Downloading " ++ Install.Sample.link] := by
  obtain ⟨i', made⟩ := Install.Sample.logged_moments
  obtain ⟨moves, v, ended, o, there, leaving, answer, logs, -⟩ :=
    replayed made Install.Sample.lasting_moments
  obtain ⟨ends, bound, -⟩ := output_is_what_was_reported (s := Sample.idle.run moves) rfl there
  obtain ⟨returned, ⟨shown, same, output⟩, -⟩ := ends ended o leaving
  rw [answer] at returned
  rw [logs] at output
  exact ⟨moves, v, there, bound, returned, shown, same, output⟩

end LanguageHost.Workshop
