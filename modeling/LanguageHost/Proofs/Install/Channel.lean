import LanguageHost.Proofs.Install.Sole

/-! A call that comes to its end has run an install, whatever came between its steps. On the channel between
the commands of the install and the operation that is shown nothing is lost: what has been reported is shown,
in the channel or waiting for room in it, in this order; while anything can be in the channel it is taken from
there, so that no line waits for ever and none is left when a call ends. -/
namespace LanguageHost

namespace Install

section run
open Program (Logged)

namespace Stage

/-- What of an install is left at a stage. -/
def rest (servers : Path) (configs : ServerConfigs) (e : RegistryEntry) (platform : Platform) :
    Stage → Program (Except Error (ServerBinary × ServerConfigs) × Operation)
  | .placed => (Install.run servers configs e platform).run.run (.start e.name)
  | .clearing p rest => rest >>= afterAside servers configs e platform p
  | .working p had part rest => rest >>= afterPart servers configs e platform p had part
  | .draining p had r o => afterWork servers configs e p had (r, o)
  | .settling rest => rest >>= pure
  | .closing r o | .leaving r o => pure (r, o)

/-- The servers that are registered at a stage, by those that were when the install began. -/
def registered (configs : ServerConfigs) : Stage → ServerConfigs
  | .closing (.ok (_, registered)) _ | .leaving (.ok (_, registered)) _ => registered
  | _ => configs

section turn
variable {i : Installer} {e : RegistryEntry} {drained : Bool} {st : Stage} {next : Stage × Installer}
  (turns : st.turn i e drained = some next)
include turns

theorem same_turn :
    next.2.servers = i.servers ∧ next.2.platform = i.platform ∧ next.2.active = i.active := by
  cases turn_cases turns with
  | @close r o => cases r <;> exact ⟨rfl, rfl, rfl⟩
  | _ => exact ⟨rfl, rfl, rfl⟩

theorem registered_turn {configs : ServerConfigs} (known : i.configs = st.registered configs) :
    next.2.configs = next.1.registered configs := by
  cases turn_cases turns with
  | @close r o =>
      cases r with
      | ok done => rfl
      | error error => exact known
  | @leave r o => cases r <;> exact known
  | _ => exact known

theorem rest_turn {configs : ServerConfigs} (known : i.configs = st.registered configs) :
    next.1.rest i.servers configs e i.platform = st.rest i.servers configs e i.platform := by
  cases turn_cases turns with
  | refuse planned => exact (run_of_error planned _).symm
  | clear planned => exact (run_eq planned _).symm
  | install => exact (afterPart_preparing _ _ _).symm
  | verify => exact (afterPart_installing _ _ _).symm
  | settle =>
      have same : i.configs = configs := known
      rw [← same]
      exact bind_pure _
  | _ => rfl

end turn

theorem rest_resume {servers : Path} {configs : ServerConfigs} {e : RegistryEntry} {platform : Platform}
    {h : Host} {m : Occasion} {st : Stage} (asks : st.occasion? h = some m) {log : List Occasion}
    {a : Except Error (ServerBinary × ServerConfigs) × Operation} {t' : Files}
    (run : Logged log m.after.files ((st.resume h).rest servers configs e platform) a t') :
    Logged (m :: log) h.files (st.rest servers configs e platform) a t' := by
  cases st with
  | clearing p rest => exact run.answered asks
  | working p had part rest => exact run.answered asks
  | settling rest => exact run.answered asks
  | _ => cases asks

end Stage

/-- What the call has done so far, and what is left of it, is an install from what it has found. -/
structure Visit.Follows (v : Visit) (i : Installer) (t : Files) : Prop where
  servers : i.servers = v.origin.servers
  platform : i.platform = v.origin.platform
  idle : v.origin.active = false
  configs : i.configs = v.stage.registered v.origin.configs
  asked : ∀ h, v.asked = some h → h.files = t
  onward : ∀ log a t',
    Logged log t (v.stage.rest v.origin.servers v.origin.configs v.entry v.origin.platform) a t' →
    Logged (v.log ++ log) v.found ((Install.run v.origin.servers v.origin.configs v.entry
      v.origin.platform).run.run (.start v.entry.name)) a t'

namespace Visit.Follows
variable {v : Visit} {i : Installer} {t : Files}

theorem start {i : Installer} (idle : i.active = false) (e : RegistryEntry) (t : Files) :
    (Visit.start e i t).Follows i t where
  servers := rfl
  platform := rfl
  idle := idle
  configs := rfl
  asked _ := nofun
  onward _ _ _ run := run

theorem turn (h : v.Follows i t) {drained : Bool} {st : Stage} {i' : Installer}
    (turns : v.stage.turn i v.entry drained = some (st, i')) :
    ({ v with stage := st } : Visit).Follows i' t := by
  obtain ⟨servers, platform, -⟩ := Stage.same_turn turns
  constructor
  · exact servers.trans h.servers
  · exact platform.trans h.platform
  · exact h.idle
  · exact Stage.registered_turn turns h.configs
  · exact h.asked
  · intro log a t' run
    refine h.onward log a t' ?_
    have same := Stage.rest_turn turns h.configs
    rw [h.servers, h.platform] at same
    rw [← same]
    exact run

theorem ask (h : v.Follows i t) {m : Host} (files : m.files = t) (unsent : List String) :
    ({ v with asked := some m, unsent := unsent } : Visit).Follows i t where
  servers := h.servers
  platform := h.platform
  idle := h.idle
  configs := h.configs
  asked := by
    rintro _ ⟨⟩
    exact files
  onward := h.onward

theorem move (h : v.Follows i t) (unsent channel : List String) :
    ({ v with unsent := unsent, channel := channel } : Visit).Follows i t :=
  ⟨h.servers, h.platform, h.idle, h.configs, h.asked, h.onward⟩

theorem revise (h : v.Follows i t) (f : Operation → Operation) : v.Follows (i.revise f) t :=
  ⟨h.servers, h.platform, h.idle, h.configs, h.asked, h.onward⟩

theorem answer (h : v.Follows i t) {m : Host} {c : Occasion} (asked : v.asked = some m)
    (asks : v.stage.occasion? m = some c) :
    ({ v with stage := v.stage.resume m, log := v.log ++ [c], asked := none } : Visit).Follows i
      c.after.files where
  servers := h.servers
  platform := h.platform
  idle := h.idle
  configs := by
    refine h.configs.trans ?_
    cases stage : v.stage <;> rfl
  asked _ := nofun
  onward log a t' run := by
    rw [List.append_assoc]
    refine h.onward _ a t' ?_
    rw [← h.asked m asked]
    exact Stage.rest_resume asks run

theorem ran (h : v.Follows i t) {r : Except Error (ServerBinary × ServerConfigs)} {o : Operation}
    (leaving : v.stage = .leaving r o) :
    Logged v.log v.found ((Install.run v.origin.servers v.origin.configs v.entry
      v.origin.platform).run.run (.start v.entry.name)) (r, o) t := by
  have ran := h.onward [] (r, o) t (by rw [leaving]; exact .done)
  rwa [List.append_nil] at ran

/-- A call whose install has ended has run it. -/
theorem installed (h : v.Follows i t) {r : Except Error (ServerBinary × ServerConfigs)} {o : Operation}
    (leaving : v.stage = .leaving r o) :
    Logged v.log v.found (v.origin.install v.entry)
      (r.map Prod.fst, { i with active := false, operation := some (o.finish r) }) t := by
  have ran := h.ran leaving
  have configs := h.configs
  rw [leaving] at configs
  unfold Installer.install Installer.reserve Installer.runReserved
  rw [h.idle, ← List.append_nil v.log]
  refine Logged.bind ran ?_
  obtain ⟨servers, registered, platform, active, operation⟩ := i
  obtain rfl : servers = v.origin.servers := h.servers
  obtain rfl : platform = v.origin.platform := h.platform
  obtain rfl := configs
  cases r <;> exact .done

end Visit.Follows

end run

namespace Stage

/-- Where the channel is not taken from, no call that is still to come reports a line. -/
def Mute : Stage → Prop
  | .clearing p rest => Vocal p.method p.backend ∧ rest.Mute
  | .working p _ _ _ | .draining p _ _ _ => Vocal p.method p.backend
  | .settling rest => rest.Mute
  | _ => True

theorem Mute.resume {st : Stage} (mute : st.Mute) (h : Host) : (st.resume h).Mute := by
  cases st with
  | clearing p rest => exact ⟨mute.1, Program.Mute.resume mute.2⟩
  | settling rest => exact Program.Mute.resume mute
  | _ => exact mute

theorem Mute.lines {st : Stage} (mute : st.Mute) (still : st.listens = false) {h : Host} {m : Occasion}
    (asks : st.occasion? h = some m) : m.lines = [] := by
  cases st with
  | clearing p rest => exact Program.Mute.lines mute.2 asks
  | settling rest => exact Program.Mute.lines mute asks
  | working p had part rest => cases still
  | _ => cases asks

theorem listens_resume (st : Stage) (h : Host) : (st.resume h).listens = st.listens := by
  cases st <;> rfl

theorem resume_ne_placed {st : Stage} (begun : st ≠ .placed) (h : Host) : st.resume h ≠ .placed := by
  cases st with
  | placed => exact absurd rfl begun
  | _ => exact nofun

section turn
variable {i : Installer} {e : RegistryEntry} {drained : Bool} {st : Stage} {next : Stage × Installer}
  (turns : st.turn i e drained = some next)
include turns

theorem occasion_turn (h : Host) : st.occasion? h = none := by
  cases turn_cases turns <;> rfl

theorem turn_ne_placed : next.1 ≠ .placed := by
  cases turn_cases turns <;> exact nofun

theorem listens_turn (still : next.1.listens = false) : st.listens = false ∨ drained = true := by
  cases turn_cases turns with
  | settle empty => exact .inr empty
  | refuse | clear | stuck | close | leave => exact .inl rfl
  | _ => cases still

theorem shown_turn : (st = .placed ∧ next.2.operation = some (.start e.name)) ∨ st ≠ .placed ∧
    ∃ f : Operation → Operation, (∀ o, (f o).output = o.output) ∧ next.2.operation = i.operation.map f := by
  have same : i.operation = i.operation.map id := Option.map_id_apply.symm
  cases turn_cases turns with
  | refuse => exact .inl ⟨rfl, rfl⟩
  | clear => exact .inl ⟨rfl, rfl⟩
  | prepare => exact .inr ⟨nofun, _, Part.preparing.output_enter, rfl⟩
  | install => exact .inr ⟨nofun, _, Part.installing.output_enter, rfl⟩
  | verify => exact .inr ⟨nofun, _, Part.verifying.output_enter, rfl⟩
  | @close r o =>
      refine .inr ⟨nofun, id, fun _ => rfl, ?_⟩
      cases r <;> exact same
  | leave => exact .inr ⟨nofun, _, fun o => Operation.output_finish o _, rfl⟩
  | _ => exact .inr ⟨nofun, id, fun _ => rfl, same⟩

theorem Mute.turn (mute : st.Mute) : next.1.Mute := by
  cases turn_cases turns with
  | refuse => trivial
  | clear planned => exact ⟨plan_vocal planned, (reports_setAside _ _).mute trivial _⟩
  | stuck => trivial
  | prepare => exact mute.1
  | settle => exact (reports_settle mute.cleanup _ _ _ _ _).mute trivial _
  | close => trivial
  | leave => trivial
  | _ => exact mute

end turn

end Stage

/-- What the calls of a call have reported is shown, in its channel or waiting for room there, in this
order. -/
structure Visit.Accounts (v : Visit) (shown : Option Operation) : Prop where
  bound : v.channel.length ≤ outputBuffer
  idle : v.asked = none → v.unsent = []
  asking : ∀ h, v.asked = some h → ∃ m, v.stage.occasion? h = some m
  still : v.stage.listens = false → v.channel = [] ∧ v.unsent = []
  mute : v.stage.Mute
  fresh : v.stage = .placed → v.log = []
  account : v.stage ≠ .placed → ∃ o, shown = some o ∧
    o.output ++ (v.channel ++ v.unsent) = reported v.log ++ reported v.occasion?.toList

namespace Visit.Accounts
variable {v : Visit} {shown : Option Operation}

theorem start (e : RegistryEntry) (i : Installer) (t : Files) : (Visit.start e i t).Accounts shown where
  bound := Nat.zero_le _
  idle _ := rfl
  asking _ := nofun
  still _ := ⟨rfl, rfl⟩
  mute := trivial
  fresh _ := rfl
  account begun := absurd rfl begun

theorem turn {i i' : Installer} (h : v.Accounts i.operation) {st : Stage}
    (turns : v.stage.turn i v.entry v.channel.isEmpty = some (st, i')) :
    ({ v with stage := st } : Visit).Accounts i'.operation := by
  -- a stage that takes a turn asks nothing, so no answer is outstanding
  have unasked : v.asked = none := by
    cases asked : v.asked with
    | none => rfl
    | some m =>
        obtain ⟨c, asks⟩ := h.asking m asked
        cases (Stage.occasion_turn turns m).symm.trans asks
  have unsent := h.idle unasked
  constructor
  · exact h.bound
  · exact h.idle
  · intro m asked
    cases unasked.symm.trans asked
  · intro still
    refine ⟨?_, unsent⟩
    rcases Stage.listens_turn turns still with before | drained
    · exact (h.still before).1
    · exact List.isEmpty_iff.mp drained
  · exact h.mute.turn turns
  · exact fun placed => absurd placed (Stage.turn_ne_placed turns)
  · intro _
    have before : v.occasion? = none := by rw [Visit.occasion?, unasked]; rfl
    have after : ({ v with stage := st } : Visit).occasion? = none := by
      rw [Visit.occasion?, unasked]
      rfl
    rw [after]
    rcases Stage.shown_turn turns with ⟨placed, shows⟩ | ⟨begun, f, same, shows⟩
    · -- the operation is new, and so is all that is to be shown of it
      have still : v.stage.listens = false := by rw [placed]; rfl
      refine ⟨_, shows, ?_⟩
      dsimp only
      rw [(h.still still).1, unsent, h.fresh placed]
      rfl
    · obtain ⟨o, shown, account⟩ := h.account begun
      rw [before] at account
      refine ⟨f o, by rw [shows, shown]; rfl, ?_⟩
      rw [same]
      exact account

theorem ask (h : v.Accounts shown) {m : Host} {c : Occasion} (unasked : v.asked = none)
    (asks : v.stage.occasion? m = some c) :
    ({ v with asked := some m, unsent := c.lines } : Visit).Accounts shown := by
  have unsent := h.idle unasked
  constructor
  · exact h.bound
  · intro none
    cases none
  · rintro _ ⟨⟩
    exact ⟨c, asks⟩
  · intro still
    exact ⟨(h.still still).1, h.mute.lines still asks⟩
  · exact h.mute
  · exact h.fresh
  · intro begun
    obtain ⟨o, shown, account⟩ := h.account begun
    have before : v.occasion? = none := by rw [Visit.occasion?, unasked]; rfl
    have after : ({ v with asked := some m, unsent := c.lines } : Visit).occasion? = some c := asks
    rw [before, unsent, List.append_nil] at account
    refine ⟨o, shown, ?_⟩
    rw [after, Option.toList_some, reported_singleton, ← List.append_assoc, account]
    exact congrArg (· ++ c.lines) (List.append_nil _)

theorem send (h : v.Accounts shown) {line : String} {rest : List String} (waits : v.unsent = line :: rest)
    (room : v.channel.length < outputBuffer) :
    ({ v with unsent := rest, channel := v.channel ++ [line] } : Visit).Accounts shown := by
  have asked : v.asked ≠ none := fun none => nomatch waits.symm.trans (h.idle none)
  have listens : v.stage.listens ≠ false := fun still => nomatch waits.symm.trans (h.still still).2
  constructor
  · simpa using room
  · exact fun none => absurd none asked
  · exact h.asking
  · exact fun still => absurd still listens
  · exact h.mute
  · exact h.fresh
  · intro begun
    obtain ⟨o, shown, account⟩ := h.account begun
    rw [waits] at account
    refine ⟨o, shown, Eq.trans ?_ account⟩
    dsimp only
    rw [List.append_assoc, List.singleton_append]

theorem answer (h : v.Accounts shown) {m : Host} {c : Occasion} (asked : v.asked = some m)
    (asks : v.stage.occasion? m = some c) (unsent : v.unsent = []) :
    ({ v with stage := v.stage.resume m, log := v.log ++ [c], asked := none } : Visit).Accounts
      shown := by
  have started : v.stage ≠ .placed := by
    intro placed
    rw [placed] at asks
    cases asks
  constructor
  · exact h.bound
  · exact fun _ => unsent
  · exact fun _ => nofun
  · intro still
    exact h.still ((v.stage.listens_resume m).symm.trans still)
  · exact h.mute.resume m
  · exact fun placed => absurd placed (Stage.resume_ne_placed started m)
  · intro _
    obtain ⟨o, shown, account⟩ := h.account started
    have before : v.occasion? = some c := by
      rw [Visit.occasion?, asked]
      exact asks
    rw [before, Option.toList_some, ← reported_append] at account
    exact ⟨o, shown, account.trans (List.append_nil _).symm⟩

theorem take (h : v.Accounts shown) {line : String} {rest : List String}
    (waits : v.channel = line :: rest) :
    ({ v with channel := rest } : Visit).Accounts (shown.map (·.addLine line)) := by
  have listens : v.stage.listens ≠ false := fun still => nomatch waits.symm.trans (h.still still).1
  have bound := h.bound
  rw [waits] at bound
  constructor
  · exact Nat.le_of_succ_le bound
  · exact h.idle
  · exact h.asking
  · exact fun still => absurd still listens
  · exact h.mute
  · exact h.fresh
  · intro begun
    obtain ⟨o, shown, account⟩ := h.account begun
    rw [waits] at account
    refine ⟨o.addLine line, by rw [shown]; rfl, Eq.trans ?_ account⟩
    rw [Operation.output_addLine, List.append_assoc]
    rfl

end Visit.Accounts

end Install

namespace Workshop
open Install (Visit Stage outputBuffer)
open Program (Logged)

/-- What is known of the calls at every state of a run. -/
structure Tidy (s : Workshop) : Prop where
  sound : s.Sound
  follows : ∀ k v, s.calls k = some v → v.Follows s.installer s.files
  accounts : ∀ k v, s.calls k = some v → v.Accounts s.operation

theorem tidy_opened (servers : Path) (configs : ServerConfigs) (platform : Platform) (files : Files) :
    (opened servers configs platform files).Tidy where
  sound := sound_opened servers configs platform files
  follows _ _ := nofun
  accounts _ _ := nofun

namespace Tidy
variable {s : Workshop} {k : Nat} {v v' : Visit}

theorem put (h : s.Tidy) (there : s.calls k = some v) {configs : ServerConfigs}
    {operation : Option Operation} {files : Files} (accounts : v'.Accounts operation)
    (follows : v'.Follows { s.installer with configs := configs, operation := operation } files) :
    ({ s with configs := configs, operation := operation, files := files }.put k v').Tidy := by
  have found : ∀ j w, (Function.update s.calls k (some v')) j = some w → w = v' := by
    intro j w other
    by_cases same : j = k
    · subst same
      simpa using other.symm
    · rw [Function.update_of_ne same] at other
      exact absurd (h.sound.only there other) same
  constructor
  · exact h.sound.put there configs operation files v'
  · intro j w other
    rw [found j w other]
    exact follows
  · intro j w other
    rw [found j w other]
    exact accounts

theorem vacant (sound : s.Sound) (empty : ∀ k, s.calls k = none) : s.Tidy where
  sound := sound
  follows k _ there := nomatch there.symm.trans (empty k)
  accounts k _ there := nomatch there.symm.trans (empty k)

theorem answers (h : s.Tidy) (begun : k < s.tickets) (r : Except Error ServerBinary) :
    (s.answers k r).Tidy where
  sound := h.sound.answers begun r
  follows := h.follows
  accounts := h.accounts

theorem release (h : s.Tidy) (there : s.calls k = some v) (files : Files) :
    ({ s with files := files }.release k).Tidy := by
  refine vacant (h.sound.release there files) fun j => ?_
  exact (h.sound.release there files).unused rfl j

theorem begin (h : s.Tidy) (e : RegistryEntry) : (s.begin e).Tidy := by
  have sound := h.sound.begin e
  cases taken : s.slot with
  | some k =>
      obtain ⟨v, there⟩ := (h.sound.sole k).mpr taken
      rw [h.sound.begin_of_held there] at sound ⊢
      exact ⟨sound, h.follows, h.accounts⟩
  | none =>
      rw [begin_of_free taken] at sound ⊢
      have found : ∀ j w, (Function.update s.calls s.tickets
          (some (Visit.start e s.installer s.files))) j = some w → w = .start e s.installer s.files := by
        intro j w other
        by_cases same : j = s.tickets
        · subst same
          simpa using other.symm
        · rw [Function.update_of_ne same, h.sound.unused taken] at other
          cases other
      refine ⟨sound, fun j w other => ?_, fun j w other => ?_⟩
      · obtain rfl := found j w other
        have idle : s.installer.active = false := by simp [installer, taken]
        obtain ⟨a, b, c, d, e, f⟩ := Visit.Follows.start idle e s.files
        exact ⟨a, b, c, d, e, f⟩
      · obtain rfl := found j w other
        exact .start e s.installer s.files

theorem turn (h : s.Tidy) (there : s.calls k = some v) {stage : Stage} {i : Installer}
    (turns : v.stage.turn s.installer v.entry v.channel.isEmpty = some (stage, i)) :
    ((s.adopt i).put k { v with stage := stage }).Tidy := by
  have accounts := (h.accounts k v there).turn turns
  have follows := (h.follows k v there).turn turns
  refine h.put there accounts ?_
  obtain ⟨servers, platform, active⟩ := Stage.same_turn turns
  obtain ⟨_, _, _, _, _⟩ := i
  cases servers
  cases platform
  cases active
  exact follows

theorem steps (h : s.Tidy) {s' : Workshop} (made : s.Steps s') : s'.Tidy := by
  cases made with
  | stay => exact h
  | begin => exact h.begin _
  | turn there turns => exact h.turn there turns
  | ask there unasked files asks =>
      exact h.put there ((h.accounts _ _ there).ask unasked asks) ((h.follows _ _ there).ask files _)
  | send there waits room =>
      exact h.put there ((h.accounts _ _ there).send waits room) ((h.follows _ _ there).move _ _)
  | answer there asked asks unsent =>
      exact h.put there ((h.accounts _ _ there).answer asked asks unsent)
        ((h.follows _ _ there).answer asked asks)
  | take there waits =>
      exact h.put there ((h.accounts _ _ there).take waits) (((h.follows _ _ there).revise _).move _ _)
  | leave there => exact (h.release there s.files).answers (h.sound.lt_tickets there) _
  | cancel => exact ⟨h.sound.cancel, h.follows, h.accounts⟩
  | abandon there => exact h.release there _

theorem run (h : s.Tidy) (moves : List Move) : (s.run moves).Tidy := by
  induction moves generalizing s with
  | nil => exact h
  | cons m moves ih => exact ih (h.steps (s.steps_next m))

/-- A command that waits for room in the channel gets it: the channel is full then, and is taken from. -/
theorem takes_of_full (h : s.Tidy) (there : s.calls k = some v) (waits : v.unsent ≠ [])
    (full : ¬ v.channel.length < outputBuffer) :
    ∃ line rest o, v.channel = line :: rest ∧ rest.length < outputBuffer ∧ s.operation = some o ∧
      s.next (.take k) =
        { s with operation := some (o.addLine line) }.put k { v with channel := rest } := by
  have accounts := h.accounts k v there
  have listens : v.stage.listens = true := by
    cases still : v.stage.listens with
    | true => rfl
    | false => exact absurd (accounts.still still).2 waits
  have begun : v.stage ≠ .placed := by
    intro placed
    rw [placed] at listens
    cases listens
  obtain ⟨o, shown, -⟩ := accounts.account begun
  cases channel : v.channel with
  | nil =>
      rw [channel] at full
      exact absurd (by decide) full
  | cons line rest =>
      refine ⟨line, rest, o, rfl, ?_, shown, ?_⟩
      · have bound := accounts.bound
        rw [channel] at bound
        exact bound
      · refine (next_take there channel listens).trans ?_
        simp only [adopt, installer, Installer.revise, shown, Option.map_some]

/-- When the install of a call has ended, all that it has reported is shown. -/
theorem shown_of_leaving (h : s.Tidy) (there : s.calls k = some v)
    {r : Except Error (ServerBinary × ServerConfigs)} {o : Operation} (leaving : v.stage = .leaving r o) :
    ∃ shown, s.operation = some shown ∧ shown.output = reported v.log := by
  have accounts := h.accounts k v there
  have still : v.stage.listens = false := by rw [leaving]; rfl
  obtain ⟨shown, same, account⟩ := accounts.account (by rw [leaving]; exact nofun)
  refine ⟨shown, same, ?_⟩
  have unasked : v.occasion? = none := by
    cases asked : v.asked with
    | none => rw [Visit.occasion?, asked]; rfl
    | some m =>
        obtain ⟨c, asks⟩ := accounts.asking m asked
        rw [leaving] at asks
        cases asks
  obtain ⟨channel, unsent⟩ := accounts.still still
  rw [channel, unsent, unasked] at account
  simpa using account

end Tidy

end Workshop

end LanguageHost
