import LanguageHost.Proofs.Install.Confined

/-! One machine. Where nothing goes wrong there, and its programs do nothing, what a program does is one of its
runs. Where a step goes well there, the steps it is made of have. -/
namespace LanguageHost.Install
open Files
open Program (Runs)

structure Quiet (cwd : Path) (h : Host) : Prop where
  cwd : h.cwd = cwd
  faults : ∀ n, h.faults n = none
  programs : ∀ invocation t, (h.programs invocation t).acts = []

theorem Quiet.execute {cwd : Path} {h : Host} (quiet : Quiet cwd h) (c : Command) (mode : RunMode) :
    (h.execute c mode).2.files = h.files ∧ Quiet cwd (h.execute c mode).2 := by
  have enter : ∀ (h' : Host) lines, Quiet cwd h' →
      (h'.enterLines mode lines).files = h'.files ∧ Quiet cwd (h'.enterLines mode lines) := by
    intro h' lines q
    cases mode <;> exact ⟨rfl, q.1, q.2, q.3⟩
  unfold Host.execute
  split
  · exact ⟨rfl, quiet⟩
  · split
    · exact ⟨rfl, quiet⟩
    · next inv _ =>
        have begun : Quiet cwd { h with started := h.started ++ [inv] } := ⟨quiet.1, quiet.2, quiet.3⟩
        simp only [quiet.programs inv h.files, Host.play, Bool.false_eq_true, if_false]
        split
        · obtain ⟨same, after⟩ := enter _ [] begun
          exact ⟨same, after.1, after.2, after.3⟩
        · exact enter _ _ begun

theorem Quiet.answer {cwd : Path} {h : Host} (quiet : Quiet cwd h) (c : Call β) :
    Quiet cwd (h.answer c).2 := by
  have settle : ∀ h n, Quiet cwd h → Quiet cwd (Host.settle h n) := fun h n q => ⟨q.1, q.2, q.3⟩
  have look : ∀ {α} (f : Files → Except IoError α), Quiet cwd (h.look f).2 := by
    intro α f
    unfold Host.look
    split <;> exact ⟨quiet.1, quiet.2, quiet.3⟩
  have change : ∀ f, Quiet cwd (h.change f).2 := by
    intro f
    unfold Host.change
    split
    · exact ⟨quiet.1, quiet.2, quiet.3⟩
    · split <;> exact ⟨quiet.1, quiet.2, quiet.3⟩
  cases c with
  | readFile p => exact look _
  | list p => exact look _
  | run c mode => exact (quiet.execute c mode).2
  | tell line => exact settle _ _ ⟨quiet.1, quiet.2, quiet.3⟩
  | awaitCancel => exact ⟨quiet.1, quiet.2, quiet.3⟩
  | kind p follow => exact quiet
  | canonical p => exact quiet
  | envVar name => exact quiet
  | accountHome => exact quiet
  | workingDir => exact quiet
  | findProgram name => exact quiet
  | cancelled => exact quiet
  | fetch url agent => exact quiet
  | now => exact quiet
  | _ => exact change _

theorem Quiet.fair {servers manifest : Path} {name : String} {s : Site servers name manifest}
    {own : List String} {h : Host} (quiet : Quiet s.cwd h) (c : Call β) : s.Fair own β h c where
  cwd := quiet.cwd
  tools run := by
    cases c with
    | run c mode =>
        have same : (h.answer (.run c mode)).2.files = h.files := (quiet.execute c mode).1
        rw [same]
        exact ⟨rfl, fun calm => calm⟩
    | _ => cases run
  moves _ := quiet.faults _

/-- What a program does on such a machine. -/
theorem Quiet.runs {servers manifest : Path} {name : String} {s : Site servers name manifest}
    {own : List String} {h : Host} (quiet : Quiet s.cwd h) (p : Program α) :
    Runs (s.Fair own) h.files p (some (p.run h).1) (p.run h).2.files :=
  Program.runs_run (Quiet s.cwd) (fun _ q _ c => ⟨q.fair c, q.answer c⟩) p quiet

/-! The runs, call by call. -/

section quiet
variable {servers manifest : Path} {name : String} {s : Site servers name manifest}
  {own : List String} {h : Host} (quiet : Quiet s.cwd h) {r : Option α} {t t' : Files}
include quiet

theorem Quiet.kind {p : Path} {follow : Bool} {answer : Except IoError FileKind}
    {next : Except IoError FileKind → Program α} (ne : p.text ≠ "")
    (told : Host.kind h.files (s.cwd / p.text) follow = answer)
    (on : Runs (s.Fair own) h.files (next answer) r t') :
    Runs (s.Fair own) h.files (.call (.kind p follow) next) r t' := by
  have fair : s.Fair own _ h (.kind p follow) := quiet.fair _
  rw [← Site.absolute_eq ne fair] at told
  subst told
  exact .call rfl fair on

theorem Quiet.change {c : Call (Except IoError Unit)} {f : Files → Except IoError Files}
    {next : Except IoError Unit → Program α} (changes : h.answer c = h.change f)
    (made : f h.files = .ok t) (on : Runs (s.Fair own) t (next (.ok ())) r t') :
    Runs (s.Fair own) h.files (.call c next) r t' := by
  obtain ⟨ok, files⟩ := Host.change_eq (quiet.faults _) made
  refine .call rfl (quiet.fair c) ?_
  rwa [changes, ok, files]

theorem Quiet.rename {p q : Path} {next : Except IoError Unit → Program α} (hp : p.text ≠ "")
    (hq : q.text ≠ "") (made : h.files.rename (s.cwd / p.text) (s.cwd / q.text) = .ok t)
    (on : Runs (s.Fair own) t (next (.ok ())) r t') :
    Runs (s.Fair own) h.files (.call (.rename p q) next) r t' := by
  have fair : s.Fair own _ h (.rename p q) := quiet.fair _
  rw [← Site.absolute_eq hp fair, ← Site.absolute_eq hq fair] at made
  exact quiet.change (f := fun t => t.rename (h.absolute p) (h.absolute q)) rfl made on

theorem Quiet.makeDirs {p : Path} {next : Except IoError Unit → Program α} (ne : p.text ≠ "")
    (made : h.files.makeDirs (s.cwd / p.text) = .ok t)
    (on : Runs (s.Fair own) t (next (.ok ())) r t') :
    Runs (s.Fair own) h.files (.call (.makeDirs p) next) r t' := by
  have fair : s.Fair own _ h (.makeDirs p) := quiet.fair _
  rw [← Site.absolute_eq ne fair] at made
  refine quiet.change (f := fun t => if p.text = "" then .ok t else t.makeDirs (h.absolute p)) rfl ?_ on
  rwa [if_neg ne]

end quiet

end LanguageHost.Install

namespace LanguageHost

/-! Steps that go well on one machine. -/

theorem Program.run_bind (p : Program α) (f : α → Program β) (h : Host) :
    (p >>= f).run h = (f (p.run h).1).run (p.run h).2 := by
  change (p.bind f).run h = _
  induction p generalizing h with
  | done a => rfl
  | call c next ih => exact ih _ _

theorem Program.fixed_run (p : Program α) (h : Host) : (p.run h).2.fixed = h.fixed := by
  induction p generalizing h with
  | done a => rfl
  | call c next ih => exact (ih _ _).trans (h.fixed_answer c)

/-- From what is shown, on a machine, the step goes well, with an answer, and leaves what is then shown and
the machine as it then is. -/
def Installing.Gives (x : Installing α) (s : Operation × Host) (a : α) (s' : Operation × Host) : Prop :=
  (x.run.run s.1).run s.2 = ((.ok a, s'.1), s'.2)

namespace Installing
variable {x : Installing α} {f : α → Installing β} {s s' : Operation × Host} {a : α} {b : β}

theorem gives_bind_iff : (x >>= f).Gives s b s' ↔ ∃ a s₁, x.Gives s a s₁ ∧ (f a).Gives s₁ b s' := by
  unfold Gives
  rw [run_bind, Program.run_bind]
  constructor
  · intro given
    cases first : (x.run.run s.1).run s.2 with
    | mk r h =>
        obtain ⟨r, o⟩ := r
        rw [first] at given
        cases r with
        | error e => cases given
        | ok a => exact ⟨a, (o, h), rfl, given⟩
  · rintro ⟨a, s₁, first, second⟩
    rw [first]
    exact second

theorem Gives.bind {s₁ : Operation × Host} (first : x.Gives s a s₁) (second : (f a).Gives s₁ b s') :
    (x >>= f).Gives s b s' :=
  gives_bind_iff.mpr ⟨a, s₁, first, second⟩

theorem Gives.unique {a' : α} {s₁ : Operation × Host} (given : x.Gives s a s') (other : x.Gives s a' s₁) :
    a = a' ∧ s' = s₁ := by
  obtain ⟨o, h⟩ := s'
  obtain ⟨o', h'⟩ := s₁
  cases given.symm.trans other
  exact ⟨rfl, rfl⟩

theorem Gives.fixed (given : x.Gives s a s') : s'.2.fixed = s.2.fixed := by
  have kept := Program.fixed_run (x.run.run s.1) s.2
  rwa [given] at kept

theorem gives_pure_iff {a' : α} : (pure a' : Installing α).Gives s a s' ↔ a = a' ∧ s' = s := by
  obtain ⟨o, h⟩ := s
  obtain ⟨o', h'⟩ := s'
  constructor
  · rintro ⟨⟩
    exact ⟨rfl, rfl⟩
  · rintro ⟨rfl, ⟨⟩⟩
    rfl

theorem not_gives_fail {e : Error} : ¬ (fail e : Installing α).Gives s a s' := by
  rintro ⟨⟩

theorem gives_update {g : Operation → Operation} (s : Operation × Host) :
    (update g).Gives s () (g s.1, s.2) := rfl

theorem gives_lift_iff {p : Program α} : (lift p).Gives s a s' ↔ p.run s.2 = (a, s'.2) ∧ s'.1 = s.1 := by
  unfold Gives
  rw [run_lift, Program.run_bind]
  obtain ⟨o, h⟩ := s
  obtain ⟨o', h'⟩ := s'
  constructor
  · intro given
    cases first : p.run h with
    | mk a' h =>
        rw [first] at given
        cases given
        exact ⟨rfl, rfl⟩
  · rintro ⟨first, rfl⟩
    dsimp only
    rw [first]
    rfl

theorem gives_ask_iff {c : Call α} :
    (lift (Program.ask c)).Gives s a s' ↔ s.2.answer c = (a, s'.2) ∧ s'.1 = s.1 :=
  gives_lift_iff

theorem gives_io_iff {c : Call (Except IoError α)} :
    (io c).Gives s a s' ↔ s.2.answer c = (.ok a, s'.2) ∧ s'.1 = s.1 := by
  unfold io
  rw [gives_bind_iff]
  constructor
  · rintro ⟨r, s₁, asked, given⟩
    obtain ⟨answer, same⟩ := gives_ask_iff.mp asked
    cases r with
    | error e => exact absurd given not_gives_fail
    | ok a' =>
        obtain ⟨rfl, rfl⟩ := gives_pure_iff.mp given
        exact ⟨answer, same⟩
  · rintro ⟨answer, same⟩
    exact ⟨.ok a, s', gives_ask_iff.mpr ⟨answer, same⟩, gives_pure_iff.mpr ⟨rfl, rfl⟩⟩

theorem gives_tell {line : String} (s : Operation × Host) :
    (tell line).Gives s () (s.1.addLine line, (s.2.answer (.tell line)).2) := rfl

theorem gives_command {c : Command} (ok : (s.2.answer (.run c .reported)).1.outcome = .ok ()) :
    ∃ o, (command c).Gives s () (o, (s.2.answer (.run c .reported)).2) := by
  refine ⟨s.1.addLines (s.2.answer (.run c .reported)).1.lines, ?_⟩
  have asked : (lift (Program.ask (.run c .reported))).Gives s (s.2.answer (.run c .reported)).1
      (s.1, (s.2.answer (.run c .reported)).2) := gives_ask_iff.mpr ⟨rfl, rfl⟩
  refine asked.bind (Gives.bind (gives_update _) ?_)
  rw [ok]
  exact gives_pure_iff.mpr ⟨rfl, rfl⟩

end Installing

end LanguageHost
