import LanguageHost.Machine.Host
import LanguageHost.Install.Operation

/-! Runs of a program on a machine that keeps its files from call to call and may change in everything
else, and that may stop for good at any call. Triples say what all of these runs do to the files. -/
namespace LanguageHost

/-- Which machines may answer a call. -/
abbrev Fairness := ∀ β : Type, Host → Call β → Prop

namespace Program

instance : LawfulMonad Program :=
  .mk' Program bind_done (fun _ _ => rfl) bind_assoc

/-- The runs of a program from some files to others. Its answer is missing when it was abandoned. -/
inductive Runs (fair : Fairness) : Files → Program α → Option α → Files → Prop
  | done {t a} : Runs fair t (.done a) (some a) t
  | abandoned {t p} : Runs fair t p none t
  | call {β t h} {c : Call β} {next r t'} : h.files = t → fair β h c →
      Runs fair (h.answer c).2.files (next (h.answer c).1) r t' → Runs fair t (.call c next) r t'

/-- The run of a program on one machine is one of its runs. -/
theorem runs_run {fair : Fairness} (kind : Host → Prop)
    (step : ∀ h, kind h → ∀ β (c : Call β), fair β h c ∧ kind (h.answer c).2) (p : Program α)
    {h : Host} (start : kind h) : Runs fair h.files p (some (p.run h).1) (p.run h).2.files := by
  induction p generalizing h with
  | done a => exact .done
  | call c next ih =>
      obtain ⟨allowed, after⟩ := step h start _ c
      exact .call rfl allowed (ih _ after)

/-- A run of two programs in a row is one of the first, and of the second where that one comes to its
end. -/
theorem runs_bind {fair : Fairness} {p : Program α} {f : α → Program β}
    (run : Runs fair t (p >>= f) r t') :
    (r = none ∧ Runs fair t p none t') ∨
      ∃ a t₁, Runs fair t p (some a) t₁ ∧ Runs fair t₁ (f a) r t' := by
  induction p generalizing t with
  | done a => exact .inr ⟨a, t, .done, run⟩
  | call c next ih =>
      cases run with
      | abandoned => exact .inl ⟨rfl, .abandoned⟩
      | call files allowed on =>
          rcases ih _ on with ⟨rfl, first⟩ | ⟨a, t₁, first, second⟩
          · exact .inl ⟨rfl, .call files allowed first⟩
          · exact .inr ⟨a, t₁, .call files allowed first, second⟩

/-- What holds of the files after an answer, which may be an error. -/
def Either (Q : α → Files → Prop) (E : Files → Prop) : Except ε α → Files → Prop
  | .ok a, t => Q a t
  | .error _, t => E t

/-- From files as in `P` a program ends with an answer and files as in `Q`, and whenever it is abandoned
the files are as in `C`. -/
structure Holds (fair : Fairness) (P : Files → Prop) (p : Program α) (Q : α → Files → Prop)
    (C : Files → Prop) : Prop where
  ends : ∀ {t a t'}, P t → Runs fair t p (some a) t' → Q a t'
  stops : ∀ {t t'}, P t → Runs fair t p none t' → C t'

namespace Holds
variable {fair : Fairness} {P P' C C' : Files → Prop}

theorem pure {a : α} {Q : α → Files → Prop} (post : ∀ t, P t → Q a t) (crash : ∀ t, P t → C t) :
    Holds fair P (Pure.pure a) Q C where
  ends start run := by
    cases run with
    | done => exact post _ start
  stops start run := by
    cases run with
    | abandoned => exact crash _ start

theorem bind {p : Program α} {f : α → Program β} {R : α → Files → Prop} {Q : β → Files → Prop}
    (first : Holds fair P p R C) (second : ∀ a, Holds fair (R a) (f a) Q C) :
    Holds fair P (p >>= f) Q C where
  ends start run := by
    rcases runs_bind run with ⟨none, _⟩ | ⟨a, t₁, before, after⟩
    · cases none
    · exact (second a).ends (first.ends start before) after
  stops start run := by
    rcases runs_bind run with ⟨_, before⟩ | ⟨a, t₁, before, after⟩
    · exact first.stops start before
    · exact (second a).stops (first.ends start before) after

theorem ask {c : Call α} {Q : α → Files → Prop} (crash : ∀ t, P t → C t)
    (step : ∀ h, P h.files → fair α h c →
      Q (h.answer c).1 (h.answer c).2.files ∧ C (h.answer c).2.files) :
    Holds fair P (Program.ask c) Q C where
  ends start run := by
    cases run with
    | call files allowed on =>
        subst files
        cases on with
        | done => exact (step _ start allowed).1
  stops start run := by
    cases run with
    | abandoned => exact crash _ start
    | call files allowed on =>
        subst files
        cases on with
        | abandoned => exact (step _ start allowed).2

theorem ask_either {c : Call (Except ε α)} {Q : α → Files → Prop} {E : Files → Prop}
    (step : ∀ h, P h.files → fair _ h c →
      (∀ a, (h.answer c).1 = .ok a → Q a (h.answer c).2.files) ∧
      (∀ e, (h.answer c).1 = .error e → E (h.answer c).2.files))
    (crash : ∀ t, P t → C t) (done : ∀ a t, Q a t → C t) (failed : ∀ t, E t → C t) :
    Holds fair P (Program.ask c) (Either Q E) C := by
  refine .ask crash fun h start allowed => ?_
  obtain ⟨ok, error⟩ := step h start allowed
  cases answer : (h.answer c).1 with
  | ok a => exact ⟨ok a answer, done a _ (ok a answer)⟩
  | error e => exact ⟨error e answer, failed _ (error e answer)⟩

theorem mono {p : Program α} {Q Q' : α → Files → Prop} (h : Holds fair P p Q C)
    (pre : ∀ t, P' t → P t) (post : ∀ a t, Q a t → Q' a t) (crash : ∀ t, C t → C' t) :
    Holds fair P' p Q' C' where
  ends start run := post _ _ (h.ends (pre _ start) run)
  stops start run := crash _ (h.stops (pre _ start) run)

/-- A fact that every start tells may be used. -/
theorem of_fact {p : Program α} {Q : α → Files → Prop} {fact : Prop} (told : ∀ t, P t → fact)
    (h : fact → Holds fair P p Q C) : Holds fair P p Q C where
  ends start run := (h (told _ start)).ends start run
  stops start run := (h (told _ start)).stops start run

/-- One start at a time. -/
theorem of_each {p : Program α} {Q : α → Files → Prop}
    (h : ∀ t, P t → Holds fair (· = t) p Q C) : Holds fair P p Q C where
  ends start run := (h _ start).ends rfl run
  stops start run := (h _ start).stops rfl run

end Holds

end Program

namespace Program

/-- A triple for a program that may fail. -/
def Fallible.Holds (fair : Fairness) (P : Files → Prop) (x : Fallible α) (Q : α → Files → Prop)
    (E C : Files → Prop) : Prop :=
  Program.Holds fair P x.run (Either Q E) C

namespace Fallible.Holds
variable {fair : Fairness} {P E C : Files → Prop} {Q : α → Files → Prop}

theorem pure {a : α} (post : ∀ t, P t → Q a t) (crash : ∀ t, P t → C t) :
    Holds fair P (Pure.pure a) Q E C :=
  Program.Holds.pure post crash

theorem bind {x : Fallible α} {f : α → Fallible β} {Q : β → Files → Prop} {R : α → Files → Prop}
    (first : Holds fair P x R E C) (second : ∀ a, Holds fair (R a) (f a) Q E C)
    (crash : ∀ t, E t → C t) : Holds fair P (x >>= f) Q E C := by
  refine Program.Holds.bind first ?_
  rintro (e | a)
  · exact .pure (fun _ h => h) crash
  · exact second a

theorem lift {p : Program α} (h : Program.Holds fair P p Q C) (crash : ∀ a t, Q a t → C t) :
    Holds fair P (ExceptT.lift p) Q E C := by
  have mapped : (ExceptT.lift p : Fallible α).run = (p >>= fun a => Pure.pure (.ok a)) := rfl
  unfold Holds
  rw [mapped]
  exact h.bind fun a => .pure (fun _ ht => ht) (crash a)

theorem io {c : Call (Except IoError α)}
    (step : ∀ h, P h.files → fair _ h c →
      (∀ a, (h.answer c).1 = .ok a → Q a (h.answer c).2.files) ∧
      (∀ e, (h.answer c).1 = .error e → E (h.answer c).2.files))
    (crash : ∀ t, P t → C t) (done : ∀ a t, Q a t → C t) (failed : ∀ t, E t → C t) :
    Holds fair P (Program.io c) Q E C := by
  refine Program.Holds.bind (.ask_either step crash done failed) ?_
  rintro (e | a)
  · exact .pure (fun _ ht => ht) failed
  · exact .pure (fun _ ht => ht) (done a)

end Fallible.Holds

end Program

namespace Installing
open Program (Runs Either)

/-- A triple for an install step, whatever has been shown so far. Where it fails the files are as in
`E`. -/
def Holds (fair : Fairness) (P : Files → Prop) (x : Installing α) (Q : α → Files → Prop)
    (E C : Files → Prop) : Prop :=
  ∀ o, Program.Holds fair P (x.run.run o) (fun r => Either Q E r.1) C

theorem run_bind (x : Installing α) (f : α → Installing β) (o : Operation) :
    (x >>= f).run.run o = (x.run.run o >>= fun r => match r.1 with
      | .ok a => (f a).run.run r.2
      | .error e => pure (.error e, r.2)) := by
  change Program.bind _ _ = Program.bind _ _
  congr 1
  funext r
  obtain ⟨a, o'⟩ := r
  cases a <;> rfl

theorem run_tryCatch (x : Installing α) (f : Error → Installing α) (o : Operation) :
    (tryCatch x f).run.run o = (x.run.run o >>= fun r => match r.1 with
      | .ok a => pure (.ok a, r.2)
      | .error e => (f e).run.run r.2) := by
  change Program.bind _ _ = Program.bind _ _
  congr 1
  funext r
  obtain ⟨a, o'⟩ := r
  cases a <;> rfl

theorem run_lift (p : Program α) (o : Operation) :
    (Installing.lift p).run.run o = (p >>= fun a => pure (.ok a, o)) := by
  change Program.bind (Program.bind p _) _ = Program.bind p _
  rw [Program.bind_assoc]
  rfl

theorem run_map (f : α → β) (x : Installing α) (o : Operation) :
    (f <$> x).run.run o = (x.run.run o >>= fun r => match r.1 with
      | .ok a => pure (.ok (f a), r.2)
      | .error e => pure (.error e, r.2)) := by
  change Program.bind _ _ = Program.bind _ _
  congr 1
  funext r
  obtain ⟨a, o'⟩ := r
  cases a <;> rfl

namespace Holds
variable {fair : Fairness} {P P' E E' C C' : Files → Prop} {Q Q' : α → Files → Prop}

theorem pure {a : α} (post : ∀ t, P t → Q a t) (crash : ∀ t, P t → C t) :
    Holds fair P (Pure.pure a) Q E C :=
  fun _ => .pure post crash

theorem fail {e : Error} (post : ∀ t, P t → E t) (crash : ∀ t, P t → C t) :
    Holds fair P (Installing.fail e : Installing α) Q E C :=
  fun _ => .pure post crash

theorem ofExcept {r : Except Error α} (ok : ∀ a t, r = .ok a → P t → Q a t) (error : ∀ t, P t → E t)
    (crash : ∀ t, P t → C t) : Holds fair P (Installing.ofExcept r) Q E C := by
  cases r with
  | ok a => exact .pure (fun t => ok a t rfl) crash
  | error e => exact .fail error crash

theorem update {f : Operation → Operation} {Q : Unit → Files → Prop} (post : ∀ t, P t → Q () t)
    (crash : ∀ t, P t → C t) : Holds fair P (Installing.update f) Q E C :=
  fun _ => .pure post crash

theorem bind {x : Installing α} {f : α → Installing β} {Q : β → Files → Prop}
    {R : α → Files → Prop} (first : Holds fair P x R E C)
    (second : ∀ a, Holds fair (R a) (f a) Q E C) (crash : ∀ t, E t → C t) :
    Holds fair P (x >>= f) Q E C := by
  intro o
  rw [run_bind]
  refine (first o).bind ?_
  rintro ⟨a | a, o'⟩
  · exact .pure (fun t h => h) crash
  · exact second _ o'

theorem map {x : Installing α} {f : α → β} {Q : β → Files → Prop}
    (h : Holds fair P x (fun a => Q (f a)) E C) (done : ∀ b t, Q b t → C t)
    (failed : ∀ t, E t → C t) : Holds fair P (f <$> x) Q E C := by
  intro o
  rw [run_map]
  refine (h o).bind ?_
  rintro ⟨a | a, o'⟩
  · exact .pure (fun t h => h) failed
  · exact .pure (fun t h => h) (done _)

theorem lift {p : Program α} (h : Program.Holds fair P p Q C) (crash : ∀ a t, Q a t → C t) :
    Holds fair P (Installing.lift p) Q E C := by
  intro o
  rw [run_lift]
  exact h.bind fun a => .pure (fun t ht => ht) (crash a)

theorem io {c : Call (Except IoError α)}
    (step : ∀ h, P h.files → fair _ h c →
      (∀ a, (h.answer c).1 = .ok a → Q a (h.answer c).2.files) ∧
      (∀ e, (h.answer c).1 = .error e → E (h.answer c).2.files))
    (crash : ∀ t, P t → C t) (done : ∀ a t, Q a t → C t) (failed : ∀ t, E t → C t) :
    Holds fair P (Installing.io c) Q E C := by
  refine (lift (.ask_either step crash done failed) ?_).bind ?_ failed
  · rintro (e | a) t ht
    · exact failed t ht
    · exact done a t ht
  · rintro (e | a)
    · exact .fail (fun _ ht => ht) failed
    · exact .pure (fun _ ht => ht) (done a)

/-- A fact that every start tells may be used. -/
theorem of_fact {x : Installing α} {fact : Prop} (told : ∀ t, P t → fact)
    (h : fact → Holds fair P x Q E C) : Holds fair P x Q E C :=
  fun o => .of_fact told fun known => h known o

/-- One start at a time. -/
theorem of_each {x : Installing α} (h : ∀ t, P t → Holds fair (· = t) x Q E C) :
    Holds fair P x Q E C :=
  fun o => .of_each fun t start => h t start o

/-- What a step has done is known as one of its runs. -/
theorem traced {x : Installing α} (h : Holds fair P x Q E C) :
    Holds fair P x (fun a t' => Q a t' ∧ ∃ t o o', P t ∧ Runs fair t (x.run.run o) (some (.ok a, o')) t')
      E C := by
  intro o
  constructor
  · rintro t ⟨e | a, o'⟩ t' start run
    · exact (h o).ends start run
    · exact ⟨(h o).ends start run, t, o, o', start, run⟩
  · exact fun start run => (h o).stops start run

/-- What is never reached does anything. -/
theorem never {x : Installing α} : Holds fair (fun _ => False) x Q E C :=
  fun _ => ⟨fun start _ => start.elim, fun start _ => start.elim⟩

section done
variable {Q : Files → Prop} (crash : ∀ t, Q t → C t)
include crash

/-- A call that is never refused. -/
theorem io_done {c : Call (Except IoError Unit)}
    (h : Program.Holds fair P (Program.ask c) (fun r t => r = .ok () ∧ Q t) C) :
    Holds fair P (Installing.io c) (fun _ => Q) (fun _ => False) C := by
  refine (lift h fun _ t ht => crash t ht.2).bind (fun r => ?_) fun _ ht => ht.elim
  refine .of_fact (fun t ht => ht.1) fun done => ?_
  subst done
  exact .pure (fun _ ht => ht.2) fun t ht => crash t ht.2

theorem remove_done {p : Path}
    (h : Program.Holds fair P (removePath p) (fun r t => r = .ok () ∧ Q t) C) :
    Holds fair P (Installing.remove p) (fun _ => Q) (fun _ => False) C := by
  refine (lift h fun _ t ht => crash t ht.2).bind (fun r => ?_) fun _ ht => ht.elim
  refine .of_fact (fun t ht => ht.1) fun done => ?_
  subst done
  exact .pure (fun _ ht => ht.2) fun t ht => crash t ht.2

end done

theorem tryCatch {x : Installing α} {f : Error → Installing α} {F : Files → Prop}
    (first : Holds fair P x Q F C) (second : ∀ e, Holds fair F (f e) Q E C)
    (crash : ∀ a t, Q a t → C t) : Holds fair P (tryCatch x f) Q E C := by
  intro o
  rw [run_tryCatch]
  refine (first o).bind ?_
  rintro ⟨a | a, o'⟩
  · exact second _ o'
  · exact .pure (fun t h => h) (crash _)

theorem mono {x : Installing α} (h : Holds fair P x Q E C) (pre : ∀ t, P' t → P t)
    (post : ∀ a t, Q a t → Q' a t) (error : ∀ t, E t → E' t) (crash : ∀ t, C t → C' t) :
    Holds fair P' x Q' E' C' := by
  intro o
  refine (h o).mono pre ?_ crash
  rintro ⟨a | a, o'⟩
  · exact error
  · exact post a

end Holds

end Installing

/-! What a program keeps whatever happens. -/

/-- The call keeps what holds of the files. -/
def Call.Keeps (fair : Fairness) (I : Files → Prop) (c : Call β) : Prop :=
  ∀ h, I h.files → fair β h c → I (h.answer c).2.files

/-- Calls that change no files. -/
def Call.IsLook : Call β → Prop
  | .writeFile _ _ | .makeDirs _ | .rename _ _ | .removeTree _ | .removeFile _ | .allowRun _
  | .run _ _ => False
  | _ => True

/-- The call runs a command. -/
def Call.IsRun : Call β → Prop
  | .run _ _ => True
  | _ => False

theorem Host.files_look (h : Host) (f : Files → Except IoError α) : (h.look f).2.files = h.files := by
  unfold look
  split <;> rfl

theorem Call.IsLook.files {c : Call β} (look : c.IsLook) (h : Host) :
    (h.answer c).2.files = h.files := by
  cases c with
  | readFile p => exact h.files_look _
  | list p => exact h.files_look _
  | kind p follow => rfl
  | canonical p => rfl
  | envVar name => rfl
  | accountHome => rfl
  | workingDir => rfl
  | findProgram name => rfl
  | tell line => rfl
  | cancelled => rfl
  | awaitCancel => rfl
  | fetch url agent => rfl
  | now => rfl
  | _ => cases look

theorem Host.look_eq {h : Host} {f : Files → Except IoError α} {a : α} (seen : (h.look f).1 = .ok a) :
    f h.files = .ok a := by
  unfold look at seen
  split at seen
  · cases seen
  · exact seen

theorem Host.look_quiet (h : Host) (quiet : h.faults h.operations = none) (f : Files → Except IoError α) :
    (h.look f).1 = f h.files := by
  unfold look
  rw [quiet]

/-- A change is made, or it is refused and nothing happens. -/
theorem Host.change_cases (h : Host) (f : Files → Except IoError Files) :
    (∃ e, (h.change f).1 = .error e ∧ (h.change f).2.files = h.files) ∨
      ∃ t, f h.files = .ok t ∧ (h.change f).1 = .ok () ∧ (h.change f).2.files = t := by
  unfold change
  split
  · exact .inl ⟨_, rfl, rfl⟩
  · cases hf : f h.files with
    | error e => exact .inl ⟨e, rfl, rfl⟩
    | ok t => exact .inr ⟨t, rfl, rfl, rfl⟩

section made
variable {h : Host} {p q : Path} {t : Files} (quiet : h.faults h.operations = none)
include quiet

/-- A change that is not prevented. -/
theorem Host.change_made {f : Files → Except IoError Files} (made : f h.files = .ok t) :
    h.change f = (.ok (), { h with operations := h.operations + 1, files := t }) := by
  unfold change
  rw [quiet, made]

theorem Host.makeDirs_made (made : (if p.text = "" then .ok h.files else
    h.files.makeDirs (h.absolute p)) = .ok t) :
    h.answer (.makeDirs p) = (.ok (), { h with operations := h.operations + 1, files := t }) :=
  change_made (f := fun t => if p.text = "" then .ok t else t.makeDirs (h.absolute p)) quiet made

theorem Host.write_made {content : Octets} (made : h.files.write (h.absolute p) content = .ok t) :
    h.answer (.writeFile p content) =
      (.ok (), { h with operations := h.operations + 1, files := t }) :=
  change_made (f := fun t => t.write (h.absolute p) content) quiet made

theorem Host.rename_made (made : h.files.rename (h.absolute p) (h.absolute q) = .ok t) :
    h.answer (.rename p q) = (.ok (), { h with operations := h.operations + 1, files := t }) :=
  change_made (f := fun t => t.rename (h.absolute p) (h.absolute q)) quiet made

theorem Host.change_eq {f : Files → Except IoError Files} (made : f h.files = .ok t) :
    (h.change f).1 = .ok () ∧ (h.change f).2.files = t := by
  rw [change_made quiet made]
  exact ⟨rfl, rfl⟩

end made

/-! A machine stays in its working directory, and the operations that fail there whatever the files stay
the same. -/

namespace Host

def fixed (h : Host) : Path × (Nat → Option IoError) := (h.cwd, h.faults)

theorem fixed_act (h : Host) (cwd : Path) (r : Running) (a : Act) :
    (h.act cwd r a).1.fixed = h.fixed := by
  cases a <;> rfl

theorem fixed_play (h : Host) (mode : RunMode) (cwd : Path) (r : Running) (acts : List Act) :
    (h.play mode cwd r acts).2.1.fixed = h.fixed := by
  induction acts generalizing h r with
  | nil => rfl
  | cons a rest ih =>
      unfold play
      generalize acted : h.act cwd r a = after
      have same : after.1.fixed = h.fixed := by rw [← acted, fixed_act]
      dsimp only
      split
      · exact same
      · exact (ih _ _).trans same

theorem fixed_enterLines (h : Host) (mode : RunMode) (lines : List String) :
    (h.enterLines mode lines).fixed = h.fixed := by
  cases mode <;> rfl

theorem fixed_execute (h : Host) (c : Command) (mode : RunMode) : (h.execute c mode).2.fixed = h.fixed := by
  unfold execute
  split
  · rfl
  · split
    · rfl
    · next inv _ =>
        have played := fixed_play { h with started := h.started ++ [inv] } mode inv.cwd
          ⟨.empty, .empty, []⟩ (h.programs inv h.files).acts
        dsimp only
        generalize play { h with started := h.started ++ [inv] } mode inv.cwd
          ⟨.empty, .empty, []⟩ (h.programs inv h.files).acts = ran at played ⊢
        obtain ⟨stopped, h', r⟩ := ran
        cases stopped with
        | true => exact (fixed_enterLines _ _ _).trans played
        | false =>
            cases (h.programs inv h.files).ending <;> exact (fixed_enterLines _ _ _).trans played

theorem fixed_answer (h : Host) (c : Call β) : (h.answer c).2.fixed = h.fixed := by
  have look : ∀ {α} (f : Files → Except IoError α), (h.look f).2.fixed = h.fixed := by
    intro α f
    unfold Host.look
    split <;> rfl
  have change : ∀ f, (h.change f).2.fixed = h.fixed := by
    intro f
    unfold Host.change
    split
    · rfl
    · split <;> rfl
  cases c with
  | readFile p => exact look _
  | list p => exact look _
  | run c mode => exact fixed_execute h c mode
  | tell line => rfl
  | awaitCancel => rfl
  | kind p follow => rfl
  | canonical p => rfl
  | envVar name => rfl
  | accountHome => rfl
  | workingDir => rfl
  | findProgram name => rfl
  | cancelled => rfl
  | fetch url agent => rfl
  | now => rfl
  | _ => exact change _

/-- No call moves a machine to another working directory. -/
theorem cwd_answer (h : Host) (c : Call β) : (h.answer c).2.cwd = h.cwd :=
  congrArg Prod.fst (h.fixed_answer c)

section same
variable {h h' : Host} (same : h'.fixed = h.fixed)
include same

theorem cwd_eq : h'.cwd = h.cwd := congrArg Prod.fst same

theorem faults_eq : h'.faults = h.faults := congrArg Prod.snd same

theorem absolute_eq (p : Path) : h'.absolute p = h.absolute p := by
  unfold absolute
  rw [cwd_eq same]

end same

end Host

/-- What a program does on a machine is one of its runs there. -/
theorem Program.runs_there (p : Program α) {h : Host} (place : h.cwd = cwd) :
    Runs (fun _ h _ => h.cwd = cwd) h.files p (some (p.run h).1) (p.run h).2.files :=
  runs_run (fun h => h.cwd = cwd) (fun _ there _ c => ⟨there, (Host.cwd_answer _ c).trans there⟩) p place

/-! The run of a program whose file operations are known. -/

theorem Program.run_io_ok {c : Call (Except IoError α)} {h h' : Host} {a : α}
    (answer : h.answer c = (.ok a, h')) (f : α → Fallible β) :
    (io c >>= f).run.run h = (f a).run.run h' := by
  change Program.run h (.call c _) = _
  rw [Program.run, answer]
  rfl

section keeps
variable {fair : Fairness} {I : Files → Prop}

theorem Call.IsLook.keeps {c : Call β} (look : c.IsLook) : c.Keeps fair I := by
  intro h start _
  rw [look.files h]
  exact start

/-- Whatever the program has done so far, what held of the files still does. -/
abbrev Program.Keeps (fair : Fairness) (I : Files → Prop) (p : Program α) : Prop :=
  Program.Holds fair I p (fun _ => I) I

namespace Program.Keeps

theorem pure (a : α) : Keeps fair I (Pure.pure a : Program α) :=
  Holds.pure (fun _ h => h) fun _ h => h

theorem bind {p : Program α} {f : α → Program β} (first : Keeps fair I p)
    (second : ∀ a, Keeps fair I (f a)) : Keeps fair I (p >>= f) :=
  Holds.bind first second

theorem ask {c : Call α} (keeps : c.Keeps fair I) : Keeps fair I (Program.ask c) :=
  Holds.ask (fun _ h => h) fun h start allowed => ⟨keeps h start allowed, keeps h start allowed⟩

theorem look {c : Call α} (look : c.IsLook) : Keeps fair I (Program.ask c) := ask look.keeps

theorem removePath {p : Path} (tree : (Call.removeTree p).Keeps fair I)
    (file : (Call.removeFile p).Keeps fair I) : Keeps fair I (LanguageHost.removePath p) := by
  refine .bind (.look trivial) fun r => ?_
  cases r with
  | error e => cases e <;> exact .pure _
  | ok k =>
      cases k with
      | directory => exact .bind (.ask tree) fun _ => .pure _
      | file => exact .bind (.ask file) fun _ => .pure _
      | link => exact .bind (.ask file) fun _ => .pure _

end Program.Keeps

abbrev Installing.Keeps (fair : Fairness) (I : Files → Prop) (x : Installing α) : Prop :=
  Installing.Holds fair I x (fun _ => I) I I

namespace Installing.Keeps

theorem pure (a : α) : Keeps fair I (Pure.pure a : Installing α) :=
  Holds.pure (fun _ h => h) fun _ h => h

theorem fail (e : Error) : Keeps fair I (Installing.fail e : Installing α) :=
  Holds.fail (fun _ h => h) fun _ h => h

theorem ofExcept (r : Except Error α) : Keeps fair I (Installing.ofExcept r) :=
  Holds.ofExcept (fun _ _ _ h => h) (fun _ h => h) fun _ h => h

theorem update (f : Operation → Operation) : Keeps fair I (Installing.update f) :=
  Holds.update (fun _ h => h) fun _ h => h

theorem bind {x : Installing α} {f : α → Installing β} (first : Keeps fair I x)
    (second : ∀ a, Keeps fair I (f a)) : Keeps fair I (x >>= f) :=
  Holds.bind first second fun _ h => h

theorem tryCatch {x : Installing α} {f : Error → Installing α} (first : Keeps fair I x)
    (second : ∀ e, Keeps fair I (f e)) : Keeps fair I (tryCatch x f) :=
  Holds.tryCatch first second fun _ _ h => h

theorem lift {p : Program α} (keeps : Program.Keeps fair I p) : Keeps fair I (Installing.lift p) :=
  Holds.lift keeps fun _ _ h => h

theorem ask {c : Call α} (keeps : c.Keeps fair I) : Keeps fair I (Installing.lift (Program.ask c)) :=
  lift (.ask keeps)

theorem look {c : Call α} (look : c.IsLook) : Keeps fair I (Installing.lift (Program.ask c)) :=
  ask look.keeps

theorem io {c : Call (Except IoError α)} (keeps : c.Keeps fair I) : Keeps fair I (Installing.io c) := by
  refine bind (ask keeps) fun r => ?_
  cases r with
  | ok a => exact pure a
  | error e => exact fail _

theorem exists? (p : Path) : Keeps fair I (Installing.exists? p) :=
  lift (.bind (.look trivial) fun _ => .pure _)

theorem tell (line : String) : Keeps fair I (Installing.tell line) :=
  bind (look trivial) fun _ => update _

theorem command {c : Command} (keeps : (Call.run c .reported).Keeps fair I) :
    Keeps fair I (Installing.command c) := by
  refine bind (ask keeps) fun report => ?_
  exact bind (update _) fun _ => ofExcept _

theorem forEach {xs : List α} {f : α → Unit → Installing (ForInStep Unit)}
    (each : ∀ x ∈ xs, Keeps fair I (f x ())) : Keeps fair I (forIn xs () f) := by
  induction xs with
  | nil => exact pure ()
  | cons x xs ih =>
      rw [List.forIn_cons]
      refine bind (each x (by simp)) fun r => ?_
      cases r with
      | done u => exact pure u
      | yield u => exact ih fun y hy => each y (by simp [hy])

end Installing.Keeps

end keeps

end LanguageHost
