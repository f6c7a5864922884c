import Mathlib

/-!
# Programs that make calls

A controller, a driver or a client is, to its environment, a program that
issues one call at a time and decides on the answer what to do next. This
module is the small theory of such programs, over an arbitrary signature of
calls: the tree of a program's calls (`Prog`), what it means to run one
against a state (`Prog.Exec`), and the two ways of proving something about
every run.

A call may answer in more than one way – it may fail, or return something
the caller has no say in – so the meaning of a signature is a relation
(`Sem`) rather than a function, and a statement about every run is a
statement about every pattern of answers. A run carries its trace, the
calls in order with the answers they got, so that a statement can speak of
what was called.

`Monitor` is the proof principle. A monitor is an automaton that reads the
calls and answers of a program and says, in each of its states, which calls
are allowed; a program obeys it (`Prog.Obeys`) when no branch of its tree
makes a call that is not. Obeying is a fact about the tree alone. It turns
into a fact about states by a relation between the monitor and the state
that every allowed call preserves (`Prog.Obeys.exec`).
-/

namespace Interaction

/-- **A signature of calls**: the operations and, for each, the type of its
answers. -/
structure Signature where
  /-- The operations. -/
  Op : Type
  /-- What an operation answers. -/
  Ans : Op → Type

/-- **A program over a signature**: it has finished, or it makes a call and
goes on with the answer. What comes next is a function of the answer, so every
branch the code takes on a result is in the tree; what a call does to the
state is not, and is left to the meaning of the signature. -/
inductive Prog (σ : Signature) (α : Type) where
  | done (a : α) : Prog σ α
  | call (o : σ.Op) (k : σ.Ans o → Prog σ α) : Prog σ α

/-- A call together with its answer. -/
abbrev Event (σ : Signature) := (o : σ.Op) × σ.Ans o

/-- **The meaning of a signature**: from a state, which answers an operation
can give and which states it can leave. -/
abbrev Sem (σ : Signature) (S : Type) := S → (o : σ.Op) → σ.Ans o → S → Prop

namespace Prog

variable {σ τ : Signature} {α β γ S Q ε ε' : Type}

/-- Sequencing: go on with the result. -/
protected def bind : Prog σ α → (α → Prog σ β) → Prog σ β
  | done a, f => f a
  | call o k, f => call o (fun r => (k r).bind f)

instance : Monad (Prog σ) where
  pure := done
  bind := Prog.bind

/-- The program that makes one call and returns its answer. -/
def perform (o : σ.Op) : Prog σ (σ.Ans o) := call o done

@[simp] theorem pure_eq_done (a : α) : (pure a : Prog σ α) = done a := rfl

@[simp] theorem done_bind (a : α) (f : α → Prog σ β) : (done a >>= f) = f a := rfl

@[simp] theorem call_bind (o : σ.Op) (k : σ.Ans o → Prog σ α) (f : α → Prog σ β) :
    (call o k >>= f) = call o (fun r => k r >>= f) := rfl

@[simp] theorem perform_bind (o : σ.Op) (f : σ.Ans o → Prog σ β) :
    (perform o >>= f) = call o f := rfl

theorem bind_done (p : Prog σ α) : (p >>= done) = p := by
  induction p with
  | done a => rfl
  | call o k ih => exact congrArg (call o) (funext ih)

theorem bind_assoc' (p : Prog σ α) (f : α → Prog σ β) (g : β → Prog σ γ) :
    ((p >>= f) >>= g) = p >>= fun a => f a >>= g := by
  induction p with
  | done a => rfl
  | call o k ih => exact congrArg (call o) (funext ih)

instance : LawfulMonad (Prog σ) :=
  LawfulMonad.mk' (Prog σ) (fun p => bind_done p) (fun _ _ => rfl) bind_assoc'

/-! ## Runs -/

/-- **A run of a program**: `Exec sem p s tr s' a` says that `p`, started in
`s`, can make the calls of `tr` with the answers recorded there, end in `s'`
and return `a`. -/
def Exec (sem : Sem σ S) : Prog σ α → S → List (Event σ) → S → α → Prop
  | done a, s, tr, s', b => tr = [] ∧ s' = s ∧ b = a
  | call o k, s, tr, s', b =>
    ∃ r s₁ tr₁, sem s o r s₁ ∧ tr = ⟨o, r⟩ :: tr₁ ∧ Exec sem (k r) s₁ tr₁ s' b

section Exec

variable {sem : Sem σ S} {s s' : S} {tr : List (Event σ)}

@[simp] theorem exec_done {a b : α} :
    Exec sem (done a) s tr s' b ↔ tr = [] ∧ s' = s ∧ b = a := Iff.rfl

theorem exec_perform {o : σ.Op} {r : σ.Ans o} :
    Exec sem (perform o) s tr s' r ↔ sem s o r s' ∧ tr = [⟨o, r⟩] := by
  constructor
  · rintro ⟨r', s₁, tr₁, hsem, rfl, rfl, rfl, rfl⟩
    exact ⟨hsem, rfl⟩
  · rintro ⟨hsem, rfl⟩
    exact ⟨r, s', [], hsem, rfl, rfl, rfl, rfl⟩

/-- **A run of a sequence is a run of the first program followed by a run of
the second.** With this the runs of a function are taken apart along its text. -/
theorem exec_bind {p : Prog σ α} {f : α → Prog σ β} {b : β} :
    Exec sem (p >>= f) s tr s' b ↔
      ∃ a s₁ tr₁ tr₂, tr = tr₁ ++ tr₂ ∧ Exec sem p s tr₁ s₁ a
        ∧ Exec sem (f a) s₁ tr₂ s' b := by
  induction p generalizing s tr with
  | done a =>
    constructor
    · intro h
      exact ⟨a, s, [], tr, rfl, ⟨rfl, rfl, rfl⟩, h⟩
    · rintro ⟨a', s₁, tr₁, tr₂, rfl, ⟨rfl, rfl, rfl⟩, h⟩
      exact h
  | call o k ih =>
    constructor
    · rintro ⟨r, s₁, tr₁, hsem, rfl, h⟩
      obtain ⟨a, s₂, tr₂, tr₃, rfl, hp, hf⟩ := (ih r).mp h
      exact ⟨a, s₂, ⟨o, r⟩ :: tr₂, tr₃, rfl, ⟨r, s₁, tr₂, hsem, rfl, hp⟩, hf⟩
    · rintro ⟨a, s₂, tr₁, tr₂, rfl, ⟨r, s₁, tr₃, hsem, rfl, hp⟩, hf⟩
      exact ⟨r, s₁, tr₃ ++ tr₂, hsem, rfl, (ih r).mpr ⟨a, s₂, tr₃, tr₂, rfl, hp, hf⟩⟩

/-- A run of a sequence of fallible programs: the first one fails and its
error is the result, or it succeeds and the second one runs. -/
theorem exec_bind_except {x : ExceptT ε (Prog σ) α} {f : α → ExceptT ε (Prog σ) β}
    {b : Except ε β} :
    Exec sem (x >>= f).run s tr s' b ↔
      (∃ e, Exec sem x.run s tr s' (.error e) ∧ b = .error e)
      ∨ ∃ a s₁ tr₁ tr₂, tr = tr₁ ++ tr₂ ∧ Exec sem x.run s tr₁ s₁ (.ok a)
          ∧ Exec sem (f a).run s₁ tr₂ s' b := by
  rw [ExceptT.run_bind, exec_bind]
  constructor
  · rintro ⟨r, s₁, tr₁, tr₂, rfl, hx, hf⟩
    cases r with
    | error e =>
      obtain ⟨rfl, rfl, rfl⟩ := hf
      exact Or.inl ⟨e, by simpa using hx, rfl⟩
    | ok a => exact Or.inr ⟨a, s₁, tr₁, tr₂, rfl, hx, hf⟩
  · rintro (⟨e, hx, rfl⟩ | ⟨a, s₁, tr₁, tr₂, rfl, hx, hf⟩)
    · exact ⟨.error e, s', tr, [], (List.append_nil tr).symm, hx, rfl, rfl, rfl⟩
    · exact ⟨.ok a, s₁, tr₁, tr₂, rfl, hx, hf⟩

/-- A sequence of fallible programs succeeds when both do. -/
theorem exec_bind_ok {x : ExceptT ε (Prog σ) α} {f : α → ExceptT ε (Prog σ) β} {b : β} :
    Exec sem (x >>= f).run s tr s' (.ok b) ↔
      ∃ a s₁ tr₁ tr₂, tr = tr₁ ++ tr₂ ∧ Exec sem x.run s tr₁ s₁ (.ok a)
        ∧ Exec sem (f a).run s₁ tr₂ s' (.ok b) := by
  rw [exec_bind_except, or_iff_right]
  rintro ⟨e, -, he⟩
  cases he

/-- A fallible program whose failure is looked at and not passed on. -/
theorem exec_lift_bind {p : Prog σ α} {f : α → ExceptT ε (Prog σ) β} {b : Except ε β} :
    Exec sem (ExceptT.lift p >>= f).run s tr s' b ↔
      ∃ a s₁ tr₁ tr₂, tr = tr₁ ++ tr₂ ∧ Exec sem p s tr₁ s₁ a
        ∧ Exec sem (f a).run s₁ tr₂ s' b := by
  have hrun : (ExceptT.lift p >>= f).run = p >>= fun a => (f a).run := by
    rw [ExceptT.run_bind, ExceptT.run_lift, map_eq_pure_bind, bind_assoc]
    rfl
  rw [hrun, exec_bind]

@[simp] theorem mapError_eq_ok {x : Except ε α} {f : ε → ε'} {a : α} :
    x.mapError f = .ok a ↔ x = .ok a := by
  cases x <;> simp [Except.mapError]

/-- Rewriting the error of a fallible program changes its runs in the result
only. -/
theorem exec_adapt {x : ExceptT ε (Prog σ) α} {f : ε → ε'} {b : Except ε' α} :
    Exec sem (ExceptT.adapt f x).run s tr s' b ↔
      ∃ b', Exec sem x.run s tr s' b' ∧ b = b'.mapError f := by
  have hrun : (ExceptT.adapt f x).run = x.run >>= fun r => done (r.mapError f) := rfl
  rw [hrun, exec_bind]
  constructor
  · rintro ⟨b', s₁, tr₁, tr₂, rfl, hx, rfl, rfl, rfl⟩
    exact ⟨b', by simpa using hx, rfl⟩
  · rintro ⟨b', hx, rfl⟩
    exact ⟨b', s', tr, [], (List.append_nil tr).symm, hx, rfl, rfl, rfl⟩

theorem exec_adapt_ok {x : ExceptT ε (Prog σ) α} {f : ε → ε'} {a : α} :
    Exec sem (ExceptT.adapt f x).run s tr s' (.ok a) ↔ Exec sem x.run s tr s' (.ok a) := by
  rw [exec_adapt]
  constructor
  · rintro ⟨b', hx, hb⟩
    exact mapError_eq_ok.mp hb.symm ▸ hx
  · intro hx
    exact ⟨.ok a, hx, rfl⟩

/-- A failure that is excused or passed on. Nothing more is called. -/
theorem exec_excused {p : Prop} {_ : Decidable p} {e : ε} {a : α} {b : Except ε α} :
    Exec sem (if p then pure a else throw e : ExceptT ε (Prog σ) α).run s tr s' b ↔
      b = (if p then .ok a else .error e) ∧ s' = s ∧ tr = [] := by
  split
  all_goals
    constructor
    · rintro ⟨rfl, rfl, rfl⟩
      exact ⟨rfl, rfl, rfl⟩
    · rintro ⟨rfl, rfl, rfl⟩
      exact ⟨rfl, rfl, rfl⟩

/-- The result is a success exactly if the failure is excused. -/
theorem exec_excused_ok {p : Prop} {_ : Decidable p} {e : ε} {a b : α} :
    Exec sem (if p then pure a else throw e : ExceptT ε (Prog σ) α).run s tr s' (.ok b) ↔
      p ∧ b = a ∧ s' = s ∧ tr = [] := by
  rw [exec_excused]
  split
  · rename_i hp
    simp [hp]
  · rename_i hp
    simp [hp]

/-- **Runs along a simulation.** Where every call of one meaning is, seen
through `g`, a call of the other, so is every run: what is proved of runs over
the abstract state holds of what `g` reads off the concrete one. -/
theorem Exec.map {T : Type} {sem' : Sem σ T} {g : S → T}
    (hsem : ∀ s o r s', sem s o r s' → sem' (g s) o r (g s')) {p : Prog σ α} {a : α}
    (h : Exec sem p s tr s' a) : Exec sem' p (g s) tr (g s') a := by
  induction p generalizing s tr with
  | done b =>
    obtain ⟨rfl, rfl, rfl⟩ := h
    exact ⟨rfl, rfl, rfl⟩
  | call o k ih =>
    obtain ⟨r, s₁, tr₁, hs, rfl, hk⟩ := h
    exact ⟨r, g s₁, tr₁, hsem s o r s₁ hs, rfl, ih r hk⟩

end Exec

/-! ## Records

A record is written as the calls are made, and has no part in them. -/

/-- The meaning of a signature next to a record of the calls. The program does
not see the record. It is there for statements about what was called, and in
which order, besides the states. -/
def recorded {G : Type} (sem : Sem σ S) (write : G → Event σ → G) : Sem σ (S × G) :=
  fun s o r s' => sem s.1 o r s'.1 ∧ s'.2 = write s.2 ⟨o, r⟩

/-- **A run next to a record is a run**, and the record is that of its trace. -/
theorem exec_recorded {G : Type} {sem : Sem σ S} {write : G → Event σ → G} {p : Prog σ α}
    {s s' : S × G} {tr : List (Event σ)} {a : α} :
    Exec (recorded sem write) p s tr s' a ↔
      Exec sem p s.1 tr s'.1 a ∧ s'.2 = tr.foldl write s.2 := by
  induction p generalizing s tr with
  | done b =>
    constructor
    · rintro ⟨rfl, rfl, rfl⟩
      exact ⟨⟨rfl, rfl, rfl⟩, rfl⟩
    · rintro ⟨⟨rfl, hs, rfl⟩, hg⟩
      exact ⟨rfl, Prod.ext hs hg, rfl⟩
  | call o k ih =>
    constructor
    · rintro ⟨r, s₁, tr₁, ⟨hs, hg⟩, rfl, hk⟩
      obtain ⟨hk, hg'⟩ := (ih r).mp hk
      rw [hg] at hg'
      exact ⟨⟨r, s₁.1, tr₁, hs, rfl, hk⟩, hg'⟩
    · rintro ⟨⟨r, t, tr₁, hs, rfl, hk⟩, hg⟩
      exact ⟨r, (t, write s.2 ⟨o, r⟩), tr₁, ⟨hs, rfl⟩, rfl, (ih r).mpr ⟨hk, hg⟩⟩

/-! ## Disturbances

Something outside the program changes the state, any number of times before
each call. -/

/-- The meaning of a signature where `env` may happen before a call. -/
def disturbed (env : S → S → Prop) (sem : Sem σ S) : Sem σ S :=
  fun s o r s' => ∃ s₁, Relation.ReflTransGen env s s₁ ∧ sem s₁ o r s'

/-- **A run without a disturbance** is among the runs with them, so that what
is proved of all of those holds of it too. -/
theorem Exec.disturb {env : S → S → Prop} {sem : Sem σ S} {p : Prog σ α} {s s' : S}
    {tr : List (Event σ)} {a : α} (h : Exec sem p s tr s' a) :
    Exec (disturbed env sem) p s tr s' a :=
  h.map (g := id) fun s _ _ _ hs => ⟨s, .refl, hs⟩

/-! ## Programs with one outcome

Where the state determines every answer, a program has one run. -/

/-- **The outcome of a program**: from `s` it runs to `s'` and returns `a`,
and no run of it does anything else. Both halves are needed, since of a
program that has no run at all the second one says nothing. -/
structure Yields (sem : Sem σ S) (p : Prog σ α) (s s' : S) (a : α) : Prop where
  run : ∃ tr, Exec sem p s tr s' a
  only : ∀ tr t b, Exec sem p s tr t b → t = s' ∧ b = a

section Yields

variable {sem : Sem σ S} {s s₁ s' : S}

theorem Yields.done (a : α) : Yields sem (done a) s s a :=
  ⟨⟨[], rfl, rfl, rfl⟩, fun _ _ _ h => h.2⟩

theorem Yields.perform {o : σ.Op} {r : σ.Ans o} (h : sem s o r s')
    (honly : ∀ r' t, sem s o r' t → t = s' ∧ r' = r) : Yields sem (perform o) s s' r :=
  ⟨⟨_, exec_perform.mpr ⟨h, rfl⟩⟩, fun _ t b ht => honly b t (exec_perform.mp ht).1⟩

theorem Yields.bind {p : Prog σ α} {f : α → Prog σ β} {a : α} {b : β}
    (hp : Yields sem p s s₁ a) (hf : Yields sem (f a) s₁ s' b) : Yields sem (p >>= f) s s' b := by
  obtain ⟨tr₁, h₁⟩ := hp.run
  obtain ⟨tr₂, h₂⟩ := hf.run
  refine ⟨⟨tr₁ ++ tr₂, exec_bind.mpr ⟨a, s₁, tr₁, tr₂, rfl, h₁, h₂⟩⟩, fun tr t c h => ?_⟩
  obtain ⟨a', t₁, tr₃, tr₄, -, h₃, h₄⟩ := exec_bind.mp h
  obtain ⟨rfl, rfl⟩ := hp.only _ _ _ h₃
  exact hf.only _ _ _ h₄

theorem Yields.bind_ok {x : ExceptT ε (Prog σ) α} {f : α → ExceptT ε (Prog σ) β} {a : α}
    {b : Except ε β} (hx : Yields sem x.run s s₁ (.ok a)) (hf : Yields sem (f a).run s₁ s' b) :
    Yields sem (x >>= f).run s s' b := by
  rw [ExceptT.run_bind]
  exact hx.bind hf

theorem Yields.bind_error {x : ExceptT ε (Prog σ) α} (f : α → ExceptT ε (Prog σ) β) {e : ε}
    (hx : Yields sem x.run s s' (.error e)) : Yields sem (x >>= f).run s s' (.error e) := by
  rw [ExceptT.run_bind]
  exact hx.bind (.done _)

theorem Yields.lift_bind {p : Prog σ α} {f : α → ExceptT ε (Prog σ) β} {a : α} {b : Except ε β}
    (hp : Yields sem p s s₁ a) (hf : Yields sem (f a).run s₁ s' b) :
    Yields sem (ExceptT.lift p >>= f).run s s' b := by
  rw [ExceptT.run_bind, ExceptT.run_lift, map_eq_pure_bind]
  have hlift : Yields sem (p >>= fun a => Prog.done (Except.ok a : Except ε α)) s s₁ (.ok a) :=
    hp.bind (.done _)
  exact hlift.bind hf

theorem Yields.adapt {x : ExceptT ε (Prog σ) α} (f : ε → ε') {b : Except ε α}
    (hx : Yields sem x.run s s' b) :
    Yields sem (ExceptT.adapt f x).run s s' (b.mapError f) :=
  hx.bind (.done _)

end Yields

/-! ## Running a program on given answers

Where every answer is computed from the state and a choice the environment
makes, a program runs on a list of choices. That is what a concrete run is
evaluated with. A call that never answers has no outcome for any choice, and
the program stops there. -/

section RunWith

variable {C : Type}

/-- The meaning of a signature whose answers are computed from the state and
a choice of the environment. -/
def semOf (h : S → (o : σ.Op) → C → Option (σ.Ans o × S)) : Sem σ S :=
  fun s o r s' => ∃ c, h s o c = some (r, s')

/-- Run a program on a list of choices; once the list is used up, every
further call gets the choice `dflt`. -/
def runWith (h : S → (o : σ.Op) → C → Option (σ.Ans o × S)) (dflt : C) :
    Prog σ α → S → List C → Option (List (Event σ) × S × α)
  | done a, s, _ => some ([], s, a)
  | call o k, s, cs =>
    match h s o (cs.headD dflt) with
    | none => none
    | some (r, s') => (runWith h dflt (k r) s' cs.tail).map fun x => (⟨o, r⟩ :: x.1, x.2)

/-- Running on a list of choices is a run. -/
theorem exec_of_runWith {h : S → (o : σ.Op) → C → Option (σ.Ans o × S)} {dflt : C}
    {p : Prog σ α} {s s' : S} {cs : List C} {tr : List (Event σ)} {a : α}
    (hr : runWith h dflt p s cs = some (tr, s', a)) : Exec (semOf h) p s tr s' a := by
  induction p generalizing s cs tr with
  | done b =>
    obtain ⟨rfl, rfl, rfl⟩ : [] = tr ∧ s = s' ∧ b = a := by simpa [runWith] using hr
    exact ⟨rfl, rfl, rfl⟩
  | call o k ih =>
    rw [runWith] at hr
    split at hr
    · cases hr
    · rename_i r s₁ hstep
      obtain ⟨⟨tr₁, s₂, b⟩, hk, heq⟩ := Option.map_eq_some_iff.mp hr
      obtain ⟨rfl, rfl, rfl⟩ : ⟨o, r⟩ :: tr₁ = tr ∧ s₂ = s' ∧ b = a := by
        simpa using heq
      exact ⟨r, s₁, tr₁, ⟨_, hstep⟩, rfl, ih r hk⟩

/-- The same where only the end of the run is computed. -/
theorem exists_exec_of_runWith {h : S → (o : σ.Op) → C → Option (σ.Ans o × S)} {dflt : C}
    {p : Prog σ α} {s s' : S} {cs : List C} {a : α}
    (hr : (runWith h dflt p s cs).map Prod.snd = some (s', a)) :
    ∃ tr, Exec (semOf h) p s tr s' a := by
  obtain ⟨⟨tr, x⟩, hx, rfl⟩ := Option.map_eq_some_iff.mp hr
  exact ⟨tr, exec_of_runWith hx⟩

end RunWith

end Prog

/-! ## Monitors -/

/-- **A monitor**: an automaton reading the calls of a program and their
answers, and saying in each of its states which calls are allowed. It does not
see the state the calls act on, so that a program is checked against it along
its text; what its states mean is a relation to that state
(`Prog.Obeys.exec_after`). -/
structure Monitor (σ : Signature) (Q : Type) where
  /-- The state after a call and its answer. -/
  next : Q → (o : σ.Op) → σ.Ans o → Q
  /-- Which calls are allowed. -/
  allows : Q → σ.Op → Prop

/-- The state a monitor gets to on a trace. -/
def Monitor.after {σ : Signature} {Q : Type} (M : Monitor σ Q) (q : Q) (tr : List (Event σ)) : Q :=
  tr.foldl (fun q ev => M.next q ev.1 ev.2) q

/-- Two monitors side by side: a call is allowed where both allow it. Two
properties of a program can so be proved apart and used together. -/
def Monitor.prod {σ : Signature} {Q Q' : Type} (M : Monitor σ Q) (M' : Monitor σ Q') :
    Monitor σ (Q × Q') where
  next q o r := (M.next q.1 o r, M'.next q.2 o r)
  allows q o := M.allows q.1 o ∧ M'.allows q.2 o

namespace Prog

variable {σ τ : Signature} {α β S Q : Type} {M : Monitor σ Q}

/-- **A program obeys a monitor** started in `q`: whatever the answers, it
makes no call the monitor does not allow, and when it returns, `Φ` holds of
the monitor's state and the result. -/
def Obeys (M : Monitor σ Q) (Φ : Q → α → Prop) : Q → Prog σ α → Prop
  | q, done a => Φ q a
  | q, call o k => M.allows q o ∧ ∀ r, Obeys M Φ (M.next q o r) (k r)

@[simp] theorem obeys_done {Φ : Q → α → Prop} {q : Q} {a : α} :
    Obeys M Φ q (done a) ↔ Φ q a := Iff.rfl

@[simp] theorem obeys_call {Φ : Q → α → Prop} {q : Q} {o : σ.Op}
    {k : σ.Ans o → Prog σ α} :
    Obeys M Φ q (call o k) ↔ M.allows q o ∧ ∀ r, Obeys M Φ (M.next q o r) (k r) :=
  Iff.rfl

theorem obeys_perform_bind {Φ : Q → β → Prop} {q : Q} {o : σ.Op} {f : σ.Ans o → Prog σ β} :
    Obeys M Φ q (perform o >>= f) ↔ M.allows q o ∧ ∀ r, Obeys M Φ (M.next q o r) (f r) :=
  Iff.rfl

theorem Obeys.mono {Φ Ψ : Q → α → Prop} (h : ∀ q a, Φ q a → Ψ q a) {q : Q}
    {p : Prog σ α} (hp : Obeys M Φ q p) : Obeys M Ψ q p := by
  induction p generalizing q with
  | done a => exact h q a hp
  | call o k ih => exact ⟨hp.1, fun r => ih r (hp.2 r)⟩

theorem obeys_bind {Φ : Q → β → Prop} {q : Q} {p : Prog σ α} {f : α → Prog σ β} :
    Obeys M Φ q (p >>= f) ↔ Obeys M (fun q' a => Obeys M Φ q' (f a)) q p := by
  induction p generalizing q with
  | done a => exact Iff.rfl
  | call o k ih => exact and_congr_right fun _ => forall_congr' fun r => ih r

theorem obeys_bind_except {ε : Type} {Φ : Q → Except ε β → Prop} {q : Q}
    {x : ExceptT ε (Prog σ) α} {f : α → ExceptT ε (Prog σ) β} :
    Obeys M Φ q (x >>= f).run ↔
      Obeys M (fun q' r => match r with
        | .error e => Φ q' (.error e)
        | .ok a => Obeys M Φ q' (f a).run) q x.run := by
  rw [ExceptT.run_bind, obeys_bind]
  refine Iff.of_eq (congrArg (fun Ψ => Obeys M Ψ q x.run) ?_)
  funext q' r
  cases r <;> rfl

theorem obeys_adapt {ε ε' : Type} {Φ : Q → Except ε' α → Prop} {q : Q}
    {x : ExceptT ε (Prog σ) α} {f : ε → ε'} :
    Obeys M Φ q (ExceptT.adapt f x).run ↔
      Obeys M (fun q' r => Φ q' (r.mapError f)) q x.run := by
  have hrun : (ExceptT.adapt f x).run = x.run >>= fun r => done (r.mapError f) := rfl
  rw [hrun, obeys_bind]
  rfl

theorem obeys_lift_bind {ε : Type} {Φ : Q → Except ε β → Prop} {q : Q} {p : Prog σ α}
    {f : α → ExceptT ε (Prog σ) β} :
    Obeys M Φ q (ExceptT.lift p >>= f).run ↔ Obeys M (fun q' a => Obeys M Φ q' (f a).run) q p := by
  have hrun : (ExceptT.lift p >>= f).run = p >>= fun a => (f a).run := by
    rw [ExceptT.run_bind, ExceptT.run_lift, map_eq_pure_bind, bind_assoc]
    rfl
  rw [hrun, obeys_bind]

/-- **A monitor that sees less.** What a program keeps to, it keeps to as seen
through `f`. -/
theorem Obeys.map {Q' : Type} {M' : Monitor σ Q'} (f : Q → Q')
    (hallows : ∀ q o, M.allows q o → M'.allows (f q) o)
    (hnext : ∀ q o r, f (M.next q o r) = M'.next (f q) o r) {Φ : Q → α → Prop}
    {Φ' : Q' → α → Prop} (hΦ : ∀ q a, Φ q a → Φ' (f q) a) {p : Prog σ α} {q : Q}
    (hp : Obeys M Φ q p) : Obeys M' Φ' (f q) p := by
  induction p generalizing q with
  | done a => exact hΦ q a hp
  | call o k ih =>
    refine ⟨hallows q o hp.1, fun r => ?_⟩
    rw [← hnext]
    exact ih r (hp.2 r)

/-- **Two monitors at once**: what a program keeps to of each, it keeps to of
both. -/
theorem Obeys.prod {Q' : Type} {M' : Monitor σ Q'} {Φ : Q → α → Prop} {Φ' : Q' → α → Prop}
    {p : Prog σ α} {q : Q} {q' : Q'} (hp : Obeys M Φ q p) (hp' : Obeys M' Φ' q' p) :
    Obeys (M.prod M') (fun x a => Φ x.1 a ∧ Φ' x.2 a) (q, q') p := by
  induction p generalizing q q' with
  | done a => exact ⟨hp, hp'⟩
  | call o k ih => exact ⟨⟨hp.1, hp'.1⟩, fun r => ih r (hp.2 r) (hp'.2 r)⟩

/-- **What a monitor knows, a run keeps.** If every allowed call carries the
relation between monitor and state over, then a run of a program that obeys
the monitor ends in states that are still related; and the monitor's is the one
it gets to on the trace. -/
theorem Obeys.exec_after {sem : Sem σ S} {R : Q → S → Prop}
    (hstep : ∀ q s o r s', R q s → M.allows q o → sem s o r s' → R (M.next q o r) s')
    {Φ : Q → α → Prop} {p : Prog σ α} {q : Q} (hp : Obeys M Φ q p) {s s' : S}
    {tr : List (Event σ)} {a : α} (hR : R q s) (he : Exec sem p s tr s' a) :
    R (M.after q tr) s' ∧ Φ (M.after q tr) a := by
  induction p generalizing q s tr with
  | done b =>
    obtain ⟨rfl, rfl, rfl⟩ := he
    exact ⟨hR, hp⟩
  | call o k ih =>
    obtain ⟨r, s₁, tr₁, hsem, rfl, hk⟩ := he
    exact ih r (hp.2 r) (hstep q s o r s₁ hR hp.1 hsem) hk

theorem Obeys.exec {sem : Sem σ S} {R : Q → S → Prop}
    (hstep : ∀ q s o r s', R q s → M.allows q o → sem s o r s' → R (M.next q o r) s')
    {Φ : Q → α → Prop} {p : Prog σ α} {q : Q} (hp : Obeys M Φ q p) {s s' : S}
    {tr : List (Event σ)} {a : α} (hR : R q s) (he : Exec sem p s tr s' a) :
    ∃ q', R q' s' ∧ Φ q' a :=
  ⟨M.after q tr, hp.exec_after hstep hR he⟩

/-- Every call of a run was allowed, where the relation between monitor and
state held. -/
theorem Obeys.trace {sem : Sem σ S} {R : Q → S → Prop}
    (hstep : ∀ q s o r s', R q s → M.allows q o → sem s o r s' → R (M.next q o r) s')
    {Φ : Q → α → Prop} {p : Prog σ α} {q : Q} (hp : Obeys M Φ q p) {s s' : S}
    {tr : List (Event σ)} {a : α} (hR : R q s) (he : Exec sem p s tr s' a) {ev : Event σ}
    (hev : ev ∈ tr) : ∃ q s, R q s ∧ M.allows q ev.1 := by
  induction p generalizing q s tr with
  | done b =>
    obtain ⟨rfl, -, -⟩ := he
    cases hev
  | call o k ih =>
    obtain ⟨r, s₁, tr₁, hsem, rfl, hk⟩ := he
    rcases List.mem_cons.mp hev with rfl | hev
    · exact ⟨q, s, hR, hp.1⟩
    · exact ih r (hp.2 r) (hstep q s o r s₁ hR hp.1 hsem) hk hev

/-! ## Calls only of some kind

The stateless monitor: every call, on every branch, satisfies a predicate. -/

/-- Every call of the program, whatever the answers, satisfies `P`. Nothing is
tracked along the way, which makes it the cheap way to say what a program
never touches. -/
def Calls (P : σ.Op → Prop) : Prog σ α → Prop
  | done _ => True
  | call o k => P o ∧ ∀ r, (k r).Calls P

@[simp] theorem calls_done {P : σ.Op → Prop} {a : α} : (done a : Prog σ α).Calls P :=
  trivial

@[simp] theorem calls_call {P : σ.Op → Prop} {o : σ.Op} {k : σ.Ans o → Prog σ α} :
    (call o k).Calls P ↔ P o ∧ ∀ r, (k r).Calls P := Iff.rfl

theorem Calls.mono {P P' : σ.Op → Prop} (h : ∀ o, P o → P' o) {p : Prog σ α}
    (hp : p.Calls P) : p.Calls P' := by
  induction p with
  | done a => trivial
  | call o k ih => exact ⟨h o hp.1, fun r => ih r (hp.2 r)⟩

theorem Calls.bind {P : σ.Op → Prop} {p : Prog σ α} {f : α → Prog σ β}
    (hp : p.Calls P) (hf : ∀ a, (f a).Calls P) : (p >>= f).Calls P := by
  induction p with
  | done a => exact hf a
  | call o k ih => exact ⟨hp.1, fun r => ih r (hp.2 r)⟩

theorem Calls.bind_except {ε : Type} {P : σ.Op → Prop} {x : ExceptT ε (Prog σ) α}
    {f : α → ExceptT ε (Prog σ) β} (hx : x.run.Calls P)
    (hf : ∀ a, (f a).run.Calls P) : (x >>= f).run.Calls P := by
  rw [ExceptT.run_bind]
  refine Calls.bind hx (fun r => ?_)
  cases r with
  | error e => trivial
  | ok a => exact hf a

theorem Calls.lift_bind {ε : Type} {P : σ.Op → Prop} {p : Prog σ α}
    {f : α → ExceptT ε (Prog σ) β} (hp : p.Calls P) (hf : ∀ a, (f a).run.Calls P) :
    (ExceptT.lift p >>= f).run.Calls P := by
  refine Calls.bind_except ?_ hf
  rw [ExceptT.run_lift, map_eq_pure_bind]
  exact Calls.bind hp fun a => trivial

theorem Calls.adapt {ε ε' : Type} {P : σ.Op → Prop} {x : ExceptT ε (Prog σ) α} {f : ε → ε'}
    (hx : x.run.Calls P) : (ExceptT.adapt f x).run.Calls P :=
  Calls.bind hx fun _ => trivial

/-- The calls of a run are calls of the program. -/
theorem Calls.of_mem {sem : Sem σ S} {P : σ.Op → Prop} {p : Prog σ α} {s s' : S}
    {tr : List (Event σ)} {a : α} (hp : p.Calls P) (he : Exec sem p s tr s' a)
    {ev : Event σ} (hev : ev ∈ tr) : P ev.1 := by
  induction p generalizing s tr with
  | done b => obtain ⟨rfl, -, -⟩ := he; cases hev
  | call o k ih =>
    obtain ⟨r, s₁, tr₁, -, rfl, hk⟩ := he
    rcases List.mem_cons.mp hev with rfl | hev
    · exact hp.1
    · exact ih r (hp.2 r) hk hev

/-- **A property every call of the program keeps is kept by its runs.** A call
the program never makes need not keep it: that is what `P` is for. -/
theorem Calls.invariant {sem : Sem σ S} {P : σ.Op → Prop} {I : S → Prop}
    (hstep : ∀ s o r s', I s → P o → sem s o r s' → I s') {p : Prog σ α}
    (hp : p.Calls P) {s s' : S} {tr : List (Event σ)} {a : α} (hI : I s)
    (he : Exec sem p s tr s' a) : I s' := by
  induction p generalizing s tr with
  | done b => obtain ⟨-, rfl, -⟩ := he; exact hI
  | call o k ih =>
    obtain ⟨r, s₁, tr₁, hsem, -, hk⟩ := he
    exact ih r (hp.2 r) (hstep s o r s₁ hI hp.1 hsem) hk

/-- **A run of a program whose calls concern a part of the state** is a run on
the part. The rest of the state is what it was, since the end state is the one
at the start with another part put in. -/
theorem Calls.exec_part {T : Type} {sem : Sem σ S} {sem' : Sem σ T} {P : σ.Op → Prop}
    (get : S → T) (set : S → T → S) (hget : ∀ s t, get (set s t) = t)
    (hset : ∀ s t t', set (set s t) t' = set s t') (hself : ∀ s, set s (get s) = s)
    (hstep : ∀ s o r s', P o → sem s o r s' → ∃ t, sem' (get s) o r t ∧ s' = set s t)
    {p : Prog σ α} (hp : p.Calls P) {s s' : S} {tr : List (Event σ)} {a : α}
    (he : Exec sem p s tr s' a) : ∃ t, Exec sem' p (get s) tr t a ∧ s' = set s t := by
  induction p generalizing s tr with
  | done b =>
    obtain ⟨rfl, rfl, rfl⟩ := he
    exact ⟨_, ⟨rfl, rfl, rfl⟩, (hself _).symm⟩
  | call o k ih =>
    obtain ⟨r, s₁, tr₁, hs, rfl, hk⟩ := he
    obtain ⟨t₁, ht₁, rfl⟩ := hstep s o r s₁ hp.1 hs
    obtain ⟨t, ht, rfl⟩ := ih r (hp.2 r) hk
    rw [hget] at ht
    exact ⟨t, ⟨r, t₁, tr₁, ht₁, rfl, ht⟩, hset s t₁ t⟩

/-- What no call of the program changes is what it was at the end of a run. -/
theorem Calls.keeps {sem : Sem σ S} {P : σ.Op → Prop} {p : Prog σ α} (hp : p.Calls P)
    (f : S → β) (hstep : ∀ s o r s', P o → sem s o r s' → f s' = f s) {s s' : S}
    {tr : List (Event σ)} {a : α} (he : Exec sem p s tr s' a) : f s' = f s :=
  hp.invariant (I := fun t => f t = f s)
    (fun t o r t' ht ho hs => (hstep t o r t' ho hs).trans ht) rfl he

/-- Calls that a monitor allows without moving. -/
theorem Calls.obeys {P : σ.Op → Prop} {p : Prog σ α} (hp : p.Calls P) {q : Q}
    (hallows : ∀ o, P o → M.allows q o) (hnext : ∀ o r, P o → M.next q o r = q) :
    p.Obeys M (fun q' _ => q' = q) q := by
  induction p with
  | done a => rfl
  | call o k ih =>
    refine ⟨hallows o hp.1, fun r => ?_⟩
    rw [hnext o r hp.1]
    exact ih r (hp.2 r)

/-- Calls that a monitor allows in the states it then stays in. -/
theorem Calls.obeys_invariant {P : σ.Op → Prop} {I : Q → Prop}
    (hallows : ∀ q o, I q → P o → M.allows q o)
    (hnext : ∀ q o r, I q → P o → I (M.next q o r)) {p : Prog σ α} (hp : p.Calls P) {q : Q}
    (hq : I q) : p.Obeys M (fun q' _ => I q') q := by
  induction p generalizing q with
  | done a => exact hq
  | call o k ih => exact ⟨hallows q o hq hp.1, fun r => ih r (hp.2 r) (hnext q o r hq hp.1)⟩

/-- What a monitor always asks of a call is true of every call. -/
theorem Obeys.calls {P : σ.Op → Prop} (hP : ∀ q o, M.allows q o → P o) {Φ : Q → α → Prop}
    {p : Prog σ α} {q : Q} (hp : Obeys M Φ q p) : p.Calls P := by
  induction p generalizing q with
  | done a => trivial
  | call o k ih => exact ⟨hP q o hp.1, fun r => ih r (hp.2 r)⟩

theorem calls_of_forall {P : σ.Op → Prop} (h : ∀ o, P o) (p : Prog σ α) : p.Calls P := by
  induction p with
  | done a => trivial
  | call o k ih => exact ⟨h o, ih⟩

/-- What every call keeps, a run keeps. -/
theorem Exec.invariant {sem : Sem σ S} {I : S → Prop}
    (hstep : ∀ s o r s', I s → sem s o r s' → I s') {p : Prog σ α} {s s' : S}
    {tr : List (Event σ)} {a : α} (hI : I s) (he : Exec sem p s tr s' a) : I s' :=
  (calls_of_forall (P := fun _ => True) (fun _ => trivial) p).invariant
    (fun s o r s' hs _ => hstep s o r s' hs) hI he

/-- What no call changes, no run changes. -/
theorem Exec.keeps {sem : Sem σ S} {p : Prog σ α} {s s' : S} {tr : List (Event σ)} {a : α}
    (he : Exec sem p s tr s' a) (f : S → β) (hstep : ∀ s o r s', sem s o r s' → f s' = f s) :
    f s' = f s :=
  Exec.invariant (I := fun t => f t = f s)
    (fun t o r t' ht hs => (hstep t o r t' hs).trans ht) rfl he

/-! ## Runs within a relation

What a program may do to the state, as a relation between the ends of its
runs. Where the relation is a preorder, a program is within it as soon as its
parts are. -/

/-- Every run of the program relates the state it starts in to the state it
ends in. An invariant speaks of one state; this can also say what stays as it
was. -/
def Within (sem : Sem σ S) (R : S → S → Prop) (p : Prog σ α) : Prop :=
  ∀ s tr s' a, Exec sem p s tr s' a → R s s'

section Within

variable {sem : Sem σ S} {R : S → S → Prop} [Std.Refl R] [IsTrans S R] {ε ε' : Type}

omit [Std.Refl R] in
theorem Within.bind {p : Prog σ α} {f : α → Prog σ β} (hp : Within sem R p)
    (hf : ∀ a, Within sem R (f a)) : Within sem R (p >>= f) := by
  intro s tr s' b h
  obtain ⟨a, s₁, tr₁, tr₂, -, h₁, h₂⟩ := exec_bind.mp h
  exact trans_of R (hp s tr₁ s₁ a h₁) (hf a s₁ tr₂ s' b h₂)

omit [IsTrans S R] in
theorem Within.done (a : α) : Within sem R (done a) := by
  rintro s tr s' b ⟨-, rfl, -⟩
  exact refl_of R _

theorem Within.bind_except {x : ExceptT ε (Prog σ) α} {f : α → ExceptT ε (Prog σ) β}
    (hx : Within sem R x.run) (hf : ∀ a, Within sem R (f a).run) :
    Within sem R (x >>= f).run := by
  rw [ExceptT.run_bind]
  refine Within.bind hx fun r => ?_
  cases r with
  | error e => exact Within.done _
  | ok a => exact hf a

omit [Std.Refl R] in
/-- The same, where the second part is looked at for the results the first one
can have. -/
theorem Within.bind_results {x : ExceptT ε (Prog σ) α} {f : α → ExceptT ε (Prog σ) β}
    (hx : Within sem R x.run)
    (hf : ∀ s tr s' a, Exec sem x.run s tr s' (.ok a) → Within sem R (f a).run) :
    Within sem R (x >>= f).run := by
  intro s tr s' b h
  rcases exec_bind_except.mp h with ⟨e, h₁, -⟩ | ⟨a, s₁, tr₁, tr₂, -, h₁, h₂⟩
  · exact hx _ _ _ _ h₁
  · exact trans_of R (hx _ _ _ _ h₁) (hf _ _ _ a h₁ _ _ _ _ h₂)

theorem Within.lift_bind {p : Prog σ α} {f : α → ExceptT ε (Prog σ) β} (hp : Within sem R p)
    (hf : ∀ a, Within sem R (f a).run) : Within sem R (ExceptT.lift p >>= f).run := by
  refine Within.bind_except ?_ hf
  rw [ExceptT.run_lift, map_eq_pure_bind]
  exact Within.bind hp fun a => Within.done _

omit [Std.Refl R] in
theorem Within.lift_bind_results {p : Prog σ α} {f : α → ExceptT ε (Prog σ) β}
    (hp : Within sem R p)
    (hf : ∀ s tr s' a, Exec sem p s tr s' a → Within sem R (f a).run) :
    Within sem R (ExceptT.lift p >>= f).run := by
  intro s tr s' b h
  obtain ⟨a, s₁, tr₁, tr₂, -, h₁, h₂⟩ := exec_lift_bind.mp h
  exact trans_of R (hp _ _ _ _ h₁) (hf _ _ _ a h₁ _ _ _ _ h₂)

/-- A program is within a relation when its calls are. -/
theorem Calls.within {P : σ.Op → Prop} {p : Prog σ α} (hp : p.Calls P)
    (hstep : ∀ s o r s', P o → sem s o r s' → R s s') : Within sem R p :=
  fun s _ _ _ h => hp.invariant (I := fun t => R s t)
    (fun _ _ _ _ ht ho hs => trans_of R ht (hstep _ _ _ _ ho hs)) (refl_of R s) h

end Within

/-! ## Implementing one signature in another -/

/-- **Implementation**: every call of the program is replaced by a program
that computes its answer over another signature. The layers of a program are
put together this way: the upper one is written against an interface, the
lower one carries the calls of the interface out. -/
def interp (f : (o : σ.Op) → Prog τ (σ.Ans o)) : Prog σ α → Prog τ α
  | done a => done a
  | call o k => f o >>= fun r => (k r).interp f

theorem interp_bind {f : (o : σ.Op) → Prog τ (σ.Ans o)} (p : Prog σ α) (k : α → Prog σ β) :
    (p >>= k).interp f = p.interp f >>= fun a => (k a).interp f := by
  induction p with
  | done a => rfl
  | call o k' ih =>
    show (f o >>= fun r => (k' r >>= k).interp f) = _
    simp only [ih]
    exact (bind_assoc (f o) _ _).symm

/-- What a signature means when its calls are implemented: an answer is the
result of a run of the implementation. -/
def semVia (f : (o : σ.Op) → Prog τ (σ.Ans o)) (sem : Sem τ S) : Sem σ S :=
  fun s o r s' => ∃ tr, Exec sem (f o) s tr s' r

/-- **A run of an implemented program is a run of the program**, against what
its calls mean when implemented. So the upper layer can be looked at on its
own, and what is proved there holds of the whole. -/
theorem exec_interp {f : (o : σ.Op) → Prog τ (σ.Ans o)} {sem : Sem τ S}
    {p : Prog σ α} {s s' : S} {a : α} :
    (∃ tr, Exec sem (p.interp f) s tr s' a) ↔ ∃ tr, Exec (semVia f sem) p s tr s' a := by
  induction p generalizing s with
  | done b => exact ⟨fun ⟨tr, h⟩ => ⟨[], rfl, h.2⟩, fun ⟨tr, h⟩ => ⟨[], rfl, h.2⟩⟩
  | call o k ih =>
    constructor
    · rintro ⟨tr, h⟩
      obtain ⟨r, s₁, tr₁, tr₂, -, h₁, h₂⟩ := exec_bind.mp h
      obtain ⟨tr₃, h₃⟩ := (ih r).mp ⟨tr₂, h₂⟩
      exact ⟨⟨o, r⟩ :: tr₃, r, s₁, tr₃, ⟨tr₁, h₁⟩, rfl, h₃⟩
    · rintro ⟨tr, r, s₁, tr₁, ⟨tr₂, h₁⟩, -, h₂⟩
      obtain ⟨tr₃, h₃⟩ := (ih r).mpr ⟨tr₁, h₂⟩
      exact ⟨tr₂ ++ tr₃, exec_bind.mpr ⟨r, s₁, tr₂, tr₃, rfl, h₁, h₃⟩⟩

section Part

variable {T : Type} {f : (o : σ.Op) → Prog τ (σ.Ans o)} {sem : Sem τ S} {sem' : Sem σ T}
  {ev : Event σ → Event τ}

/-- **A run of an implemented program, where each call is one call on a part
of the state.** `At` says what the part is, where there is one, and `set`
puts another in its place; `ev` is a call as the call it becomes. -/
theorem exec_interp_at (At : S → T → Prop) (set : S → T → S) (hat : ∀ s t, At (set s t) t)
    (hset : ∀ s t t', set (set s t) t' = set s t') (hself : ∀ s t, At s t → set s t = s)
    (hf : ∀ s t o r tr s', At s t → (Exec sem (f o) s tr s' r ↔
      ∃ t', sem' t o r t' ∧ tr = [ev ⟨o, r⟩] ∧ s' = set s t'))
    {p : Prog σ α} {s s' : S} {t : T} {tr : List (Event τ)} {a : α} (hs : At s t) :
    Exec sem (p.interp f) s tr s' a ↔
      ∃ tr' t', Exec sem' p t tr' t' a ∧ tr = tr'.map ev ∧ s' = set s t' := by
  induction p generalizing s t tr with
  | done b =>
    constructor
    · rintro ⟨rfl, rfl, rfl⟩
      exact ⟨[], t, ⟨rfl, rfl, rfl⟩, rfl, (hself _ _ hs).symm⟩
    · rintro ⟨_, _, ⟨rfl, rfl, rfl⟩, rfl, rfl⟩
      exact ⟨rfl, hself _ _ hs, rfl⟩
  | call o k ih =>
    constructor
    · intro h
      obtain ⟨r, s₁, tr₁, tr₂, rfl, h₁, h₂⟩ := exec_bind.mp h
      obtain ⟨t₁, ht, rfl, rfl⟩ := (hf s t o r tr₁ s₁ hs).mp h₁
      obtain ⟨tr', t', h₃, rfl, rfl⟩ := (ih r (hat s t₁)).mp h₂
      exact ⟨⟨o, r⟩ :: tr', t', ⟨r, t₁, tr', ht, rfl, h₃⟩, rfl, hset s t₁ t'⟩
    · rintro ⟨_, t', ⟨r, t₁, tr', ht, rfl, h₃⟩, rfl, rfl⟩
      exact exec_bind.mpr ⟨r, set s t₁, [ev ⟨o, r⟩], tr'.map ev, rfl,
        (hf s t o r _ _ hs).mpr ⟨t₁, ht, rfl, rfl⟩,
        (ih r (hat s t₁)).mpr ⟨tr', t', h₃, rfl, (hset s t₁ t').symm⟩⟩

/-- The same where every state has the part. -/
theorem exec_interp_part (get : S → T) (set : S → T → S)
    (hget : ∀ s t, get (set s t) = t) (hset : ∀ s t t', set (set s t) t' = set s t')
    (hself : ∀ s, set s (get s) = s)
    (hf : ∀ s o r tr s', Exec sem (f o) s tr s' r ↔
      ∃ t, sem' (get s) o r t ∧ tr = [ev ⟨o, r⟩] ∧ s' = set s t)
    {p : Prog σ α} {s s' : S} {tr : List (Event τ)} {a : α} :
    Exec sem (p.interp f) s tr s' a ↔
      ∃ tr' t, Exec sem' p (get s) tr' t a ∧ tr = tr'.map ev ∧ s' = set s t := by
  refine exec_interp_at (fun s t => get s = t) set hget hset ?_ ?_ rfl
  · rintro s _ rfl
    exact hself s
  · rintro s _ o r tr s' rfl
    exact hf s o r tr s'

/-- An implemented program yields what the program yields on the part. -/
theorem Yields.interp_at (ev : Event σ → Event τ) (set : S → T → S) {p : Prog σ α} {s : S}
    {t t' : T} {a : α}
    (hp : ∀ tr s' b, Exec sem (p.interp f) s tr s' b ↔
      ∃ tr' t', Exec sem' p t tr' t' b ∧ tr = tr'.map ev ∧ s' = set s t')
    (h : Yields sem' p t t' a) : Yields sem (p.interp f) s (set s t') a := by
  obtain ⟨tr, hrun⟩ := h.run
  refine ⟨⟨_, (hp _ _ _).mpr ⟨tr, t', hrun, rfl, rfl⟩⟩, fun tr₁ s₁ b h₁ => ?_⟩
  obtain ⟨_, t₁, h₂, -, rfl⟩ := (hp _ _ _).mp h₁
  obtain ⟨rfl, rfl⟩ := h.only _ _ _ h₂
  exact ⟨rfl, rfl⟩

end Part

/-- **Obeying, through an implementation.** `T` relates the monitor of the
calls to the monitor of what they are implemented with. -/
theorem Obeys.interp {Q' : Type} {M' : Monitor τ Q'} {T : Q → Q' → Prop}
    {f : (o : σ.Op) → Prog τ (σ.Ans o)}
    (hf : ∀ q q' o, T q q' → M.allows q o →
      (f o).Obeys M' (fun q'' r => T (M.next q o r) q'') q')
    {Φ : Q → α → Prop} {p : Prog σ α} {q : Q} (hp : p.Obeys M Φ q) {q' : Q'} (hT : T q q') :
    (p.interp f).Obeys M' (fun q'' a => ∃ q, T q q'' ∧ Φ q a) q' := by
  induction p generalizing q q' with
  | done a => exact ⟨q, hT, hp⟩
  | call o k ih =>
    exact obeys_bind.mpr ((hf q q' o hT hp.1).mono fun q'' r hT' => ih r (hp.2 r) hT')

/-- **Runs of an implemented program that obeys a monitor**, on events that
are assumed: what the run of each allowed call keeps, and what is true of its
events, the whole run keeps and is true of all events. -/
theorem Obeys.interp_exec {f : (o : σ.Op) → Prog τ (σ.Ans o)} {sem : Sem τ S}
    {R : Q → S → Prop} {H G : Event τ → Prop}
    (hstep : ∀ q s o tr r s', R q s → M.allows q o → (∀ ev ∈ tr, H ev) →
      Exec sem (f o) s tr s' r → R (M.next q o r) s' ∧ ∀ ev ∈ tr, G ev)
    {Φ : Q → α → Prop} {p : Prog σ α} {q : Q} (hp : p.Obeys M Φ q) {s s' : S}
    {tr : List (Event τ)} {a : α} (hR : R q s) (hH : ∀ ev ∈ tr, H ev)
    (he : Exec sem (p.interp f) s tr s' a) :
    (∃ q', R q' s' ∧ Φ q' a) ∧ ∀ ev ∈ tr, G ev := by
  induction p generalizing q s tr with
  | done b =>
    obtain ⟨rfl, rfl, rfl⟩ := he
    exact ⟨⟨q, hR, hp⟩, nofun⟩
  | call o k ih =>
    obtain ⟨r, s₁, tr₁, tr₂, rfl, h₁, h₂⟩ := exec_bind.mp he
    obtain ⟨hH₁, hH₂⟩ := List.forall_mem_append.mp hH
    obtain ⟨hR₁, hG₁⟩ := hstep q s o tr₁ r s₁ hR hp.1 hH₁ h₁
    obtain ⟨hΦ, hG₂⟩ := ih r (hp.2 r) hR₁ hH₂ h₂
    exact ⟨hΦ, List.forall_mem_append.mpr ⟨hG₁, hG₂⟩⟩

theorem Calls.interp {f : (o : σ.Op) → Prog τ (σ.Ans o)} {P : σ.Op → Prop} {P' : τ.Op → Prop}
    {p : Prog σ α} (hp : p.Calls P) (hf : ∀ o, P o → (f o).Calls P') : (p.interp f).Calls P' := by
  induction p with
  | done a => trivial
  | call o k ih => exact Calls.bind (hf o hp.1) fun r => ih r (hp.2 r)

end Prog

/-! ## Step by step

Runs of a system whose steps carry a label: what is of interest in a step. -/

/-- **A run**, with the labels of its steps. It grows at its end: what a
result asks of a step usually refers to the steps before it. -/
inductive Run {S L : Type} (step : S → L → S → Prop) : S → List L → S → Prop where
  | nil (s : S) : Run step s [] s
  | snoc {s s₁ s₂ : S} {ls : List L} {l : L} (h : Run step s ls s₁) (hstep : step s₁ l s₂) :
      Run step s (ls ++ [l]) s₂

namespace Run

variable {S L : Type} {step : S → L → S → Prop} {s s' : S} {ls : List L}

/-- **What every step keeps, and what it then has, a run keeps and has at
every step.** A result over whole runs is a step lemma, `hstep`, and this. -/
theorem forall_mem {I : S → Prop} {P : L → Prop}
    (hstep : ∀ s l s', I s → step s l s' → I s' ∧ P l) (h : Run step s ls s') (hs : I s) :
    I s' ∧ ∀ l ∈ ls, P l := by
  induction h with
  | nil => exact ⟨hs, nofun⟩
  | snoc _ hlast ih =>
    obtain ⟨hI, hP⟩ := hstep _ _ _ ih.1 hlast
    refine ⟨hI, List.forall_mem_append.mpr ⟨ih.2, ?_⟩⟩
    rw [List.forall_mem_singleton]
    exact hP

/-- The steps of a run come from its states. -/
theorem exists_step (h : Run step s ls s') {l : L} (hl : l ∈ ls) :
    ∃ s₁ s₂, step s₁ l s₂ :=
  (h.forall_mem (I := fun _ => True) (P := fun l => ∃ s₁ s₂, step s₁ l s₂)
    (fun s₁ _ s₂ _ hstep => ⟨trivial, s₁, s₂, hstep⟩) trivial).2 l hl

end Run

end Interaction
