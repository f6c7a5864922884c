import LibvirtProvider.Interaction

/-!
# Work queues

A controller has one program for an object and runs it whenever the object is
due: after every change of the object, whoever made it, after a pass that asks
to be repeated, and whenever else something wakes it. A change that happens
during a pass makes the object due again when the pass is over.

What is left is what nobody wakes: an object that is not due. Its last pass
did not ask to be repeated, and the object has not changed since that pass
began. So what holds of the object after such a pass holds whenever it is not
due (`QueueStep.rest`).
-/

namespace Interaction

variable {σ : Signature} {S O R : Type} [DecidableEq O]

/-- **The calls of a pass**, with changes from outside before each, next to
whether the object has changed. A change counts whoever made it, the pass
included: what it writes itself wakes it again. -/
def noticed (env : S → S → Prop) (object : S → O) (sem : Sem σ S) : Sem σ (S × Bool) :=
  fun s o r s' => ∃ t, (t = s.1 ∨ env s.1 t) ∧ sem t o r s'.1
    ∧ s'.2 = (s.2 || decide (object t ≠ object s.1) || decide (object s'.1 ≠ object t))

/-- A call after which no change was noticed. -/
theorem noticed_quiet {env : S → S → Prop} {object : S → O} {sem : Sem σ S} {s s' : S × Bool}
    {o : σ.Op} {r : σ.Ans o} (h : noticed env object sem s o r s') (hs' : s'.2 = false) :
    s.2 = false ∧ object s'.1 = object s.1
      ∧ ∃ t, object t = object s.1 ∧ object s'.1 = object t ∧ sem t o r s'.1 := by
  obtain ⟨t, -, hsem, hflag⟩ := h
  rw [hs', eq_comm, Bool.or_eq_false_iff, Bool.or_eq_false_iff] at hflag
  obtain ⟨⟨hs, ht⟩, ht'⟩ := hflag
  have ht := not_not.mp (of_decide_eq_false ht)
  have ht' := not_not.mp (of_decide_eq_false ht')
  exact ⟨hs, ht'.trans ht, t, ht, ht', hsem⟩

/-- **A pass in which no change was noticed** has one object before it all the
time: what its monitor knows of the object need only be carried over by calls
that leave it as it is. So a pass may be reasoned about as if nothing else
were running. -/
theorem Prog.Obeys.quiet {env : S → S → Prop} {object : S → O} {sem : Sem σ S} {Q : Type}
    {M : Monitor σ Q} {Φ : Q → R → Prop} {Knows : Q → O → Prop}
    {p : Prog σ R} {q : Q} (hp : p.Obeys M Φ q) {s s' : S} {tr : List (Event σ)} {a : R}
    (he : Prog.Exec (noticed env object sem) p (s, false) tr (s', false) a)
    (hs : Knows q (object s))
    (hstep : ∀ q t o r t', Knows q (object t) → M.allows q o → sem t o r t' →
      object t' = object t → Knows (M.next q o r) (object t')) :
    Knows (M.after q tr) (object s') ∧ Φ (M.after q tr) a := by
  have h := hp.exec_after (R := fun q s => s.2 = false → Knows q (object s.1)) ?_ (fun _ => hs) he
  · exact ⟨h.1 rfl, h.2⟩
  · intro q s o r s' hR hallows hsem hs'
    obtain ⟨hs, -, t, ht, ht', hsem⟩ := noticed_quiet hsem hs'
    exact hstep q t o r s'.1 (ht ▸ hR hs) hallows hsem ht'

/-- **What a monitor records comes from a call.** If it has recorded something
in the end that it had not at first, some call of the trace made the
difference. -/
theorem Monitor.exists_of_after {Q : Type} {M : Monitor σ Q} {P : Q → Prop} {q : Q}
    {tr : List (Event σ)} (hq : ¬P q) (h : P (M.after q tr)) :
    ∃ e ∈ tr, ∃ q, ¬P q ∧ P (M.next q e.1 e.2) := by
  induction tr generalizing q with
  | nil => exact absurd h hq
  | cons e tr ih =>
    by_cases hnext : P (M.next q e.1 e.2)
    · exact ⟨e, List.mem_cons_self, q, hq, hnext⟩
    · obtain ⟨e', he', hstep⟩ := ih hnext h
      exact ⟨e', List.mem_cons_of_mem _ he', hstep⟩

/-- **The queue of one object**: the state, whether the object is due, and the
calls of the last pass. The calls are kept because what holds of an object at
rest depends on what its last pass found. -/
structure Queue (σ : Signature) (S : Type) where
  state : S
  due : Bool
  last : List (Event σ)

/-- **One step of the queue**: a pass of the program, a change from outside,
or a reason to look again. The last one needs no reason: what is proved must
hold however rarely or often the object is woken without having changed. -/
inductive QueueStep (env : S → S → Prop) (object : S → O) (sem : Sem σ S) (prog : Prog σ R)
    (again : R → Bool) : Queue σ S → Queue σ S → Prop where
  | pass {s s' : S} {last tr : List (Event σ)} {changed : Bool} {a : R}
      (h : Prog.Exec (noticed env object sem) prog (s, false) tr (s', changed) a) :
      QueueStep env object sem prog again ⟨s, true, last⟩ ⟨s', changed || again a, tr⟩
  | outside {s s' : S} {due : Bool} {last : List (Event σ)} (h : env s s') :
      QueueStep env object sem prog again ⟨s, due, last⟩
        ⟨s', due || decide (object s' ≠ object s), last⟩
  | wake {s : S} {due : Bool} {last : List (Event σ)} :
      QueueStep env object sem prog again ⟨s, due, last⟩ ⟨s, true, last⟩

/-- **An object that is not due is at rest.** The hypothesis is about a single
pass that noticed no change and did not ask to be repeated; the conclusion is
about every state of every run, whatever happened outside. -/
theorem QueueStep.rest {env : S → S → Prop} {object : S → O} {sem : Sem σ S} {prog : Prog σ R}
    {again : R → Bool} {Rest : O → List (Event σ) → Prop}
    (hpass : ∀ s tr s' a, Prog.Exec (noticed env object sem) prog (s, false) tr (s', false) a →
      again a = false → Rest (object s') tr) {q₀ q : Queue σ S} (hdue : q₀.due = true)
    (h : Relation.ReflTransGen (QueueStep env object sem prog again) q₀ q) :
    q.due = false → Rest (object q.state) q.last := by
  induction h with
  | refl =>
    intro hq
    rw [hdue] at hq
    cases hq
  | tail _ hstep ih =>
    cases hstep with
    | pass h =>
      intro hq
      obtain ⟨rfl, hagain⟩ := Bool.or_eq_false_iff.mp hq
      exact hpass _ _ _ _ h hagain
    | outside _ =>
      intro hq
      obtain ⟨hq, hsame⟩ := Bool.or_eq_false_iff.mp hq
      have hsame := not_not.mp (of_decide_eq_false hsame)
      exact hsame.symm ▸ ih hq
    | wake => exact fun hq => (by cases hq)

/-- The calls of a pass on given choices, with nothing from outside. -/
def noticedStep {C : Type} (object : S → O) (step : S → (o : σ.Op) → C → Option (σ.Ans o × S))
    (s : S × Bool) (o : σ.Op) (c : C) : Option (σ.Ans o × S × Bool) :=
  (step s.1 o c).map fun r => (r.1, r.2, s.2 || decide (object r.2 ≠ object s.1))

/-- **A pass on given choices**, if the object is due. -/
def Queue.passOn {C : Type} (object : S → O) (step : S → (o : σ.Op) → C → Option (σ.Ans o × S))
    (prog : Prog σ R) (again : R → Bool) (dflt : C) (cs : List C) (q : Queue σ S) :
    Option (Queue σ S) :=
  if q.due then
    (Prog.runWith (noticedStep object step) dflt prog (q.state, false) cs).map fun r =>
      ⟨r.2.1.1, r.2.1.2 || again r.2.2, r.1⟩
  else none

theorem QueueStep.of_passOn {C : Type} {env : S → S → Prop} {object : S → O} {sem : Sem σ S}
    {step : S → (o : σ.Op) → C → Option (σ.Ans o × S)} {prog : Prog σ R}
    {again : R → Bool} {dflt : C} {cs : List C} {q q' : Queue σ S}
    (h : q.passOn object step prog again dflt cs = some q')
    (hstep : ∀ s o c r s', step s o c = some (r, s') → sem s o r s') :
    QueueStep env object sem prog again q q' := by
  obtain ⟨s, due, last⟩ := q
  unfold Queue.passOn at h
  split at h
  · rename_i hdue
    obtain ⟨⟨tr, ⟨s', changed⟩, a⟩, hrun, rfl⟩ := Option.map_eq_some_iff.mp h
    cases (hdue : due = true)
    refine .pass ((Prog.exec_of_runWith hrun).map (g := id) fun s o r s' hs => ?_)
    obtain ⟨c, hc⟩ := hs
    obtain ⟨x, hx, heq⟩ := Option.map_eq_some_iff.mp hc
    cases heq
    exact ⟨s.1, Or.inl rfl, hstep _ _ _ _ _ hx, by simp⟩
  · cases h

/-- A change from outside. -/
def Queue.edited (object : S → O) (f : S → S) (q : Queue σ S) : Queue σ S :=
  ⟨f q.state, q.due || decide (object (f q.state) ≠ object q.state), q.last⟩

theorem QueueStep.of_edited {env : S → S → Prop} {object : S → O} {sem : Sem σ S}
    {prog : Prog σ R} {again : R → Bool} {f : S → S} {q : Queue σ S}
    (h : env q.state (f q.state)) : QueueStep env object sem prog again q (q.edited object f) :=
  .outside h

end Interaction
