import LibvirtProvider.Interaction

/-!
# What a program ensures

Where the environment leaves something open – an image that is read back, an
identifier that is made up – a program has no single outcome, and what it is
good for is a property of all of them: it has a run, and each of its runs ends
with the property. `Prog.Yields` is the case of one outcome.

The rules follow the program. For a program that can fail, `Prog.Succeeds`
says that it does not.
-/

namespace Interaction

namespace Prog

variable {σ τ : Signature} {α β S T ε ε' : Type}

/-- **A program ensures `Q`** in a state: it has a run, and each ends with
`Q`. That it has a run is part of it, so that nothing is ensured by a program
that hangs. -/
structure Ensures (sem : Sem σ S) (p : Prog σ α) (s : S) (Q : S → α → Prop) : Prop where
  run : ∃ tr s' a, Exec sem p s tr s' a
  all : ∀ tr s' a, Exec sem p s tr s' a → Q s' a

/-- **A program that can fail does not**, and ensures `Q` of its result. Total
correctness for code that returns errors: the result is produced, and it is
not an error. -/
def Succeeds (sem : Sem σ S) (x : ExceptT ε (Prog σ) α) (s : S) (Q : S → α → Prop) : Prop :=
  Ensures sem x.run s fun s' r => ∃ a, r = .ok a ∧ Q s' a

section Rules

variable {sem : Sem σ S} {s s' : S}

theorem Ensures.mono {p : Prog σ α} {Q Q' : S → α → Prop} (h : Ensures sem p s Q)
    (hQ : ∀ s' a, Q s' a → Q' s' a) : Ensures sem p s Q' :=
  ⟨h.run, fun tr s' a he => hQ s' a (h.all tr s' a he)⟩

/-- What is known of all runs may be added. -/
theorem Ensures.and_exec {p : Prog σ α} {Q Q' : S → α → Prop} (h : Ensures sem p s Q)
    (hQ' : ∀ tr s' a, Exec sem p s tr s' a → Q' s' a) :
    Ensures sem p s fun s' a => Q s' a ∧ Q' s' a :=
  ⟨h.run, fun tr s' a he => ⟨h.all tr s' a he, hQ' tr s' a he⟩⟩

/-- Where its calls have an answer in every state, a program has a run. This
is the first half of `Ensures`, from the calls alone. -/
theorem Calls.exists_exec {P : σ.Op → Prop} {p : Prog σ α} (hp : p.Calls P)
    (htotal : ∀ s o, P o → ∃ r s', sem s o r s') (s : S) : ∃ tr s' a, Exec sem p s tr s' a := by
  induction p generalizing s with
  | done a => exact ⟨[], s, a, rfl, rfl, rfl⟩
  | call o k ih =>
    obtain ⟨r, s₁, hs⟩ := htotal s o hp.1
    obtain ⟨tr, s', a, he⟩ := ih r (hp.2 r) s₁
    exact ⟨⟨o, r⟩ :: tr, s', a, r, s₁, tr, hs, rfl, he⟩

theorem Ensures.done {a : α} {Q : S → α → Prop} (h : Q s a) : Ensures sem (done a) s Q :=
  ⟨⟨[], s, a, rfl, rfl, rfl⟩, fun _ _ _ he => he.2.1 ▸ he.2.2 ▸ h⟩

theorem Ensures.perform {o : σ.Op} {Q : S → σ.Ans o → Prop} (hrun : ∃ r s', sem s o r s')
    (hall : ∀ r s', sem s o r s' → Q s' r) : Ensures sem (perform o) s Q := by
  obtain ⟨r, s', hs⟩ := hrun
  exact ⟨⟨_, s', r, exec_perform.mpr ⟨hs, rfl⟩⟩, fun _ t b he => hall b t (exec_perform.mp he).1⟩

theorem Ensures.bind {p : Prog σ α} {f : α → Prog σ β} {Q : S → α → Prop} {Q' : S → β → Prop}
    (hp : Ensures sem p s Q) (hf : ∀ s₁ a, Q s₁ a → Ensures sem (f a) s₁ Q') :
    Ensures sem (p >>= f) s Q' := by
  obtain ⟨tr₁, s₁, a, h₁⟩ := hp.run
  obtain ⟨tr₂, s₂, b, h₂⟩ := (hf s₁ a (hp.all _ _ _ h₁)).run
  refine ⟨⟨tr₁ ++ tr₂, s₂, b, exec_bind.mpr ⟨a, s₁, tr₁, tr₂, rfl, h₁, h₂⟩⟩, fun tr t c h => ?_⟩
  obtain ⟨a', t₁, tr₃, tr₄, -, h₃, h₄⟩ := exec_bind.mp h
  exact (hf t₁ a' (hp.all _ _ _ h₃)).all _ _ _ h₄

/-- After a part with one outcome. -/
theorem Ensures.bind_yields {p : Prog σ α} {f : α → Prog σ β} {a : α} {Q : S → β → Prop}
    (hp : Yields sem p s s' a) (hf : Ensures sem (f a) s' Q) : Ensures sem (p >>= f) s Q := by
  obtain ⟨tr₁, h₁⟩ := hp.run
  obtain ⟨tr₂, t, b, h₂⟩ := hf.run
  refine ⟨⟨tr₁ ++ tr₂, t, b, exec_bind.mpr ⟨a, s', tr₁, tr₂, rfl, h₁, h₂⟩⟩, fun tr t c h => ?_⟩
  obtain ⟨a', t₁, tr₃, tr₄, -, h₃, h₄⟩ := exec_bind.mp h
  obtain ⟨rfl, rfl⟩ := hp.only _ _ _ h₃
  exact hf.all _ _ _ h₄

/-- One outcome is a property of the outcomes. -/
theorem Yields.ensures {p : Prog σ α} {a : α} {Q : S → α → Prop} (h : Yields sem p s s' a)
    (hQ : Q s' a) : Ensures sem p s Q := by
  obtain ⟨tr, hrun⟩ := h.run
  refine ⟨⟨tr, s', a, hrun⟩, fun tr t b he => ?_⟩
  obtain ⟨rfl, rfl⟩ := h.only tr t b he
  exact hQ

theorem Yields.succeeds {x : ExceptT ε (Prog σ) α} {a : α} {t : S} {Q : S → α → Prop}
    (h : Yields sem x.run s t (.ok a)) (hQ : Q t a) : Succeeds sem x s Q :=
  h.ensures ⟨a, rfl, hQ⟩

/-! ### Programs that can fail -/

theorem Ensures.bind_ok {x : ExceptT ε (Prog σ) α} {f : α → ExceptT ε (Prog σ) β} {a : α}
    {Q : S → Except ε β → Prop} (hx : Yields sem x.run s s' (.ok a))
    (hf : Ensures sem (f a).run s' Q) : Ensures sem (x >>= f).run s Q := by
  rw [ExceptT.run_bind]
  exact .bind_yields hx hf

theorem Succeeds.pure {a : α} {Q : S → α → Prop} (h : Q s a) :
    Succeeds sem (pure a : ExceptT ε (Prog σ) α) s Q :=
  Ensures.done ⟨a, rfl, h⟩

theorem Succeeds.bind {x : ExceptT ε (Prog σ) α} {f : α → ExceptT ε (Prog σ) β}
    {Q : S → α → Prop} {Q' : S → β → Prop} (hx : Succeeds sem x s Q)
    (hf : ∀ s₁ a, Q s₁ a → Succeeds sem (f a) s₁ Q') : Succeeds sem (x >>= f) s Q' := by
  unfold Succeeds
  rw [ExceptT.run_bind]
  refine Ensures.bind hx fun s₁ r hr => ?_
  obtain ⟨a, rfl, ha⟩ := hr
  exact hf s₁ a ha

/-- The result is looked at, whatever it is. -/
theorem Succeeds.lift_bind {p : Prog σ α} {f : α → ExceptT ε (Prog σ) β} {Q : S → α → Prop}
    {Q' : S → β → Prop} (hp : Ensures sem p s Q)
    (hf : ∀ s₁ a, Q s₁ a → Succeeds sem (f a) s₁ Q') :
    Succeeds sem (ExceptT.lift p >>= f) s Q' := by
  have hlift : Succeeds sem (ExceptT.lift p : ExceptT ε (Prog σ) α) s Q := by
    unfold Succeeds
    rw [ExceptT.run_lift, map_eq_pure_bind]
    exact hp.bind fun s₁ a ha => .done ⟨a, rfl, ha⟩
  exact hlift.bind hf

theorem Succeeds.adapt {x : ExceptT ε (Prog σ) α} (f : ε → ε') {Q : S → α → Prop}
    (hx : Succeeds sem x s Q) : Succeeds sem (ExceptT.adapt f x) s Q := by
  refine Ensures.bind hx fun s₁ r hr => ?_
  obtain ⟨a, rfl, ha⟩ := hr
  exact .done ⟨a, rfl, ha⟩

end Rules

/-! ### Running a program again -/

/-- A program, and the given number of times again. A controller that is asked
to try again runs its program like this, each time on the state the last one
left. -/
def repeated (p : Prog σ α) : ℕ → Prog σ α
  | 0 => p
  | n + 1 => p >>= fun _ => p.repeated n

theorem interp_repeated (f : (o : σ.Op) → Prog τ (σ.Ans o)) (p : Prog σ α) (n : ℕ) :
    (p.repeated n).interp f = (p.interp f).repeated n := by
  induction n with
  | zero => rfl
  | succ n ih =>
    show (p >>= fun _ => p.repeated n).interp f = p.interp f >>= fun _ => (p.interp f).repeated n
    rw [interp_bind, ih]

/-- **What each run keeps and ensures**, the last one ensures. `A` carries the
induction over the rounds: it is what a round finds and leaves. -/
theorem Ensures.repeated {sem : Sem σ S} {p : Prog σ α} {A : S → Prop} {Q : S → α → Prop}
    (hstep : ∀ s, A s → Ensures sem p s fun s' a => A s' ∧ Q s' a) (n : ℕ) {s : S} (hs : A s) :
    Ensures sem (p.repeated n) s Q := by
  induction n generalizing s with
  | zero => exact (hstep s hs).mono fun _ _ => And.right
  | succ n ih => exact (hstep s hs).bind fun s₁ _ h => ih h.1

/-! ### Implementing one signature in another -/

/-- A program ensures what it ensures with the calls implemented. -/
theorem ensures_interp {f : (o : σ.Op) → Prog τ (σ.Ans o)} {sem : Sem τ S} {p : Prog σ α} {s : S}
    {Q : S → α → Prop} : Ensures sem (p.interp f) s Q ↔ Ensures (semVia f sem) p s Q := by
  have hexec (s' : S) (a : α) :
      (∃ tr, Exec sem (p.interp f) s tr s' a) ↔ ∃ tr, Exec (semVia f sem) p s tr s' a :=
    exec_interp
  constructor
  · rintro ⟨⟨tr, s', a, h⟩, hall⟩
    obtain ⟨tr', h'⟩ := (hexec s' a).mp ⟨tr, h⟩
    refine ⟨⟨tr', s', a, h'⟩, fun tr t b he => ?_⟩
    obtain ⟨tr₁, h₁⟩ := (hexec t b).mpr ⟨tr, he⟩
    exact hall tr₁ t b h₁
  · rintro ⟨⟨tr, s', a, h⟩, hall⟩
    obtain ⟨tr', h'⟩ := (hexec s' a).mpr ⟨tr, h⟩
    refine ⟨⟨tr', s', a, h'⟩, fun tr t b he => ?_⟩
    obtain ⟨tr₁, h₁⟩ := (hexec t b).mp ⟨tr, he⟩
    exact hall tr₁ t b h₁

/-- **On a part of the state**, a program ensures what it ensures there. -/
theorem Ensures.interp_at (ev : Event σ → Event τ) (set : S → T → S)
    {f : (o : σ.Op) → Prog τ (σ.Ans o)} {semS : Sem τ S} {semT : Sem σ T} {p : Prog σ α} {s : S}
    {t : T} {Q : T → α → Prop}
    (hiff : ∀ tr s' b, Exec semS (p.interp f) s tr s' b ↔
      ∃ tr' t', Exec semT p t tr' t' b ∧ tr = tr'.map ev ∧ s' = set s t')
    (h : Ensures semT p t Q) :
    Ensures semS (p.interp f) s fun s' a => ∃ t', Q t' a ∧ s' = set s t' := by
  obtain ⟨tr, t', a, hrun⟩ := h.run
  refine ⟨⟨tr.map ev, set s t', a, (hiff _ _ _).mpr ⟨tr, t', hrun, rfl, rfl⟩⟩, fun _ s' b he => ?_⟩
  obtain ⟨tr', t', he', -, rfl⟩ := (hiff _ _ _).mp he
  exact ⟨t', h.all _ _ _ he', rfl⟩

end Prog

end Interaction
