import LibvirtProvider.Interaction

/-!
# Programs running side by side

A pool holds one shared state and one program per client. In one step a
client makes its next call, or starts a new program once the last one is
over, or is cut off in the middle of one, or something outside the pool
changes the state. Every order of these steps is a run, so a program is
interleaved with the others, and with the environment, at each of its calls.

The proof principle is the one of `Prog.Obeys.exec`, with a monitor for each
client: a relation between the monitors' states and the shared state that
every allowed call, every start and every outside change carries over holds
along every run (`Pool.Monitored.reach`). A run can be restricted to those
whose calls meet a condition, the guard; that is how a result that holds only
of some runs says which.
-/

namespace Interaction

variable {ι S α Q : Type} {σ : Signature}

/-- **A pool**: a shared state, and what is left of each client's program. The
clients have no state of their own besides: what a client has learned is in
the program it has left to run. -/
structure Pool (ι S : Type) (σ : Signature) (α : Type) where
  /-- The shared state. -/
  state : S
  /-- What is left of each client's program. -/
  prog : ι → Prog σ α

/-- What happened in a step of a pool. Calls carry their answers, so that a
condition on a run can speak of what was done and whether it succeeded, and
not only of who moved. -/
inductive Label (ι : Type) (σ : Signature) where
  /-- A client made a call and got an answer. -/
  | call (i : ι) (ev : Event σ)
  /-- A client began a program. -/
  | start (i : ι)
  /-- A client was cut off in the middle of its program. -/
  | cut (i : ι)
  /-- Something outside the pool changed the state. -/
  | env

namespace Pool

variable [DecidableEq ι]

/-- **One step of a pool.** `menu` says which programs a client may start and
`env` what can happen outside the pool. A client can be cut off before any of
its calls and is then idle, as a process that is stopped and started again. -/
inductive Step (sem : Sem σ S) (menu : ι → Prog σ α → Prop) (env : S → S → Prop) :
    Pool ι S σ α → Label ι σ → Pool ι S σ α → Prop where
  | call {c : Pool ι S σ α} {i : ι} {o : σ.Op} {k : σ.Ans o → Prog σ α} {r : σ.Ans o}
      {s' : S} (hp : c.prog i = .call o k) (hs : sem c.state o r s') :
      Step sem menu env c (.call i ⟨o, r⟩) ⟨s', Function.update c.prog i (k r)⟩
  | start {c : Pool ι S σ α} {i : ι} {p : Prog σ α} {a : α} (hd : c.prog i = .done a)
      (hp : menu i p) :
      Step sem menu env c (.start i) ⟨c.state, Function.update c.prog i p⟩
  | cut {c : Pool ι S σ α} {i : ι} (a : α) :
      Step sem menu env c (.cut i) ⟨c.state, Function.update c.prog i (.done a)⟩
  | env {c : Pool ι S σ α} {s' : S} (hs : env c.state s') :
      Step sem menu env c .env ⟨s', c.prog⟩

/-- A step whose call, if it is one, meets the guard: a condition on the
state before the call, the call and its answer. -/
def GuardedStep (sem : Sem σ S) (menu : ι → Prog σ α → Prop) (env : S → S → Prop)
    (guard : S → Event σ → Prop) (c c' : Pool ι S σ α) : Prop :=
  ∃ l, Step sem menu env c l c' ∧ ∀ i ev, l = .call i ev → guard c.state ev

/-- **The runs of a pool** all of whose calls meet the guard. The guard sees
one call and the state it is made in; a condition on the order of the steps is
stated of the labels of a run instead (`Monitored.run`). -/
def Reach (sem : Sem σ S) (menu : ι → Prog σ α → Prop) (env : S → S → Prop)
    (guard : S → Event σ → Prop) : Pool ι S σ α → Pool ι S σ α → Prop :=
  Relation.ReflTransGen (GuardedStep sem menu env guard)

/-- What a pool keeps: the monitors are related to the state, and each
client's remaining program obeys its monitor from where that is. The relation
is about all monitors at once, so it can say that what one client knows is
still so after another one's call. -/
def Monitored (M : ι → Monitor σ Q) (R : (ι → Q) → S → Prop)
    (c : Pool ι S σ α) : Prop :=
  ∃ q, R q c.state ∧ ∀ i, (c.prog i).Obeys (M i) (fun _ _ => True) (q i)

section Monitored

variable {sem : Sem σ S} {menu : ι → Prog σ α → Prop} {env : S → S → Prop}
  {guard : S → Event σ → Prop} {M : ι → Monitor σ Q} {R : (ι → Q) → S → Prop}
  {c c' : Pool ι S σ α}

/-- Putting a program in place of a client's leaves the others obeying. -/
private theorem obeys_update {q : ι → Q} {i : ι} {qi : Q} {p : Prog σ α}
    (hp : p.Obeys (M i) (fun _ _ => True) qi)
    (h : ∀ j, (c.prog j).Obeys (M j) (fun _ _ => True) (q j)) (j : ι) :
    (Function.update c.prog i p j).Obeys (M j) (fun _ _ => True)
      (Function.update q i qi j) := by
  by_cases hj : j = i
  · subst hj
    rw [Function.update_self, Function.update_self]
    exact hp
  · rw [Function.update_of_ne hj, Function.update_of_ne hj]
    exact h j

/-- **One step of a monitored pool**, from one relation to another. The cases
are the ones of `Step`; that the relation may change is what a relation that
depends on the past needs. -/
theorem Monitored.labelled {R' : (ι → Q) → S → Prop} {l : Label ι σ} (q₀ : ι → Q)
    (hcall : ∀ q i o r s', l = .call i ⟨o, r⟩ → R q c.state → (M i).allows (q i) o →
      sem c.state o r s' → R' (Function.update q i ((M i).next (q i) o r)) s')
    (hstart : ∀ q i, l = .start i → R q c.state → R' (Function.update q i (q₀ i)) c.state)
    (hcut : ∀ q i, l = .cut i → R q c.state → R' q c.state)
    (hmenu : ∀ i p, menu i p → p.Obeys (M i) (fun _ _ => True) (q₀ i))
    (henv : ∀ q s', l = .env → R q c.state → env c.state s' → R' q s')
    (h : Monitored M R c) (hs : Step sem menu env c l c') : Monitored M R' c' := by
  obtain ⟨q, hR, hq⟩ := h
  cases hs with
  | @call i o k r s' hp hsem =>
    have hi := hq i
    rw [hp] at hi
    exact ⟨_, hcall q i o r s' rfl hR hi.1 hsem, obeys_update (hi.2 r) hq⟩
  | @start i p a hd hp => exact ⟨_, hstart q i rfl hR, obeys_update (hmenu i p hp) hq⟩
  | @cut i a =>
    have hdone : (Prog.done a : Prog σ α).Obeys (M i) (fun _ _ => True) (q i) := trivial
    have h := obeys_update hdone hq
    rw [Function.update_eq_self] at h
    exact ⟨q, hcut q i rfl hR, h⟩
  | env hs => exact ⟨q, henv q _ rfl hR hs, hq⟩

/-- **One step keeps the pool monitored.** -/
theorem Monitored.step (q₀ : ι → Q)
    (hcall : ∀ q s i o r s', R q s → (M i).allows (q i) o → sem s o r s' →
      guard s ⟨o, r⟩ → R (Function.update q i ((M i).next (q i) o r)) s')
    (hstart : ∀ q s i, R q s → R (Function.update q i (q₀ i)) s)
    (hmenu : ∀ i p, menu i p → p.Obeys (M i) (fun _ _ => True) (q₀ i))
    (henv : ∀ q s s', R q s → env s s' → R q s')
    (h : Monitored M R c) (hs : GuardedStep sem menu env guard c c') :
    Monitored M R c' := by
  obtain ⟨l, hl, hg⟩ := hs
  exact h.labelled q₀
    (fun q i o r s' hl hR ho hsem => hcall q c.state i o r s' hR ho hsem (hg i ⟨o, r⟩ hl))
    (fun q i _ hR => hstart q c.state i hR) (fun _ _ _ hR => hR) hmenu
    (fun q s' _ hR hs => henv q c.state s' hR hs) hl

/-- **A pool stays monitored along every run.** What has to be shown is about
single calls: that an allowed one carries the relation over, for the monitors
of all clients, whoever makes it. -/
theorem Monitored.reach (q₀ : ι → Q)
    (hcall : ∀ q s i o r s', R q s → (M i).allows (q i) o → sem s o r s' →
      guard s ⟨o, r⟩ → R (Function.update q i ((M i).next (q i) o r)) s')
    (hstart : ∀ q s i, R q s → R (Function.update q i (q₀ i)) s)
    (hmenu : ∀ i p, menu i p → p.Obeys (M i) (fun _ _ => True) (q₀ i))
    (henv : ∀ q s s', R q s → env s s' → R q s')
    (h : Monitored M R c) (hr : Reach sem menu env guard c c') : Monitored M R c' := by
  induction hr with
  | refl => exact h
  | tail _ hs ih => exact ih.step q₀ hcall hstart hmenu henv hs

/-- **Along a run whose steps are recorded**, the relation may depend on what has
happened so far. This is how a condition on the order of the steps is used. -/
theorem Monitored.run {R : List (Label ι σ) → (ι → Q) → S → Prop} {ls : List (Label ι σ)}
    (q₀ : ι → Q)
    (hcall : ∀ ls q s i o r s', R ls q s → (M i).allows (q i) o → sem s o r s' →
      R (ls ++ [.call i ⟨o, r⟩]) (Function.update q i ((M i).next (q i) o r)) s')
    (hstart : ∀ ls q s i, R ls q s → R (ls ++ [.start i]) (Function.update q i (q₀ i)) s)
    (hcut : ∀ ls q s i, R ls q s → R (ls ++ [.cut i]) q s)
    (hmenu : ∀ i p, menu i p → p.Obeys (M i) (fun _ _ => True) (q₀ i))
    (henv : ∀ ls q s s', R ls q s → env s s' → R (ls ++ [.env]) q s')
    (h : Monitored M (R []) c) (hr : Run (Step sem menu env) c ls c') :
    Monitored M (R ls) c' := by
  induction hr with
  | nil => exact h
  | snoc _ hs ih =>
    refine ih.labelled q₀ ?_ ?_ ?_ hmenu ?_ hs
    · rintro q i o r s' rfl hR ho hsem
      exact hcall _ q _ i o r s' hR ho hsem
    · rintro q i rfl hR
      exact hstart _ q _ i hR
    · rintro q i rfl hR
      exact hcut _ q _ i hR
    · rintro q s' rfl hR hs
      exact henv _ q _ s' hR hs

end Monitored

/-! ## A client on its own -/

section Exec

variable {sem : Sem σ S} {menu : ι → Prog σ α → Prop} {env : S → S → Prop}

/-- A run of what is left of a client's program is a run of the pool. -/
theorem reach_of_exec {p : Prog σ α} {s s' : S} {prog : ι → Prog σ α} {i : ι}
    (hp : prog i = p) {tr : List (Event σ)} {a : α} (he : Prog.Exec sem p s tr s' a) :
    Reach sem menu env (fun _ _ => True) ⟨s, prog⟩ ⟨s', Function.update prog i (.done a)⟩ := by
  induction p generalizing s tr prog with
  | done b =>
    obtain ⟨-, rfl, rfl⟩ := he
    rw [← hp, Function.update_eq_self]
    exact .refl
  | call o k ih =>
    obtain ⟨r, s₁, tr₁, hs, -, hk⟩ := he
    have hrest := ih r (Function.update_self i (k r) prog) hk
    rw [Function.update_idem] at hrest
    exact .head ⟨_, .call hp hs, fun _ _ _ => trivial⟩ hrest

/-- A client that is idle begins a program and runs it to its end. -/
theorem reach_of_start {p : Prog σ α} {s s' : S} {prog : ι → Prog σ α} {i : ι} {b : α}
    (hidle : prog i = .done b) (hp : menu i p) {tr : List (Event σ)} {a : α}
    (he : Prog.Exec sem p s tr s' a) :
    Reach sem menu env (fun _ _ => True) ⟨s, prog⟩ ⟨s', Function.update prog i (.done a)⟩ := by
  have hrun : Reach sem menu env (fun _ _ => True) ⟨s, Function.update prog i p⟩ _ :=
    reach_of_exec (Function.update_self i p prog) he
  rw [Function.update_idem] at hrun
  exact .head ⟨_, .start hidle hp, fun _ _ _ => trivial⟩ hrun

end Exec

/-! ## Playing a schedule

Where answers are computed from the state and a choice, a run is given by
who moves when. -/

section Play

variable {C : Type}

/-- One entry of a schedule: a client makes its next call and the environment
chooses, or a client begins a program. A concrete interleaving is a list of
these, and is evaluated. -/
inductive Move (ι C : Type) (σ : Signature) (α : Type) where
  | call (i : ι) (c : C)
  | start (i : ι) (p : Prog σ α)

/-- One entry of a schedule; `none` where it is not possible. -/
def move (h : S → (o : σ.Op) → C → Option (σ.Ans o × S)) (c : Pool ι S σ α) :
    Move ι C σ α → Option (Label ι σ × Pool ι S σ α)
  | .call i x =>
    match c.prog i with
    | .done _ => none
    | .call o k => (h c.state o x).map fun (r, s') =>
      (.call i ⟨o, r⟩, ⟨s', Function.update c.prog i (k r)⟩)
  | .start i p =>
    match c.prog i with
    | .done _ => some (.start i, ⟨c.state, Function.update c.prog i p⟩)
    | .call _ _ => none

/-- Play a schedule, and record what happens. The labels are those of the run,
so a condition on the order of the steps can be evaluated as well. -/
def record (h : S → (o : σ.Op) → C → Option (σ.Ans o × S)) :
    List (Label ι σ) × Pool ι S σ α → List (Move ι C σ α) →
      Option (List (Label ι σ) × Pool ι S σ α)
  | x, [] => some x
  | (ls, c), m :: ms => (move h c m).bind fun (l, c') => record h (ls ++ [l], c') ms

/-- Play a schedule. -/
def play (h : S → (o : σ.Op) → C → Option (σ.Ans o × S)) :
    Pool ι S σ α → List (Move ι C σ α) → Option (Pool ι S σ α)
  | c, [] => some c
  | c, m :: ms => (move h c m).bind fun (_, c') => play h c' ms

section Steps

variable {sem : Sem σ S} {h : S → (o : σ.Op) → C → Option (σ.Ans o × S)}
  {menu : ι → Prog σ α → Prop} {env : S → S → Prop} {c c' : Pool ι S σ α}
  {ms : List (Move ι C σ α)}

/-- **An entry of a schedule** that is possible is a step, and meets the guard if
every call that can be made does. -/
theorem step_of_move {G : S → Event σ → Prop} {m : Move ι C σ α} {l : Label ι σ}
    (hstep : ∀ s o x r s', h s o x = some (r, s') → sem s o r s' ∧ G s ⟨o, r⟩)
    (hmenu : ∀ i p, m = .start i p → menu i p) (hm : move h c m = some (l, c')) :
    Step sem menu env c l c' ∧ ∀ i ev, l = .call i ev → G c.state ev := by
  cases m with
  | call i x =>
    simp only [move] at hm
    split at hm
    · cases hm
    · rename_i o k hprog
      obtain ⟨⟨r, s'⟩, hs, heq⟩ := Option.map_eq_some_iff.mp hm
      cases heq
      obtain ⟨hsem, hguard⟩ := hstep _ _ _ _ _ hs
      refine ⟨.call hprog hsem, ?_⟩
      rintro _ _ ⟨⟩
      exact hguard
  | start i p =>
    simp only [move] at hm
    split at hm
    · rename_i a hprog
      cases hm
      exact ⟨.start hprog (hmenu i p rfl), nofun⟩
    · cases hm

/-- Playing a schedule whose programs are on the menu is a run, with the steps
that are recorded. -/
theorem run_of_record {c₀ : Pool ι S σ α} {ls ls' : List (Label ι σ)}
    (hsem : ∀ s o x r s', h s o x = some (r, s') → sem s o r s')
    (hmenu : ∀ i p, Move.start i p ∈ ms → menu i p) (hr : Run (Step sem menu env) c₀ ls c)
    (hp : record h (ls, c) ms = some (ls', c')) : Run (Step sem menu env) c₀ ls' c' := by
  induction ms generalizing c ls with
  | nil =>
    cases hp
    exact hr
  | cons m ms ih =>
    obtain ⟨⟨l, c₁⟩, hm, hp⟩ := Option.bind_eq_some_iff.mp hp
    have hstep : Step sem menu env c l c₁ ∧ _ :=
      step_of_move (G := fun _ _ => True) (fun s o x r s' hs => ⟨hsem s o x r s' hs, trivial⟩)
        (fun i p hs => hmenu i p (hs ▸ List.mem_cons_self)) hm
    exact ih (fun i p hs => hmenu i p (List.mem_cons_of_mem m hs)) (hr.snoc hstep.1) hp

/-- Playing a schedule whose programs are on the menu is a run, and all of its
calls meet the guard if the steps that are played do. -/
theorem reach_of_play_guarded {guard : S → Event σ → Prop}
    (hstep : ∀ s o x r s', h s o x = some (r, s') → sem s o r s' ∧ guard s ⟨o, r⟩)
    (hmenu : ∀ i p, Move.start i p ∈ ms → menu i p) (hp : play h c ms = some c') :
    Reach sem menu env guard c c' := by
  induction ms generalizing c with
  | nil =>
    cases hp
    exact .refl
  | cons m ms ih =>
    obtain ⟨⟨l, c₁⟩, hm, hp⟩ := Option.bind_eq_some_iff.mp hp
    exact .head ⟨l, step_of_move hstep (fun i p hs => hmenu i p (hs ▸ List.mem_cons_self)) hm⟩
      (ih (fun i p hs => hmenu i p (List.mem_cons_of_mem m hs)) hp)

/-- A schedule without a guard. -/
theorem reach_of_play (hmenu : ∀ i p, Move.start i p ∈ ms → menu i p)
    (hp : play h c ms = some c') : Reach (Prog.semOf h) menu env (fun _ _ => True) c c' :=
  reach_of_play_guarded (fun _ _ x _ _ hs => ⟨⟨x, hs⟩, trivial⟩) hmenu hp

end Steps

end Play

end Pool

end Interaction
