import LibvirtProvider.Interaction
import Mathlib.Data.Finset.Card
import Mathlib.Logic.Function.Basic

/-!
# Tables with probing

Keys hold slots, at most one each. A client works for a key and has a list of
slots it tries in order: it gets the first one that no other key holds. What
its own key holds is no obstacle, so a client that comes again may get another
slot than it has, once an earlier one has become free.

Nothing is assumed of the lists, and clients may share a key. A client is
refused only where every slot it tries is held by another key (`first_or_full`),
and then there are as many other keys as slots (`Full.length_le`).
-/

namespace Interaction

variable {κ α ι : Type}

/-- Which slot a key holds, at most one. Keys are what is told apart; clients
that work for one key share what it holds. -/
abbrev Table (κ α : Type) := κ → Option α

namespace Table

variable {T T' : Table κ α} {k : κ} {a : α} {probe : List α}

/-- **A slot is taken** for a key: another one holds it. The slot a key holds
itself is free for it, so a client that asks again is not refused for what it
has. -/
def Taken (T : Table κ α) (k : κ) (a : α) : Prop := ∃ k', k' ≠ k ∧ T k' = some a

/-- All slots of a list are taken. -/
def Full (T : Table κ α) (probe : List α) (k : κ) : Prop := ∀ a ∈ probe, T.Taken k a

/-- **The first slot of a list that is not taken.** Stated by a split of the
list, since a list may try a slot more than once. -/
def First (T : Table κ α) (probe : List α) (k : κ) (a : α) : Prop :=
  ∃ pre post, probe = pre ++ a :: post ∧ (∀ b ∈ pre, T.Taken k b) ∧ ¬ T.Taken k a

/-- There is one, unless all are taken. -/
theorem first_or_full (T : Table κ α) (probe : List α) (k : κ) :
    (∃ a, T.First probe k a) ∨ T.Full probe k := by
  induction probe with
  | nil => exact Or.inr fun _ h => absurd h List.not_mem_nil
  | cons b probe ih =>
    by_cases hb : T.Taken k b
    · rcases ih with ⟨a, pre, post, rfl, hpre, ha⟩ | hfull
      · exact Or.inl ⟨a, b :: pre, post, rfl, List.forall_mem_cons.mpr ⟨hb, hpre⟩, ha⟩
      · exact Or.inr (List.forall_mem_cons.mpr ⟨hb, hfull⟩)
    · exact Or.inl ⟨b, [], probe, rfl, fun _ h => absurd h List.not_mem_nil, hb⟩

/-- **Where all slots are taken, there are as many other keys.** Read the
other way round: with fewer keys than slots nobody is refused. `K` is any set
the holders of the slots are in. -/
theorem Full.length_le [DecidableEq κ] (h : T.Full probe k) (hnodup : probe.Nodup) {K : Finset κ}
    (hK : ∀ k' a, a ∈ probe → T k' = some a → k' ∈ K) : probe.length ≤ (K.erase k).card := by
  classical
  have : Nonempty κ := ⟨k⟩
  choose! holder hne hholds using h
  rw [← List.toFinset_card_of_nodup hnodup]
  refine Finset.card_le_card_of_injOn holder (fun a ha => ?_) fun a ha b hb hab => ?_
  · have ha := List.mem_toFinset.mp ha
    exact Finset.mem_erase.mpr ⟨hne a ha, hK _ a ha (hholds a ha)⟩
  · have ha := hholds a (List.mem_toFinset.mp ha)
    have hb := hholds b (List.mem_toFinset.mp hb)
    rw [hab, hb] at ha
    exact (Option.some.inj ha).symm

end Table

/-- **What came of a call** for a client: a slot, nothing being held any more,
or a failure. -/
inductive TableCall (ι α : Type) where
  | reserved (i : ι) (a : α)
  | released (i : ι)
  | failed (i : ι)

/-- **The calls on a table.** A call that fails changes nothing, and may fail
for any reason; a reserve that succeeds replaces what the key held before. -/
inductive TableStep [DecidableEq κ] (key : ι → κ) (probe : ι → List α) :
    Table κ α → TableCall ι α → Table κ α → Prop where
  | reserved {T : Table κ α} {i : ι} {a : α} (h : T.First (probe i) (key i) a) :
      TableStep key probe T (.reserved i a) (Function.update T (key i) (some a))
  | released {T : Table κ α} {i : ι} :
      TableStep key probe T (.released i) (Function.update T (key i) none)
  | failed {T : Table κ α} {i : ι} : TableStep key probe T (.failed i) T

/-- **Who holds a slot** after some calls is a client's key, or held one to
begin with. It bounds the number of holders over a whole run, for
`Full.length_le`. -/
theorem TableStep.holders [DecidableEq κ] {key : ι → κ} {probe : ι → List α} {K : Finset κ}
    {l : List α} (hkey : ∀ i, key i ∈ K) {T T' : Table κ α}
    (hT : ∀ k a, a ∈ l → T k = some a → k ∈ K) {calls : List (TableCall ι α)}
    (h : Run (TableStep key probe) T calls T') : ∀ k a, a ∈ l → T' k = some a → k ∈ K := by
  have hupdate {T : Table κ α} (hT : ∀ k a, a ∈ l → T k = some a → k ∈ K) (i : ι) (v : Option α) :
      ∀ k a, a ∈ l → Function.update T (key i) v k = some a → k ∈ K := by
    intro k a ha hk
    by_cases hki : k = key i
    · exact hki ▸ hkey i
    · rw [Function.update_of_ne hki] at hk
      exact hT k a ha hk
  induction h with
  | nil => exact hT
  | snoc _ hstep ih =>
    cases hstep with
    | reserved _ => exact hupdate ih _ _
    | released => exact hupdate ih _ _
    | failed => exact ih

end Interaction
