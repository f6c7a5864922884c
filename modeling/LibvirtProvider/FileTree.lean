import Mathlib.Data.List.Infix
import Mathlib.Logic.Function.Basic

/-!
# File trees

Directories and files under paths, where what has a path has its directory.
A path is the list of its elements, the last one first, so that what is below
a directory has it as a suffix. There are no links: a path is one place.

Two places of the same depth have nothing below both of them
(`suffix_unique`); and below a place that is not there, there is nothing
(`FileTree.node_eq_none_of_suffix`). These are what keeps programs apart that
work in directories of their own.
-/

variable {ν δ : Type}

/-- What there is at a path. -/
inductive FileNode (δ : Type) where
  | dir
  | file (data : δ)
  deriving DecidableEq, Repr

/-- **A file tree**: what has a path is in a directory. That is kept in the
structure, so a file cannot outlive the removal of a directory above it. -/
structure FileTree (ν δ : Type) where
  node : List ν → Option (FileNode δ)
  parent : ∀ name dir, node (name :: dir) ≠ none → node dir = some .dir

/-- Places of the same depth, above one place, are one. So two clients with
directories side by side have no file in common. -/
theorem suffix_unique {p q k : List ν} (hp : p <:+ k) (hq : q <:+ k) (hlen : p.length = q.length) :
    p = q :=
  (List.suffix_of_suffix_length_le hp hq hlen.le).eq_of_length hlen

namespace FileTree

variable {t t' : FileTree ν δ} {p k dir : List ν} {name : ν} {n : FileNode δ}

@[ext] theorem ext_node (h : ∀ k, t.node k = t'.node k) : t = t' := by
  obtain ⟨node, _⟩ := t
  obtain ⟨node', _⟩ := t'
  obtain rfl : node = node' := funext h
  rfl

/-- Below a place that is not there, there is nothing. -/
theorem node_eq_none_of_suffix (hp : t.node p = none) (hk : p <:+ k) : t.node k = none := by
  obtain ⟨above, rfl⟩ := hk
  induction above with
  | nil => exact hp
  | cons a above ih =>
    by_contra hne
    exact absurd (ih.symm.trans (t.parent a _ hne)) (Option.some_ne_none _).symm

section Put

variable [DecidableEq ν]

/-- **Something is put into a directory**, where there is no directory of its
name. -/
def put (t : FileTree ν δ) (name : ν) (dir : List ν) (n : FileNode δ)
    (hdir : t.node dir = some .dir) (hnode : t.node (name :: dir) ≠ some .dir) :
    FileTree ν δ where
  node := Function.update t.node (name :: dir) (some n)
  parent a d h := by
    by_cases hd : d = name :: dir
    · subst hd
      rw [Function.update_of_ne (List.cons_ne_self a _)] at h
      exact absurd (t.parent a _ h) hnode
    · rw [Function.update_of_ne hd]
      by_cases had : a :: d = name :: dir
      · obtain ⟨-, rfl⟩ := List.cons.inj had
        exact hdir
      · rw [Function.update_of_ne had] at h
        exact t.parent a d h

variable {hdir : t.node dir = some .dir} {hnode : t.node (name :: dir) ≠ some .dir}

@[simp] theorem node_put_self : (t.put name dir n hdir hnode).node (name :: dir) = some n :=
  Function.update_self _ _ _

theorem node_put_of_ne (h : k ≠ name :: dir) : (t.put name dir n hdir hnode).node k = t.node k :=
  Function.update_of_ne h _ _

end Put

section Remove

variable [DecidableEq ν] {roots : List (List ν)}

/-- **Some places are removed**, with what is below them. What is removed is
given as a list of roots, because a removal that is interrupted has taken away
some of what is in a directory and not the rest. -/
def remove (t : FileTree ν δ) (roots : List (List ν)) : FileTree ν δ where
  node k := if ∃ root ∈ roots, root <:+ k then none else t.node k
  parent a d h := by
    by_cases hd : ∃ root ∈ roots, root <:+ d
    · obtain ⟨root, hroot, hsuffix⟩ := hd
      exact absurd (if_pos ⟨root, hroot, hsuffix.trans (List.suffix_cons a d)⟩) h
    · rw [if_neg hd]
      by_cases had : ∃ root ∈ roots, root <:+ a :: d
      · exact absurd (if_pos had) h
      · rw [if_neg had] at h
        exact t.parent a d h

/-- What is not below one of the places stays. -/
theorem node_remove_of_not (h : ∀ root ∈ roots, ¬ root <:+ k) :
    (t.remove roots).node k = t.node k :=
  if_neg fun hk => by
    obtain ⟨root, hroot, hsuffix⟩ := hk
    exact h root hroot hsuffix

end Remove

end FileTree
