import LibvirtProvider.ConnectionURI

/-!
# Where a path leads

`filepath.Clean` of the source works on the elements of a path: it drops what
is empty or `.`, and lets `..` take back the name before it. What is left has
a shape of its own (`CleanPath`), and elements of that shape are left as they
are. So a path and the path cleaned lead to the same place
(`cleanElements_filepathClean`), and a name joined to a directory leads to
that name in the directory (`cleanElements_filepathJoin`).
-/

namespace LibvirtProvider

open Interaction QueryText

theorem notMem_of_mem_splitOn {b : UInt8} {s e : Text} (he : e ∈ s.splitOn b) : b ∉ e := by
  induction s generalizing e with
  | nil =>
    rw [List.splitOn_nil, List.mem_singleton] at he
    rw [he]
    exact List.not_mem_nil
  | cons c s ih =>
    obtain ⟨part, parts, hparts⟩ := List.exists_cons_of_ne_nil (List.splitOn_ne_nil b s)
    rw [List.splitOn_cons_eq_if_modifyHead] at he
    rw [hparts] at he ih
    split at he
    · rcases List.mem_cons.mp he with rfl | he
      · exact List.not_mem_nil
      · exact ih he
    · rename_i hne
      rcases List.mem_cons.mp he with rfl | he
      · exact List.not_mem_cons_of_ne_of_not_mem (fun h => hne (beq_iff_eq.mpr h.symm))
          (ih List.mem_cons_self)
      · exact ih (List.mem_cons_of_mem _ he)

/-- **The elements of a clean path**, the last one first: names, and before
them, in a path that does not begin at the root, some `..`. -/
inductive CleanPath (rooted : Bool) : List Text → Prop where
  | nil : CleanPath rooted []
  | up {kept : List Text} (h : CleanPath rooted kept) (hrooted : rooted = false)
      (hup : ∀ e ∈ kept, e = ascii "..") : CleanPath rooted (ascii ".." :: kept)
  | name {kept : List Text} {e : Text} (h : CleanPath rooted kept) (he : FileName e) :
      CleanPath rooted (e :: kept)

namespace CleanPath

variable {rooted : Bool} {kept : List Text}

theorem cleanElement (h : CleanPath rooted kept) {e : Text} (he : '/'.toUInt8 ∉ e) :
    CleanPath rooted (cleanElement rooted kept e) := by
  unfold LibvirtProvider.cleanElement
  split
  · exact h
  · rename_i hplain
    obtain ⟨hne, hdot⟩ := not_or.mp hplain
    split
    · rename_i hup
      subst hup
      cases h with
      | nil =>
        dsimp only
        split
        · exact .nil
        · rename_i hrooted
          exact .up .nil (Bool.not_eq_true _ ▸ hrooted) fun _ h => absurd h List.not_mem_nil
      | up h hrooted hup =>
        dsimp only
        rw [if_pos rfl]
        exact .up (.up h hrooted hup) hrooted (List.forall_mem_cons.mpr ⟨rfl, hup⟩)
      | name h hname =>
        dsimp only
        rw [if_neg hname.dots]
        exact h
    · rename_i hdots
      exact .name h ⟨he, hne, hdot, hdots⟩

theorem foldl (h : CleanPath rooted kept) {elements : List Text}
    (he : ∀ e ∈ elements, '/'.toUInt8 ∉ e) :
    CleanPath rooted (elements.foldl (LibvirtProvider.cleanElement rooted) kept) := by
  induction elements generalizing kept with
  | nil => exact h
  | cons e elements ih =>
    obtain ⟨hfirst, hrest⟩ := List.forall_mem_cons.mp he
    exact ih (h.cleanElement hfirst) hrest

/-- Cleaning leaves the elements of a clean path as they are. -/
theorem foldl_reverse (h : CleanPath rooted kept) :
    kept.reverse.foldl (LibvirtProvider.cleanElement rooted) [] = kept := by
  induction h with
  | nil => rfl
  | @up kept h hrooted hup ih =>
    rw [List.reverse_cons, List.foldl_append, ih]
    show LibvirtProvider.cleanElement rooted kept (ascii "..") = _
    unfold LibvirtProvider.cleanElement
    rw [if_neg (by decide), if_pos rfl]
    cases kept with
    | nil =>
      dsimp only
      rw [if_neg (by rw [hrooted]; exact Bool.false_ne_true)]
    | cons e kept =>
      have he := hup e List.mem_cons_self
      subst he
      dsimp only
      rw [if_pos rfl]
  | name h he ih =>
    rw [List.reverse_cons, List.foldl_append, ih]
    exact he.cleanElement rooted _

theorem plain (h : CleanPath rooted kept) : ∀ e ∈ kept, '/'.toUInt8 ∉ e ∧ e ≠ [] := by
  induction h with
  | nil => exact fun _ h => absurd h List.not_mem_nil
  | up _ _ _ ih => exact List.forall_mem_cons.mpr ⟨by decide, ih⟩
  | name _ he ih => exact List.forall_mem_cons.mpr ⟨⟨he.slash, he.nonempty⟩, ih⟩

end CleanPath

theorem cleanPath_cleanElements (path : Text) :
    CleanPath (path.head? = some '/'.toUInt8) (cleanElements path) :=
  CleanPath.nil.foldl fun _ he => notMem_of_mem_splitOn he

/-- The text of a clean path, read again. -/
theorem CleanPath.intercalate {rooted : Bool} {kept : List Text} (h : CleanPath rooted kept)
    (hne : kept ≠ []) :
    (['/'.toUInt8].intercalate kept.reverse).splitOn '/'.toUInt8 = kept.reverse
      ∧ (['/'.toUInt8].intercalate kept.reverse).head? ≠ some '/'.toUInt8
      ∧ ['/'.toUInt8].intercalate kept.reverse ≠ [] := by
  have hplain : ∀ e ∈ kept.reverse, '/'.toUInt8 ∉ e ∧ e ≠ [] :=
    fun e he => h.plain e (List.mem_reverse.mp he)
  refine ⟨List.splitOn_intercalate _ (fun e he => (hplain e he).1)
    (List.reverse_ne_nil_iff.mpr hne), ?_⟩
  obtain ⟨first, rest, hrev⟩ := List.exists_cons_of_ne_nil (List.reverse_ne_nil_iff.mpr hne)
  rw [hrev] at hplain ⊢
  obtain ⟨hslash, hfirst⟩ := hplain first List.mem_cons_self
  obtain ⟨c, first, rfl⟩ := List.exists_cons_of_ne_nil hfirst
  have htext : ∃ tail, ['/'.toUInt8].intercalate ((c :: first) :: rest) = c :: tail := by
    cases rest with
    | nil => exact ⟨first, by simp⟩
    | cons e rest => exact ⟨_, List.intercalate_cons_cons⟩
  obtain ⟨tail, htail⟩ := htext
  rw [htail]
  refine ⟨fun hc => hslash ?_, List.cons_ne_nil _ _⟩
  rw [List.head?_cons, Option.some.injEq] at hc
  rw [hc]
  exact List.mem_cons_self

/-- **A path leads where the clean path leads.** So it makes no difference to
the files whether a path was cleaned on its way to a call. -/
theorem cleanElements_filepathClean (path : Text) :
    cleanElements (filepathClean path) = cleanElements path := by
  have hclean := cleanPath_cleanElements path
  unfold filepathClean
  generalize cleanElements path = kept at hclean ⊢
  by_cases hrooted : path.head? = some '/'.toUInt8
  · rw [decide_eq_true hrooted] at hclean
    rw [if_pos hrooted, if_neg (List.append_ne_nil_of_left_ne_nil (List.cons_ne_nil _ _) _)]
    have hread (text : Text) : cleanElements (['/'.toUInt8] ++ text)
        = (text.splitOn '/'.toUInt8).foldl (cleanElement true) [] := by
      have hsplit := List.splitOn_append_cons_self (a := '/'.toUInt8) [] text
      rw [List.nil_append, List.splitOn_nil] at hsplit
      unfold cleanElements
      rw [List.singleton_append, hsplit]
      rfl
    rw [hread]
    by_cases hne : kept = []
    · rw [hne]
      rfl
    · rw [(hclean.intercalate hne).1, hclean.foldl_reverse]
  · rw [decide_eq_false hrooted] at hclean
    rw [if_neg hrooted, List.nil_append]
    by_cases hne : kept = []
    · rw [hne]
      rfl
    · obtain ⟨hsplit, hhead, htext⟩ := hclean.intercalate hne
      rw [if_neg htext]
      unfold cleanElements
      rw [decide_eq_false hhead, hsplit]
      exact hclean.foldl_reverse

section Directories

variable {dir name : Text}

/-- A file in a directory is the name, in what the directory leads to. A name
with a `/` in it, or `..`, would lead elsewhere. -/
theorem cleanElements_filepathJoin (h : FileName name) (hdir : dir ≠ []) :
    cleanElements (filepathJoin dir name) = name :: cleanElements dir := by
  rw [filepathJoin, if_pos hdir, cleanElements_filepathClean, h.cleanElements hdir]

theorem mem_cleanElement {rooted : Bool} {kept : List Text} {x e : Text}
    (h : e ∈ cleanElement rooted kept x) : e ∈ kept ∨ e = x := by
  unfold cleanElement at h
  split at h
  · exact Or.inl h
  split at h
  · cases kept with
    | nil =>
      dsimp only at h
      split at h
      · exact Or.inl h
      · exact Or.inr (List.mem_singleton.mp h)
    | cons last kept =>
      dsimp only at h
      split at h
      · exact (List.mem_cons.mp h).symm
      · exact Or.inl (List.mem_cons_of_mem _ h)
  · exact (List.mem_cons.mp h).symm

/-- Cleaning adds nothing to a path but `/` and `.`; it can only take away. -/
theorem mem_of_mem_filepathClean {b : UInt8} (hslash : b ≠ '/'.toUInt8) (hdot : b ≠ '.'.toUInt8)
    {path : Text} (h : b ∈ filepathClean path) : b ∈ path := by
  obtain ⟨e, he, hb⟩ := (mem_filepathClean hslash hdot path).mp h
  have hkept (elements : List Text) : ∀ kept : List Text,
      e ∈ elements.foldl (cleanElement (path.head? = some '/'.toUInt8)) kept →
        e ∈ kept ∨ e ∈ elements := by
    induction elements with
    | nil => exact fun kept h => Or.inl h
    | cons x elements ih =>
      intro kept h
      rcases ih _ h with h | h
      · rcases mem_cleanElement h with h | rfl
        · exact Or.inl h
        · exact Or.inr List.mem_cons_self
      · exact Or.inr (List.mem_cons_of_mem _ h)
  have hsplit := (hkept _ [] he).resolve_left List.not_mem_nil
  have hjoin : ['/'.toUInt8].intercalate (path.splitOn '/'.toUInt8) = path :=
    List.intercalate_splitOn _
  rw [← hjoin, mem_intercalate hslash]
  exact ⟨e, hsplit, hb⟩

end Directories

end LibvirtProvider
