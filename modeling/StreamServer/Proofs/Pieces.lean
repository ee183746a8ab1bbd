import Mathlib.Data.List.Basic
import StreamServer.Text.Pieces

/-!
# Lists that are cut

The pieces of a list are what stands between the occurrences of a separator: they
do not have it, and put together with it they are the list again.  Texts without
the separator come back from what they make up with it.
-/

namespace StreamServer

variable {α : Type} [DecidableEq α]

theorem pieces_ne_nil
    (sep : α) (xs : List α) :
    pieces sep xs ≠ [] := by
  cases xs with
  | nil => simp [pieces]
  | cons x rest =>
      simp only [pieces]
      split
      · simp
      · split <;> simp

/-- What stands before a list, without the separator, goes to its first part. -/
theorem pieces_append
    {sep : α} {xs : List α}
    (absent : sep ∉ xs)
    (ys : List α) :
    pieces sep (xs ++ ys) = (pieces sep ys).modifyHead (xs ++ ·) := by
  have hne := pieces_ne_nil sep ys
  induction xs with
  | nil =>
      rw [List.nil_append]
      cases pieces sep ys <;> rfl
  | cons x rest ih =>
      rw [List.mem_cons, not_or] at absent
      rw [List.cons_append, pieces, if_neg (Ne.symm absent.1),
        ih absent.2]
      cases hparts : pieces sep ys with
      | nil => exact absurd hparts hne
      | cons p ps => rfl

theorem pieces_append_cons
    {sep : α} {xs : List α}
    (absent : sep ∉ xs)
    (ys : List α) :
    pieces sep (xs ++ sep :: ys) = xs :: pieces sep ys := by
  rw [pieces_append absent, pieces, if_pos rfl, List.modifyHead_cons,
    List.append_nil]

/-- Texts that are all ended by the separator are the parts before it. -/
theorem pieces_flatMap
    {β : Type} {sep : α} {write : β → List α} {xs : List β}
    (absent : ∀ x ∈ xs, sep ∉ write x) :
    pieces sep (xs.flatMap fun x => write x ++ [sep]) =
      xs.map write ++ [[]] := by
  induction xs with
  | nil => rfl
  | cons x rest ih =>
      have hrest := ih fun y hy => absent y (List.mem_cons_of_mem x hy)
      rw [List.flatMap_cons, List.append_assoc, List.singleton_append,
        pieces_append_cons (absent x List.mem_cons_self), hrest]
      rfl

/-- A list without the separator is its only piece. -/
theorem pieces_of_not_mem
    {sep : α} {xs : List α}
    (absent : sep ∉ xs) :
    pieces sep xs = [xs] := by
  have h := pieces_append absent []
  rw [List.append_nil] at h
  rw [h]
  exact congrArg (fun ys => [ys]) (List.append_nil xs)

/-- The pieces with the separator between them are the list. -/
theorem intercalate_pieces
    (sep : α) (xs : List α) :
    [sep].intercalate (pieces sep xs) = xs := by
  induction xs with
  | nil => rfl
  | cons x rest ih =>
      obtain ⟨p, ps, hps⟩ :=
        List.exists_cons_of_ne_nil (pieces_ne_nil sep rest)
      rw [hps] at ih
      rw [pieces]
      split
      · next hsep =>
          rw [hps, List.intercalate_cons_cons, ih, hsep]
          rfl
      · simp only [hps]
        cases ps with
        | nil =>
            rw [List.intercalate_singleton] at ih ⊢
            rw [ih]
        | cons q qs =>
            rw [List.intercalate_cons_cons] at ih ⊢
            rw [← ih]
            rfl

/-- A cut takes out the first separator. -/
theorem cut?_append_cons
    {sep : α} {before : List α}
    (absent : sep ∉ before)
    (after : List α) :
    cut? sep (before ++ sep :: after) = some (before, after) := by
  induction before with
  | nil => simp [cut?]
  | cons x rest ih =>
      rw [List.mem_cons, not_or] at absent
      simp [cut?, Ne.symm absent.1, ih absent.2]

theorem eq_of_cut?
    {sep : α} {xs before after : List α}
    (cut : cut? sep xs = some (before, after)) :
    xs = before ++ sep :: after := by
  induction xs generalizing before with
  | nil => cases cut
  | cons x rest ih =>
      simp only [cut?] at cut
      split at cut
      · next hx =>
          cases cut
          rw [hx]
          rfl
      · obtain ⟨⟨b, a⟩, hcut, h⟩ := Option.map_eq_some_iff.mp cut
        cases h
        rw [ih hcut]
        rfl

theorem cut?_eq_none_iff
    {sep : α} {xs : List α} :
    cut? sep xs = none ↔ sep ∉ xs := by
  induction xs with
  | nil => simp [cut?]
  | cons x rest ih =>
      by_cases hx : x = sep
      · simp [cut?, hx]
      · simp [cut?, hx, ih, Ne.symm hx]

/-! ## Reading every piece -/

section

variable {α β : Type}

/-- All are read exactly if each of them is. -/
theorem isSome_mapM_iff
    {f : α → Option β} {xs : List α} :
    (xs.mapM f).isSome ↔ ∀ x ∈ xs, (f x).isSome := by
  induction xs with
  | nil => simp
  | cons x rest ih =>
      rw [List.mapM_cons, List.forall_mem_cons, ← ih]
      cases f x <;> cases rest.mapM f <;> simp

theorem length_of_mapM
    {f : α → Option β} {xs : List α} {ys : List β}
    (read : xs.mapM f = some ys) :
    ys.length = xs.length := by
  induction xs generalizing ys with
  | nil =>
      cases read
      rfl
  | cons x rest ih =>
      rw [List.mapM_cons] at read
      obtain ⟨y, -, hrest⟩ := Option.bind_eq_some_iff.mp read
      obtain ⟨zs, hzs, h⟩ := Option.bind_eq_some_iff.mp hrest
      cases h
      rw [List.length_cons, List.length_cons, ih hzs]

end

end StreamServer
