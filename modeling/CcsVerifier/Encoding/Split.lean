import Mathlib

/-!
# Splitting at a separator

Facts about the parts of a list between the occurrences of a separator.

* `not_mem_of_mem_splitOn`: no part holds the separator.
* `splitOn_injective`: a list is determined by its parts.
* `exists_splitOn_eq`: any separator-free parts are the parts of some list.
-/

variable {α : Type} [DecidableEq α] (sep : α)

/-- No part of a split list holds the separator. -/
theorem not_mem_of_mem_splitOn {xs part : List α} (h : part ∈ xs.splitOn sep) : sep ∉ part := by
  induction xs generalizing part with
  | nil =>
    rw [List.splitOn_nil, List.mem_singleton] at h
    simp [h]
  | cons x xs ih =>
    rw [List.splitOn_cons_eq_if_modifyHead] at h
    split at h
    · rcases List.mem_cons.mp h with rfl | h
      · simp
      · exact ih h
    · next hx =>
      -- an element that is no separator joins the first part of the rest
      cases hsplit : xs.splitOn sep with
      | nil => exact absurd hsplit (List.splitOn_ne_nil _ _)
      | cons head tail =>
        rw [hsplit] at h ih
        rcases List.mem_cons.mp h with rfl | h
        · have hhead := ih (List.mem_cons_self ..)
          have hne : sep ≠ x := fun heq => hx (by simp [heq])
          simp [hne, hhead]
        · exact ih (List.mem_cons_of_mem _ h)

/-- A list is determined by its parts. -/
theorem splitOn_injective {xs ys : List α} (h : xs.splitOn sep = ys.splitOn sep) : xs = ys := by
  calc xs = [sep].intercalate (xs.splitOn sep) := (List.intercalate_splitOn sep).symm
    _ = ys := by rw [h, List.intercalate_splitOn]

/-- Every list of parts without the separator is the split of some list. -/
theorem exists_splitOn_eq {parts : List (List α)} (hne : parts ≠ [])
    (h : ∀ part ∈ parts, sep ∉ part) : ∃ xs : List α, xs.splitOn sep = parts :=
  ⟨_, List.splitOn_intercalate sep h hne⟩
