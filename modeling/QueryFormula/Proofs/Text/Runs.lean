/-!
# Runs of characters

A run of characters of one kind ends where the next character is of another kind, and it is
the same run if the text is cut behind it.
-/

namespace QueryFormula

/-- A text that is cut behind what it begins with. -/
theorem eq_append_of_cut {α : Type} {front cs rest tail : List α}
    (happend : front ++ (rest ++ tail) = cs ++ tail) : cs = front ++ rest :=
  (List.append_cancel_right ((List.append_assoc ..).trans happend)).symm

/-- A run of characters ends where the next one is of another kind. -/
theorem run_append {p : Char → Bool} {run tail : List Char} (hrun : ∀ c ∈ run, p c = true)
    (hend : ∀ c ∈ tail.head?, p c = false) :
    (run ++ tail).takeWhile p = run ∧ (run ++ tail).dropWhile p = tail := by
  rw [List.takeWhile_append_of_pos hrun, List.dropWhile_append_of_pos hrun]
  cases tail with
  | nil => simp
  | cons c tail => simp [hend c rfl]

theorem run_truncated {p : Char → Bool} {cs tail rest : List Char}
    (h : (cs ++ tail).dropWhile p = rest ++ tail) :
    cs.takeWhile p = (cs ++ tail).takeWhile p ∧ cs.dropWhile p = rest := by
  have happend := List.takeWhile_append_dropWhile (p := p) (l := cs ++ tail)
  rw [h] at happend
  have hcs := eq_append_of_cut happend
  have hrun : ∀ c ∈ (cs ++ tail).takeWhile p, p c = true :=
    List.all_eq_true.mp List.all_takeWhile
  have hend : ∀ c ∈ rest.head?, p c = false := by
    intro c hc
    have hhead := List.head?_dropWhile_not p (cs ++ tail)
    rw [h, List.head?_append, Option.mem_def.mp hc] at hhead
    simpa using hhead
  have hparts := run_append hrun hend
  rwa [← hcs] at hparts

end QueryFormula
