/-! Cutting a text at a separator. Main statements: the pieces joined again are the text
(`intercalate_cutAt`), a text without the separator is its own only piece
(`cutAt_of_not_mem`), and texts with the separator between them are cut one after the other
(`cutAt_append_cons`). -/

namespace StageFusion.Text

/-- The pieces of a text between the occurrences of a separator. -/
def cutAt (separator : Char) : List Char → List (List Char)
  | [] => [[]]
  | c :: rest =>
    if c = separator then [] :: cutAt separator rest
    else
      match cutAt separator rest with
      | [] => [[c]]
      | first :: others => (c :: first) :: others

theorem cutAt_ne_nil (separator : Char) (text : List Char) : cutAt separator text ≠ [] := by
  cases text with
  | nil => simp [cutAt]
  | cons c rest =>
    rw [cutAt]
    split
    · simp
    · split <;> simp

theorem cutAt_of_not_mem {separator : Char} {text : List Char} (h : separator ∉ text) :
    cutAt separator text = [text] := by
  induction text with
  | nil => rfl
  | cons c rest ih =>
    simp only [List.mem_cons, not_or] at h
    rw [cutAt, if_neg (fun e => h.1 e.symm), ih h.2]

theorem cutAt_append_cons (separator : Char) (first second : List Char) :
    cutAt separator (first ++ separator :: second) =
      cutAt separator first ++ cutAt separator second := by
  induction first with
  | nil => simp [cutAt]
  | cons c rest ih =>
    rw [List.cons_append, cutAt, cutAt, ih]
    by_cases h : c = separator
    · rw [if_pos h, if_pos h]
      rfl
    · rw [if_neg h, if_neg h]
      cases hrest : cutAt separator rest with
      | nil => exact absurd hrest (cutAt_ne_nil _ _)
      | cons piece pieces => rfl

theorem not_mem_of_mem_cutAt {separator : Char} {text piece : List Char}
    (h : piece ∈ cutAt separator text) : separator ∉ piece := by
  induction text generalizing piece with
  | nil => simp_all [cutAt]
  | cons c rest ih =>
    rw [cutAt] at h
    split at h
    · rcases List.mem_cons.1 h with rfl | h
      · simp
      · exact ih h
    · next hc =>
      split at h
      · next hnil => exact absurd hnil (cutAt_ne_nil _ _)
      · next first others heq =>
        rcases List.mem_cons.1 h with rfl | h
        · have hfirst : first ∈ cutAt separator rest := by rw [heq]; simp
          simp [ih hfirst, Ne.symm hc]
        · exact ih (by rw [heq]; simp [h])

theorem intercalate_cutAt (separator : Char) (text : List Char) :
    [separator].intercalate (cutAt separator text) = text := by
  induction text with
  | nil => rfl
  | cons c rest ih =>
    rw [cutAt]
    cases h : cutAt separator rest with
    | nil => exact absurd h (cutAt_ne_nil _ _)
    | cons first others =>
      rw [h] at ih
      split
      · next hc =>
        subst hc
        simpa [List.intercalate, List.intersperse] using ih
      · cases others <;> simpa [List.intercalate, List.intersperse] using ih

end StageFusion.Text
