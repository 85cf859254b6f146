import Luwes.Lib.Window

/-!
# Lines

The complete lines of a text are what each separator ends; what follows the last separator is not one
yet.  A text that stops at the end of a line can be read on its own, and what comes after it on its own
(`complete_append`).  A text of which only the end is left has, but for the line that was cut, lines of
the whole, and the cut one is the end of a line (`complete_of_suffix`).
-/

namespace Lines

variable {α : Type*} {sep : α} {xs ys l : List α}

/-- The text stops at the end of a line. -/
def AtEnd (sep : α) (xs : List α) : Prop := xs = [] ∨ ∃ ys, xs = ys ++ [sep]

lemma AtEnd.rtake (h : AtEnd sep xs) (n : ℕ) : AtEnd sep (xs.rtake n) := by
  rcases h with rfl | ⟨zs, rfl⟩
  · exact .inl (by simp [List.rtake])
  · cases n with
    | zero => exact .inl (by simp)
    | succ n => exact .inr ⟨zs.rtake n, List.rtake_concat_succ ..⟩

/-- Up to its last separator a text stops at the end of a line. -/
lemma exists_atEnd (sep : α) (xs : List α) : ∃ front rest, xs = front ++ rest ∧ AtEnd sep front ∧ sep ∉ rest := by
  induction xs using List.reverseRecOn with
  | nil => exact ⟨[], [], rfl, .inl rfl, List.not_mem_nil⟩
  | append_singleton xs x ih =>
      obtain ⟨front, rest, rfl, hfront, hrest⟩ := ih
      by_cases hx : x = sep
      · exact ⟨front ++ rest ++ [x], [], by simp, .inr ⟨_, by rw [hx]⟩, List.not_mem_nil⟩
      · exact ⟨front, rest ++ [x], by simp, hfront, by simp [hrest, Ne.symm hx]⟩

variable [BEq α]

/-- The complete lines. -/
def complete (sep : α) (xs : List α) : List (List α) := (xs.splitOn sep).dropLast

/-- **What is left of the lines** when the text has lost its beginning. -/
lemma complete_of_suffix (h : xs <:+ ys) : ∀ l ∈ complete sep xs, ∃ l' ∈ complete sep ys, l <:+ l' := by
  obtain ⟨zs, rfl⟩ := h
  induction zs with
  | nil => exact fun l hl => ⟨l, hl, List.suffix_refl l⟩
  | cons z zs ih =>
      intro l hl
      obtain ⟨l', hl', hsuffix⟩ := ih l hl
      rw [List.cons_append, complete, List.splitOn_cons_eq_if_modifyHead]
      rw [complete] at hl'
      split
      next =>
        rw [List.dropLast_cons_of_ne_nil (List.splitOn_ne_nil _ _)]
        exact ⟨l', .tail _ hl', hsuffix⟩
      next =>
        -- The first line has grown at its front, if it is complete.
        cases hsplit : (zs ++ xs).splitOn sep with
        | nil => exact absurd hsplit (List.splitOn_ne_nil _ _)
        | cons first rest =>
            rw [hsplit] at hl'
            cases rest with
            | nil => simp at hl'
            | cons second rest =>
                rcases List.mem_cons.mp hl' with rfl | hl'
                · exact ⟨z :: l', .head _, hsuffix.trans (List.suffix_cons _ _)⟩
                · exact ⟨l', .tail _ hl', hsuffix⟩

variable [LawfulBEq α]

lemma complete_of_not_mem (h : sep ∉ xs) : complete sep xs = [] := by
  rw [complete, List.splitOn_eq_singleton h]
  rfl

lemma complete_append_cons (xs ys : List α) :
    complete sep (xs ++ sep :: ys) = xs.splitOn sep ++ complete sep ys := by
  rw [complete, List.splitOn_append_cons_self, List.dropLast_append_of_ne_nil (List.splitOn_ne_nil _ _),
    complete]

lemma complete_line (h : sep ∉ l) (ys : List α) :
    complete sep (l ++ sep :: ys) = l :: complete sep ys := by
  rw [complete_append_cons, List.splitOn_eq_singleton h, List.singleton_append]

/-- **Reading on.** -/
lemma complete_append (h : AtEnd sep xs) (ys : List α) :
    complete sep (xs ++ ys) = complete sep xs ++ complete sep ys := by
  rcases h with rfl | ⟨zs, rfl⟩
  · rw [complete_of_not_mem List.not_mem_nil, List.nil_append, List.nil_append]
  · rw [List.append_assoc, List.singleton_append, complete_append_cons, complete_append_cons,
      complete_of_not_mem List.not_mem_nil, List.append_nil]

/-- **What is there of the lines** when the text has not come to its end. -/
lemma complete_prefix (h : xs <+: ys) : complete sep xs <+: complete sep ys := by
  obtain ⟨zs, rfl⟩ := h
  obtain ⟨front, rest, rfl, hfront, hrest⟩ := exists_atEnd sep xs
  rw [complete_append hfront, complete_of_not_mem hrest, List.append_nil, List.append_assoc,
    complete_append hfront]
  exact List.prefix_append _ _

/-! ## Joined pieces -/

omit [BEq α] [LawfulBEq α] in
/-- What has no separator in it stands on one side of a separator. -/
lemma infix_append_cons (h : sep ∉ l) (xs ys : List α) :
    l <:+: xs ++ sep :: ys ↔ l <:+: xs ∨ l <:+: ys := by
  rw [List.infix_append_iff, List.infix_cons_iff]
  have hbegins {l' : List α} (hmem : sep ∉ l') (hpre : l' <+: sep :: ys) : l' = [] := by
    rcases List.prefix_cons_iff.mp hpre with rfl | ⟨t, rfl, -⟩
    · rfl
    · exact absurd List.mem_cons_self hmem
  constructor
  · rintro (hxs | (hpre | hys) | ⟨l₁, l₂, rfl, hsuffix, hpre⟩)
    · exact .inl hxs
    · exact .inl (hbegins h hpre ▸ List.nil_infix)
    · exact .inr hys
    · obtain rfl := hbegins (fun hmem => h (List.mem_append_right _ hmem)) hpre
      rw [List.append_nil]
      exact .inl hsuffix.isInfix
  · rintro (hxs | hys)
    · exact .inl hxs
    · exact .inr (.inl (.inr hys))

omit [BEq α] [LawfulBEq α] in
/-- It stands in one of the pieces that have been joined. -/
lemma infix_intercalate {pieces : List (List α)} (h : sep ∉ l) (hne : l ≠ []) :
    l <:+: [sep].intercalate pieces ↔ ∃ x ∈ pieces, l <:+: x := by
  induction pieces with
  | nil => simp [hne]
  | cons x pieces ih =>
      cases pieces with
      | nil => simp
      | cons y pieces =>
          rw [List.intercalate_cons_cons, List.append_assoc, List.singleton_append,
            infix_append_cons h, ih]
          simp

end Lines
