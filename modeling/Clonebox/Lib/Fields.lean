import Mathlib.Data.List.TakeWhile

/-! # The fields of a delimited text

A text is cut at its delimiters, and no field holds one. Where a part of the text holds none either,
it lies within a field. -/

namespace Conc

variable {α : Type} {p : α → Bool} {xs l w : List α}

/-- A text is one field, or a field, a delimiter and a text. -/
theorem fields_induction {motive : List α → Prop} (p : α → Bool)
    (whole : ∀ l, (∀ x ∈ l, p x = false) → motive l)
    (cut : ∀ l a rest, (∀ x ∈ l, p x = false) → p a = true → motive rest → motive (l ++ a :: rest)) :
    ∀ xs, motive xs := by
  intro xs
  induction hn : xs.length using Nat.strongRecOn generalizing xs with
  | ind n ih =>
    cases hrest : xs.dropWhile fun x => !p x with
    | nil =>
      refine whole xs fun x hx => ?_
      have hall := List.dropWhile_eq_nil_iff.mp hrest x hx
      rwa [Bool.not_eq_true'] at hall
    | cons a rest =>
      have hsplit : xs = (xs.takeWhile fun x => !p x) ++ a :: rest := by
        rw [← hrest, List.takeWhile_append_dropWhile]
      have hfield : ∀ x ∈ xs.takeWhile fun x => !p x, p x = false := by
        intro x hx
        have htake := List.mem_takeWhile_imp hx
        rwa [Bool.not_eq_true'] at htake
      have ha : p a = true := by
        have hhead := List.head?_dropWhile_not (fun x => !p x) xs
        rw [hrest] at hhead
        simpa using hhead
      have hlt : rest.length < n := by
        have hlen := congrArg List.length hsplit
        rw [List.length_append, List.length_cons] at hlen
        omega
      rw [hsplit]
      exact cut _ a rest hfield ha (ih _ hlt rest rfl)

/-- No field holds a delimiter. -/
theorem field_clean (h : l ∈ xs.splitOnP p) : ∀ x ∈ l, p x = false := by
  induction xs using fields_induction p with
  | whole l' hclean =>
    rw [List.splitOnP_eq_singleton hclean] at h
    obtain rfl := List.mem_singleton.mp h
    exact hclean
  | cut l' a rest hclean ha ih =>
    rw [List.splitOnP_append_cons_of_forall_mem hclean a ha] at h
    rcases List.mem_cons.mp h with rfl | h
    · exact hclean
    · exact ih h

theorem field_within (h : l ∈ xs.splitOnP p) : l <:+: xs := by
  induction xs using fields_induction p with
  | whole l' hclean =>
    rw [List.splitOnP_eq_singleton hclean] at h
    obtain rfl := List.mem_singleton.mp h
    exact List.infix_rfl
  | cut l' a rest hclean ha ih =>
    rw [List.splitOnP_append_cons_of_forall_mem hclean a ha] at h
    rcases List.mem_cons.mp h with rfl | h
    · exact List.infix_append_left
    · exact (ih h).trans (List.infix_append_of_infix_right (List.infix_cons List.infix_rfl))

/-- What begins before a delimiter ends before it. -/
theorem prefix_cut {a : α} (h : w <+: a :: xs) (hw : a ∉ w) : w = [] := by
  rcases List.prefix_cons_iff.mp h with rfl | ⟨w', rfl, -⟩
  · rfl
  · exact (hw List.mem_cons_self).elim

/-- What holds no delimiter lies on one side of it. -/
theorem infix_cut {a : α} (h : w <:+: l ++ a :: xs) (hw : a ∉ w) : w <:+: l ∨ w <:+: xs := by
  rcases List.infix_append_iff.mp h with h | h | ⟨w₁, w₂, rfl, h₁, h₂⟩
  · exact .inl h
  · rcases List.infix_cons_iff.mp h with h | h
    · rw [prefix_cut h hw]
      exact .inl (List.nil_infix)
    · exact .inr h
  · have hnil : w₂ = [] := prefix_cut h₂ fun hmem => hw (List.mem_append_right _ hmem)
    rw [hnil, List.append_nil]
    exact .inl h₁.isInfix

/-- A part of the text without a delimiter lies within a field. -/
theorem infix_iff_field (hw : ∀ x ∈ w, p x = false) :
    w <:+: xs ↔ ∃ l ∈ xs.splitOnP p, w <:+: l := by
  constructor
  · intro h
    induction xs using fields_induction p with
    | whole l hclean =>
      rw [List.splitOnP_eq_singleton hclean]
      exact ⟨l, List.mem_singleton_self l, h⟩
    | cut l a rest hclean ha ih =>
      have hnot : a ∉ w := by
        intro hmem
        rw [hw a hmem] at ha
        contradiction
      rw [List.splitOnP_append_cons_of_forall_mem hclean a ha]
      rcases infix_cut h hnot with h | h
      · exact ⟨l, List.mem_cons_self, h⟩
      · obtain ⟨l', hl', h⟩ := ih h
        exact ⟨l', List.mem_cons_of_mem _ hl', h⟩
  · rintro ⟨l, hl, h⟩
    exact h.trans (field_within hl)

variable [DecidableEq α] {a : α}

theorem not_mem_field (h : l ∈ xs.splitOn a) : a ∉ l := by
  rw [List.splitOn_eq_splitOnP] at h
  intro hmem
  have hclean := field_clean h a hmem
  simp at hclean

theorem mem_of_mem_field {x : α} (h : l ∈ xs.splitOn a) (hx : x ∈ l) : x ∈ xs := by
  rw [List.splitOn_eq_splitOnP] at h
  exact (field_within h).subset hx

end Conc
