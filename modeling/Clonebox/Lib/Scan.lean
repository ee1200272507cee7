import Mathlib.Data.List.Basic

/-! # Reading a value off the front of a text

A reader takes a value off the front of a text and leaves the rest. Two laws say what more text
behind it changes: nothing (`Closed`), or nothing unless the reader has come to the end (`Extends`).
A reader of a repetition counts its steps down, and `Within` says that more steps read no less. -/

namespace Scan

variable {α β : Type}

abbrev Reader (α : Type) := List Char → Option (α × List Char)

namespace Reader

def fail : Reader α := fun _ => none

def done (a : α) : Reader α := fun s => some (a, s)

def next : Reader Char
  | [] => none
  | c :: s => some (c, s)

/-- Put a character back first. -/
def unread (c : Char) (p : Reader α) : Reader α := fun s => p (c :: s)

def andThen (p : Reader α) (f : α → Reader β) : Reader β := fun s => (p s).bind fun x => f x.1 x.2

def map (p : Reader α) (f : α → β) : Reader β := p.andThen fun a => done (f a)

def isSpace (c : Char) : Bool := c = ' ' || c = '\n' || c = '\t' || c = '\r'

def skip (s : List Char) : List Char := s.dropWhile isSpace

/-- The next character that is not a space. -/
def token : Reader Char := fun s => next (skip s)

/-- Values with separators between them, and the character that closes the list. -/
def items (p : Reader α) (sep close : Char) : Nat → Reader (List α)
  | 0 => fail
  | n + 1 => p.andThen fun a => token.andThen fun c =>
      if c = sep then (items p sep close n).map (a :: ·)
      else if c = close then done [a]
      else fail

def list (p : Reader α) (sep close : Char) (n : Nat) : Reader (List α) :=
  token.andThen fun c => if c = close then done [] else unread c (items p sep close n)

/-! ### Text behind what is read -/

/-- More text behind it changes nothing. -/
structure Closed (p : Reader α) : Prop where
  append : ∀ {s a r}, p s = some (a, r) → ∀ t, p (s ++ t) = some (a, r ++ t)

/-- More text behind it changes nothing, unless the reader has come to the end. -/
structure Extends (p : Reader α) : Prop where
  append : ∀ {s a r}, p s = some (a, r) → r ≠ [] → ∀ t, p (s ++ t) = some (a, r ++ t)

section
variable {p : Reader α} {f : α → Reader β}

theorem andThen_some {s : List Char} {x : β × List Char} (h : p.andThen f s = some x) :
    ∃ a r, p s = some (a, r) ∧ f a r = some x := by
  obtain ⟨⟨a, r⟩, hp, hf⟩ := Option.bind_eq_some_iff.mp h
  exact ⟨a, r, hp, hf⟩

theorem andThen_of_some {s r : List Char} {a : α} (h : p s = some (a, r)) :
    p.andThen f s = f a r := by
  rw [andThen, h]
  rfl

theorem map_of_some {s r : List Char} {a : α} (h : p s = some (a, r)) (g : α → β) :
    p.map g s = some (g a, r) := andThen_of_some h

theorem Closed.extends (h : Closed p) : Extends p where
  append hp _ t := h.append hp t

theorem closed_fail : Closed (fail : Reader α) where
  append h := by cases h

theorem closed_done (a : α) : Closed (done a) where
  append h t := by
    cases h
    rfl

theorem closed_next : Closed next where
  append {s _ _} h t := by
    cases s with
    | nil => cases h
    | cons d s =>
      cases h
      rfl

theorem Closed.unread (h : Closed p) (c : Char) : Closed (unread c p) where
  append hp t := h.append (s := c :: _) hp t

theorem Closed.andThen (hp : Closed p) (hf : ∀ a, Closed (f a)) : Closed (p.andThen f) where
  append h t := by
    obtain ⟨a, r₁, h₁, h₂⟩ := andThen_some h
    rw [andThen_of_some (hp.append h₁ t)]
    exact (hf a).append h₂ t

theorem Closed.andThen_extends (hp : Closed p) (hf : ∀ a, Extends (f a)) : Extends (p.andThen f) where
  append h hr t := by
    obtain ⟨a, r₁, h₁, h₂⟩ := andThen_some h
    rw [andThen_of_some (hp.append h₁ t)]
    exact (hf a).append h₂ hr t

/-- What has to be followed by something is closed with what follows it. -/
theorem Extends.andThen (hp : Extends p) (hf : ∀ a, Closed (f a)) (hend : ∀ a, f a [] = none) :
    Closed (p.andThen f) where
  append h t := by
    obtain ⟨a, r₁, h₁, h₂⟩ := andThen_some h
    have hne : r₁ ≠ [] := by
      rintro rfl
      rw [hend a] at h₂
      cases h₂
    rw [andThen_of_some (hp.append h₁ hne t)]
    exact (hf a).append h₂ t

theorem Closed.map (h : Closed p) (g : α → β) : Closed (p.map g) := h.andThen fun _ => closed_done _

theorem Extends.map (h : Extends p) (g : α → β) : Extends (p.map g) where
  append hv hr t := by
    obtain ⟨a, r₁, h₁, h₂⟩ := andThen_some hv
    cases h₂
    exact map_of_some (h.append h₁ hr t) g

theorem closed_ite {c : Prop} [Decidable c] {p q : Reader α} (hp : Closed p) (hq : Closed q) :
    Closed (if c then p else q) := by
  split
  · exact hp
  · exact hq

/-! ### Spaces -/

theorem skip_append {s t : List Char} (h : skip s ≠ []) : skip (s ++ t) = skip s ++ t := by
  rw [skip, List.dropWhile_append, if_neg]
  · rfl
  · simpa [skip] using h

theorem skip_append_of_nil {s t : List Char} (h : skip s = []) : skip (s ++ t) = skip t := by
  rw [skip, List.dropWhile_append, if_pos]
  · rfl
  · simpa [skip] using h

theorem closed_token : Closed token where
  append {s _ _} h t := by
    have hne : skip s ≠ [] := by
      intro hnil
      rw [token, hnil] at h
      cases h
    rw [token, skip_append hne]
    exact closed_next.append h t

theorem token_cons {c : Char} (h : isSpace c = false) (s : List Char) :
    token (c :: s) = some (c, s) := by
  have hskip : skip (c :: s) = c :: s := List.dropWhile_cons_of_neg (by simp [h])
  rw [token, hskip]
  rfl

theorem token_andThen_nil (f : Char → Reader β) : token.andThen f [] = none := rfl

/-! ### Lists -/

variable {sep close : Char}

theorem Extends.items (h : Extends p) (n : Nat) : Closed (items p sep close n) := by
  induction n with
  | zero => exact closed_fail
  | succ n ih =>
    refine h.andThen (fun a => closed_token.andThen fun c => ?_) fun _ => token_andThen_nil _
    exact closed_ite (ih.map _) (closed_ite (closed_done _) closed_fail)

theorem Extends.list (h : Extends p) (n : Nat) : Closed (list p sep close n) :=
  closed_token.andThen fun c => closed_ite (closed_done _) ((h.items n).unread c)

/-! ### More steps -/

/-- What one reader reads, the other reads as well. -/
structure Within (p q : Reader α) : Prop where
  some : ∀ {s x}, p s = some x → q s = some x

theorem Within.rfl : Within p p := ⟨fun h => h⟩

theorem Within.trans {q r : Reader α} (h : Within p q) (h' : Within q r) : Within p r :=
  ⟨fun hp => h'.some (h.some hp)⟩

theorem within_fail (p : Reader α) : Within fail p where
  some h := by cases h

theorem Within.andThen {q : Reader α} {g : α → Reader β} (h : Within p q)
    (hf : ∀ a, Within (f a) (g a)) : Within (p.andThen f) (q.andThen g) where
  some hx := by
    obtain ⟨a, r, h₁, h₂⟩ := andThen_some hx
    rw [andThen_of_some (h.some h₁)]
    exact (hf a).some h₂

theorem Within.map {q : Reader α} (h : Within p q) (g : α → β) : Within (p.map g) (q.map g) :=
  h.andThen fun _ => Within.rfl

theorem Within.unread {q : Reader α} (h : Within p q) (c : Char) :
    Within (Reader.unread c p) (Reader.unread c q) :=
  ⟨fun hp => h.some hp⟩

theorem within_ite {c : Prop} [Decidable c] {p q p' q' : Reader α} (hp : Within p p')
    (hq : Within q q') : Within (if c then p else q) (if c then p' else q') := by
  split
  · exact hp
  · exact hq

theorem Within.items {q : Reader α} (h : Within p q) (n : Nat) :
    Within (Reader.items p sep close n) (Reader.items q sep close (n + 1)) := by
  induction n with
  | zero => exact within_fail _
  | succ n ih =>
    exact h.andThen fun _ => Within.rfl.andThen fun _ => within_ite (ih.map _) Within.rfl

theorem Within.list {q : Reader α} (h : Within p q) (n : Nat) :
    Within (Reader.list p sep close n) (Reader.list q sep close (n + 1)) :=
  Within.rfl.andThen fun c => within_ite Within.rfl ((h.items n).unread c)

end
end Reader

/-! ### Lists as they are written -/

/-- What follows the first item of a list. -/
def rest (f : α → List Char) (sep close : Char) : List α → List Char
  | [] => [close]
  | a :: l => sep :: (f a ++ rest f sep close l)

/-- A list behind the character that opens it. -/
def join (f : α → List Char) (sep close : Char) : List α → List Char
  | [] => [close]
  | a :: l => f a ++ rest f sep close l

section
variable {f : α → List Char} {p : Reader α} {sep close : Char}

/-- A character may follow an item. -/
def Follows (sep close : Char) (t : List Char) : Prop := ∃ c u, t = c :: u ∧ (c = sep ∨ c = close)

theorem follows_rest (l : List α) (t : List Char) : Follows sep close (rest f sep close l ++ t) := by
  cases l with
  | nil => exact ⟨close, t, rfl, .inr rfl⟩
  | cons a l => exact ⟨sep, _, rfl, .inl rfl⟩

/-- If each item is read back whatever may follow it, so is the list. -/
theorem items_join (hsep : Reader.isSpace sep = false) (hclose : Reader.isSpace close = false)
    (hne : sep ≠ close) {a : α} {l : List α}
    (hp : ∀ b ∈ a :: l, ∀ t, Follows sep close t → p (f b ++ t) = some (b, t)) {n : Nat}
    (hn : l.length < n) (t : List Char) :
    Reader.items p sep close n (f a ++ (rest f sep close l ++ t)) = some (a :: l, t) := by
  induction l generalizing a n with
  | nil =>
    obtain ⟨n, rfl⟩ := Nat.exists_eq_add_one_of_ne_zero (Nat.ne_zero_of_lt hn)
    rw [Reader.items, Reader.andThen_of_some (hp a List.mem_cons_self _ (follows_rest [] t))]
    show Reader.andThen _ _ (close :: t) = _
    rw [Reader.andThen_of_some (Reader.token_cons hclose t), if_neg hne.symm, if_pos rfl]
    rfl
  | cons b l ih =>
    obtain ⟨n, rfl⟩ := Nat.exists_eq_add_one_of_ne_zero (Nat.ne_zero_of_lt hn)
    have htail := ih (a := b) (fun b' hb' => hp b' (List.mem_cons_of_mem a hb'))
      (Nat.lt_of_succ_lt_succ hn)
    rw [Reader.items, Reader.andThen_of_some (hp a List.mem_cons_self _ (follows_rest (b :: l) t))]
    show Reader.andThen _ _ (sep :: (f b ++ rest f sep close l ++ t)) = _
    rw [Reader.andThen_of_some (Reader.token_cons hsep _), if_pos rfl, List.append_assoc,
      Reader.map_of_some htail]

theorem list_join (hsep : Reader.isSpace sep = false) (hclose : Reader.isSpace close = false)
    (hne : sep ≠ close) {l : List α}
    (hp : ∀ b ∈ l, ∀ t, Follows sep close t → p (f b ++ t) = some (b, t))
    (hstart : ∀ b ∈ l, ∃ c s, f b = c :: s ∧ c ≠ close ∧ Reader.isSpace c = false) {n : Nat}
    (hn : l.length ≤ n) (t : List Char) :
    Reader.list p sep close n (join f sep close l ++ t) = some (l, t) := by
  cases l with
  | nil =>
    show Reader.list p sep close n (close :: t) = _
    rw [Reader.list, Reader.andThen_of_some (Reader.token_cons hclose t), if_pos rfl]
    rfl
  | cons a l =>
    obtain ⟨c, s, hs, hc, hspace⟩ := hstart a List.mem_cons_self
    have hitems := items_join hsep hclose hne hp hn t
    rw [hs] at hitems
    rw [join, hs, List.append_assoc, List.cons_append, Reader.list,
      Reader.andThen_of_some (Reader.token_cons hspace _), if_neg hc]
    exact hitems

end
end Scan
