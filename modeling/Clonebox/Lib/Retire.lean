import Clonebox.Lib.Machine

/-! # Threads that have come to their end

A thread that is over takes no further step, so what it was is of no account to what comes after. A
configuration whose first threads are over behaves like the one in which other threads, that have
done nothing, stand in their places. -/

namespace Conc

variable {S : Sig} {ε ρ W C E M : Type} {K : Machine S ε ρ W C E M}

namespace Thread

/-- The thread takes no further step by itself. -/
def Idle (th : Thread S ε ρ M) : Prop := th.stopped = false → ∀ op k, th.prog ≠ .call op k

/-- A thread that was ended before its first call. -/
def spent (prog : M → Prog S ε ρ) (m : M) : Thread S ε ρ M := (start prog none m).stop

theorem Idle.stop {th : Thread S ε ρ M} : th.stop.Idle := nofun

end Thread

namespace Machine

/-- The first `n` threads are replaced by spent ones. -/
def retire (K : Machine S ε ρ W C E M) (m : M) (n : Nat) (c : Conf S ε ρ W M) : Conf S ε ρ W M :=
  { c with threads := c.threads.mapIdx fun i th => if i < n then .spent K.prog m else th }

variable {m : M} {n : Nat} {c c' : Conf S ε ρ W M} {a : Action C E M}

@[simp] theorem retire_world : (K.retire m n c).world = c.world := rfl

@[simp] theorem retire_length : (K.retire m n c).threads.length = c.threads.length := by
  simp [retire]

theorem retire_old {i : Nat} (h : i < n) :
    (K.retire m n c).threads[i]? = (c.threads[i]?).map fun _ => .spent K.prog m := by
  simp [retire, h]

theorem retire_new {i : Nat} (h : n ≤ i) : (K.retire m n c).threads[i]? = c.threads[i]? := by
  simp [retire, Nat.not_lt.mpr h]

/-- The threads of a configuration are those of another, from the `n`th on. -/
theorem retire_eq {ths : List (Thread S ε ρ M)}
    (hold : ∀ i < n, ths[i]? = (c.threads[i]?).map fun _ => .spent K.prog m)
    (hnew : ∀ i ≥ n, ths[i]? = c.threads[i]?) : (⟨c.world, ths⟩ : Conf S ε ρ W M) = K.retire m n c := by
  refine congrArg (Conf.mk c.world) (List.ext_getElem? fun i => ?_)
  rcases Nat.lt_or_ge i n with hlt | hge
  · exact (hold i hlt).trans (retire_old hlt).symm
  · exact (hnew i hge).trans (retire_new hge).symm

/-- What comes after the first threads is kept apart from them. -/
theorem retire_append {l : List (Thread S ε ρ M)} (hn : n ≤ c.threads.length) :
    K.retire m n ⟨c.world, c.threads ++ l⟩ = ⟨c.world, (K.retire m n c).threads ++ l⟩ := by
  refine (retire_eq (fun i hi => ?_) fun i hi => ?_).symm
  · have hlt : i < c.threads.length := Nat.lt_of_lt_of_le hi hn
    rw [List.getElem?_append_left (by simpa using hlt), List.getElem?_append_left hlt, retire_old hi]
  · simp only [List.getElem?_append, retire_length, retire_new hi]

/-- If the first `n` threads are over, a step is a step without them. -/
theorem step_retire (hn : n ≤ c.threads.length)
    (hidle : ∀ (i : Nat) th, i < n → c.threads[i]? = some th → th.Idle)
    (h : K.step c a = some c') : K.step (K.retire m n c) a = some (K.retire m n c') := by
  cases a with
  | call t ch =>
    obtain ⟨th, op, k, r, w, ht, hst, hp, hx, rfl⟩ := step_call h
    have hge : n ≤ t := by
      rcases Nat.lt_or_ge t n with hlt | hge
      · exact (hidle t th hlt ht hst op k hp).elim
      · exact hge
    have ht' : (K.retire m n c).threads[t]? = some th := (retire_new hge).trans ht
    rw [step_of_exec ht' hst hp hx]
    have hset : n ≤ (c.threads.set t (th.answer op k r)).length := by simpa using hn
    have happ := retire_append (K := K) (m := m) (c := ⟨w, c.threads.set t (th.answer op k r)⟩)
      (l := K.born t th op k r) hset
    rw [happ]
    refine congrArg some (congrArg (fun ths => Conf.mk w (ths ++ _)) ?_)
    refine congrArg Conf.threads (retire_eq (c := ⟨w, c.threads.set t (th.answer op k r)⟩)
      (fun i hi => ?_) fun i hi => ?_)
    · have hne : t ≠ i := by omega
      rw [List.getElem?_set_ne hne, List.getElem?_set_ne hne, retire_old hi]
    · simp only [List.getElem?_set, retire_length, retire_new hi]
  | invoke m' =>
    obtain ⟨hm, rfl⟩ := step_invoke h
    rw [retire_append hn]
    simp [step, hm]
  | env e =>
    obtain ⟨w, hw, rfl⟩ := step_env h
    simp only [step, retire_world, hw]
    refine congrArg some (retire_eq (c := ⟨w, _⟩) (fun i hi => ?_) fun i hi => ?_)
    · have hsame : (if K.halts e (Thread.spent K.prog m).main then (Thread.spent K.prog m).stop
          else Thread.spent K.prog m) = Thread.spent K.prog m := by
        split <;> rfl
      rw [List.getElem?_map, retire_old hi, List.getElem?_map, Option.map_map, Option.map_map]
      exact congrArg (fun f => Option.map f _) (funext fun _ => hsame)
    · rw [List.getElem?_map, retire_new hi, List.getElem?_map]
  | crash t =>
    obtain ⟨th, ht, rfl⟩ := step_crash h
    rcases Nat.lt_or_ge t n with hlt | hge
    · have ht' : (K.retire m n c).threads[t]? = some (.spent K.prog m) := by
        rw [retire_old hlt, ht]
        rfl
      simp only [step, ht', retire_world]
      refine congrArg some (retire_eq (c := ⟨_, _⟩) (fun i hi => ?_) fun i hi => ?_)
      · rcases eq_or_ne t i with rfl | hne
        · have hlen : t < c.threads.length := Nat.lt_of_lt_of_le hlt hn
          rw [List.getElem?_set_self (by simpa using hlen), List.getElem?_set_self hlen]
          rfl
        · rw [List.getElem?_set_ne hne, List.getElem?_set_ne hne, retire_old hi]
      · have hne : t ≠ i := by omega
        rw [List.getElem?_set_ne hne, List.getElem?_set_ne hne, retire_new hi]
    · have ht' : (K.retire m n c).threads[t]? = some th := (retire_new hge).trans ht
      simp only [step, ht', retire_world]
      refine congrArg some (retire_eq (c := ⟨_, _⟩) (fun i hi => ?_) fun i hi => ?_)
      · have hne : t ≠ i := by omega
        rw [List.getElem?_set_ne hne, List.getElem?_set_ne hne, retire_old hi]
      · simp only [List.getElem?_set, retire_length, retire_new hi]

/-- A thread that is over stays over, and as it was but for its end. -/
theorem step_idle {i : Nat} {th : Thread S ε ρ M} (h : K.step c a = some c')
    (hi : c.threads[i]? = some th) (hidle : th.Idle) :
    ∃ th', c'.threads[i]? = some th' ∧ th'.Idle ∧ th'.main = th.main ∧ th'.trace = th.trace ∧
      th'.prog = th.prog := by
  obtain ⟨th', hi', rfl | rfl | ⟨op, k, r, ch, -, hst, hp, -, -⟩⟩ := step_persists h hi
  · exact ⟨th', hi', hidle, rfl, rfl, rfl⟩
  · exact ⟨th.stop, hi', .stop, rfl, rfl, rfl⟩
  · exact (hidle hst op k hp).elim

end Machine
end Conc
