import Clonebox.Lib.Reaches
import Clonebox.Core.Container

/-! # Runs of the core's functions

How the small functions that the others are made of can have come to their end. -/

namespace Clonebox
open Conc Prog

variable {ε α : Type} {tr : List Sys.Ev}

theorem reaches_sys {op : Op} {r : op.Ret} (h : Reaches (sys op : Prog Sys ε _) tr (.ret r)) :
    tr = [⟨op, r⟩] := by
  rcases h.of_call with ⟨-, he⟩ | ⟨r', tr', rfl, hret⟩
  · cases he
  · obtain ⟨rfl, he⟩ := hret.of_ret
    cases he
    rfl

theorem reaches_mapErr {δ : Type} {p : Prog Sys ε (Except δ α)} {f : δ → ε} {a : α}
    (h : Reaches (mapErr p f) tr (.ret a)) : Reaches p tr (.ret (.ok a)) := by
  obtain ⟨tr₁, tr₂, r, rfl, h₁, h₂⟩ := h.of_bind_ret
  cases r with
  | error e => cases (Reaches.of_fail h₂).2
  | ok b =>
    obtain ⟨rfl, he⟩ := Reaches.of_ret h₂
    cases he
    rwa [List.append_nil]

theorem sys_not_fail {op : Op} {e : CoreError} : ¬Reaches (sys op) tr (.fail e) := by
  intro h
  rcases h.of_call with ⟨-, he⟩ | ⟨r, tr', rfl, hret⟩
  · cases he
  · cases hret.of_ret.2

theorem mapErr_fail {δ : Type} {p : Core (Except δ α)} {f : δ → CoreError} {e : CoreError}
    (h : Reaches (mapErr p f) tr (.fail e)) :
    Reaches p tr (.fail e) ∨ ∃ d, Reaches p tr (.ret (.error d)) := by
  rcases h.of_bind_fail with h | ⟨tr₁, tr₂, r, rfl, h₁, h₂⟩
  · exact .inl h
  · cases r with
    | ok a => cases (Reaches.of_ret h₂).2
    | error d =>
      obtain ⟨rfl, -⟩ := Reaches.of_fail h₂
      exact .inr ⟨d, by rwa [List.append_nil]⟩

theorem throwIf_nil {c : Prop} [Decidable c] {e : CoreError} {q : Core Unit}
    (h : Reaches (throwIf c e) tr q) : tr = [] := by
  unfold throwIf at h
  split at h
  · exact h.of_fail.1
  · exact h.of_ret.1

theorem unixAddr_ret {p a : Path} (h : Reaches (unixAddr p) tr (.ret a)) : tr = [] ∧ a = p := by
  obtain ⟨_, _, _, rfl, h₁, h₂⟩ := h.of_bind_ret
  obtain ⟨rfl, he⟩ := h₂.of_ret
  cases he
  exact ⟨congrArg (· ++ []) (throwIf_nil h₁), rfl⟩

theorem unixAddr_fail {p : Path} {e : CoreError} (h : Reaches (unixAddr p) tr (.fail e)) :
    tr = [] := by
  rcases h.of_bind_fail with h | ⟨_, _, _, rfl, -, h⟩
  · exact throwIf_nil h
  · cases h.of_ret.2

/-- A call of the child that was not answered by an error. -/
theorem childTry_ret {p : Prog Sys ε (Io Unit)} {u : Unit} (h : Reaches (childTry p) tr (.ret u)) :
    Reaches p tr (.ret (.ok ())) := by
  obtain ⟨_, _, r, rfl, hp, hmatch⟩ := h.of_bind_ret
  cases r with
  | ok _ =>
    obtain ⟨rfl, -⟩ := hmatch.of_ret
    rwa [List.append_nil]
  | error e =>
    rcases hmatch.of_call with ⟨-, he⟩ | ⟨_, _, -, hend⟩
    · cases he
    · cases hend.of_halt.2

theorem Calls.childTry {φ : Op → Prop} {p : Prog Sys ε (Io Unit)} (hp : Prog.Calls (S := Sys) φ p)
    (hexit : φ (.exit 1)) : Prog.Calls (S := Sys) φ (childTry p) := by
  refine Prog.Calls.bind hp fun r => ?_
  cases r with
  | ok _ => trivial
  | error e => exact ⟨hexit, fun _ => trivial⟩

theorem mountChild_ret {src : Option String} {dest : String} {mountType : Option String}
    {flags : List MsFlag} {data : Option String} {u : Unit}
    (h : Reaches (mountChild src dest mountType flags data) tr (.ret u)) :
    tr = [⟨.mount src dest mountType flags data, .ok ()⟩] :=
  reaches_sys (childTry_ret h)

end Clonebox
