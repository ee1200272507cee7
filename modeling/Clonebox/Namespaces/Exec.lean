import Clonebox.Core.Runs
import Clonebox.Namespaces.Caller
import Mathlib.Tactic.MkIffOfInductiveProp

/-! # The way of `exec` into a container and back

`exec` moves its caller into the four namespaces of the container's first process, forks there, and
moves the caller back. -/

namespace Clonebox
open Conc Prog

variable {α : Type} {P : Procs} {n : Namespaces} {c : Caller} {id : String} {cmd : List String}
variable {p parent : Int} {i : Nat} {tr : List Sys.Ev}

/-! ### The two halves -/

/-- `exec` until both pids are known. -/
def execPids (id : String) : Core (Int × Int) := do
  let state ← readStateFile id
  .throwIf (state.getState ≠ .running) (.containerNotRunning id)
  openLogFile id
  let childPid ← execTarget id state
  let parentPid ← sys .getpid
  pure (childPid, parentPid)

/-- `exec` from there. -/
def visit (id : String) (cmd : List String) (childPid parentPid : Int) : Core Unit := do
  openNamespace parentPid "mnt"
  enterNamespace childPid "uts"
  enterNamespace childPid "pid"
  enterNamespace childPid "net"
  enterNamespace childPid "mnt"
  runInside id cmd parentPid

theorem exec_eq : exec id cmd = (execPids id).bind fun pids => visit id cmd pids.1 pids.2 := by
  simp [exec, execPids, visit, Prog.bind_assoc, Prog.bind]

def Still (p : Core α) : Prop := Calls (S := Sys) (fun op => op.still = true) p

/-- The calls of the first half. -/
theorem execPids_all {φ : Op → Prop} (hread : φ (.read (.inBundle id .stateJson)))
    (hopen : φ (.openFile (.inBundle id .containerLog))) (hgetpid : φ .getpid) :
    Calls (S := Sys) φ (execPids id) := by
  refine Calls.bind (readStateFile_all hread) fun s => Calls.bind calls_throwIf fun _ => ?_
  refine Calls.bind (Clonebox.Calls.mapErr ⟨hopen, fun _ => trivial⟩) fun _ => Calls.bind ?_ fun _ => ?_
  · cases h : s.getPid <;> simp [execTarget, h]
  · exact Calls.bind ⟨hgetpid, fun _ => trivial⟩ fun _ => trivial

theorem execPids_still : Still (execPids id) := execPids_all rfl rfl rfl

/-- The pid that the state file holds. -/
def StatePid (id : String) (tr : List Sys.Ev) (p : Int) : Prop :=
  ∃ s : State, ⟨.read (.inBundle id .stateJson), .ok (.state s)⟩ ∈ tr ∧ s.pid = some p

theorem readStateFile_ret {s : State} (h : Reaches (readStateFile id) tr (.ret s)) :
    ⟨.read (.inBundle id .stateJson), .ok (.state s)⟩ ∈ tr := by
  obtain ⟨_, _, r, rfl, hread, hmatch⟩ := h.of_bind_ret
  cases reaches_sys hread
  rcases r with e | (s | _ | _)
  · by_cases hcode : e.code = Errno.enoent.code
    · simp only [hcode, if_true] at hmatch
      cases hmatch.of_fail.2
    · simp only [hcode, if_false] at hmatch
      cases hmatch.of_fail.2
  · cases hmatch.of_ret.2
    simp
  · cases hmatch.of_fail.2
  · cases hmatch.of_fail.2

theorem execPids_ret (h : Reaches (execPids id) tr (.ret (p, parent))) :
    StatePid id tr p ∧ ⟨.getpid, parent⟩ ∈ tr := by
  obtain ⟨_, _, s, rfl, hstate, h⟩ := h.of_bind_ret
  obtain ⟨_, _, _, rfl, -, h⟩ := h.of_bind_ret
  obtain ⟨_, _, _, rfl, -, h⟩ := h.of_bind_ret
  obtain ⟨_, _, _, rfl, htarget, h⟩ := h.of_bind_ret
  obtain ⟨_, _, _, rfl, hgetpid, h⟩ := h.of_bind_ret
  cases h.of_ret.2
  cases reaches_sys hgetpid
  refine ⟨⟨s, List.mem_append_left _ (readStateFile_ret hstate), ?_⟩, by simp⟩
  cases hpid : s.pid with
  | none =>
    rw [execTarget, State.getPid, hpid] at htarget
    cases htarget.of_fail.2
  | some x =>
    rw [execTarget, State.getPid, hpid] at htarget
    cases htarget.of_ret.2
    rfl

/-- A run of `exec` that has not come to the namespaces, or a run of its second half. -/
theorem exec_reaches {q : Core Unit} (h : Reaches (exec id cmd) tr q) :
    (∀ ev ∈ tr, ev.1.still = true) ∨ ∃ p parent tr₁ tr₂, tr = tr₁ ++ tr₂ ∧
      (∀ ev ∈ tr₁, ev.1.still = true) ∧ StatePid id tr₁ p ∧ ⟨.getpid, parent⟩ ∈ tr₁ ∧
      Reaches (visit id cmd p parent) tr₂ q := by
  rw [exec_eq] at h
  rcases h.of_bind with ⟨p', hp', -⟩ | ⟨tr₁, tr₂, ⟨p, parent⟩, rfl, hpids, hvisit⟩
  · exact .inl (hp'.calls execPids_still).1
  · obtain ⟨hstate, hparent⟩ := execPids_ret hpids
    exact .inr ⟨p, parent, tr₁, tr₂, rfl, (hpids.calls execPids_still).1, hstate, hparent, hvisit⟩

/-! ### The route -/

/-- The links that `exec` moves to. -/
def route (p parent : Int) : List String :=
  [nsPath p "uts", nsPath p "pid", nsPath p "net", nsPath p "mnt", nsPath parent "mnt",
    nsPath parent "uts", nsPath parent "pid", nsPath parent "net"]

/-- The namespaces of the caller after the first `i` moves, if it began in `n`. Its own links for
`uts` and `net` are then those of the namespaces it has moved to. -/
def stop (P : Procs) (n : Namespaces) (p : Int) : Nat → Namespaces
  | 0 => n
  | 1 => { n with uts := P.seen n p .uts }
  | 2 => { n with uts := P.seen n p .uts, children := P.seen n p .pid }
  | 3 => { n with uts := P.seen n p .uts, children := P.seen n p .pid, net := P.seen n p .net }
  | 4 => { n with
      uts := P.seen n p .uts, children := P.seen n p .pid, net := P.seen n p .net,
      mnt := P.seen n p .mnt }
  | 5 | 6 => { n with uts := P.seen n p .uts, children := P.seen n p .pid, net := P.seen n p .net }
  | _ => { n with uts := P.seen n p .uts, children := n.pid, net := P.seen n p .net }

/-- The caller has made `i` moves. -/
structure At (P : Procs) (n : Namespaces) (p parent : Int) (i : Nat) (c : Caller) : Prop where
  ns : c.ns = stop P n p i
  moved : c.moved = (route p parent).take i
  home : c.opened (nsPath parent "mnt") = some (.mnt, n.mnt)

/-- Where the calls of `exec` are made: links are looked up at home, the fork is made after the
fourth move, and the command is run in the forked child. -/
def travel (P : Procs) (n : Namespaces) (p : Int) : Proto Sys Caller where
  may c
    | .openNs _ _ => c.ns.mnt = n.mnt
    | .fork => c.ns = stop P n p 4
    | .execve _ _ _ => c.forked = true ∧ c.ns = (stop P n p 4).forked
    | _ => True
  next c := c.next P
  halts _ := True

/-- `container_exec` does not come back. -/
theorem containerExec_never {Φ : Type} {P : Proto Sys Φ} {I : Φ → Prop} {g : Φ} {args env : Option (List String)}
    {cwd : Option String} {Q : Φ → Except CoreError α → Prop} (hhalts : ∀ g, P.halts g)
    (hexit : ∀ g, P.may g (.exit 1)) (hpanic : ∀ g, P.may g .panic)
    (hlog : ∀ g m, P.may g (.append (.inBundle id .containerLog) m))
    (hcwd : ∀ g d, I g → P.may g (.chdir d) ∧ ∀ r, I (P.next g (.chdir d) r))
    (hexec : ∀ g path args env, I g → P.may g (.execve path args env)) (hI : I g) :
    Obeys P Q g (containerExec args env cwd id) := by
  have hend {g : Φ} : Obeys P Q g (exit 1) := ⟨hexit g, fun _ => hhalts _⟩
  have hcommand {g : Φ} (hI : I g) (path : String) (ca ce : List String) :
      Obeys P Q g (execCommand id path ca ce) := by
    refine obeys_bind.mpr ⟨hexec g path ca ce hI, fun r => ?_⟩
    cases r with
    | ok _ => exact hhalts _
    | error e =>
      refine obeys_bind.mpr (obeys_attempt.mpr ⟨hlog _ _, fun r => ?_⟩)
      cases r <;> exact hend
  have hvec {g : Φ} {Q : Φ → Except CoreError (List String) → Prop} {v : List String} (hQ : Q g (.ok v)) :
      Obeys P Q g (toCstringVec v) := by
    unfold toCstringVec
    split
    · exact ⟨hpanic g, fun _ => hhalts _⟩
    · exact hQ
  unfold containerExec
  split
  · exact hend
  · split
    · exact hend
    · refine obeys_bind.mpr (hvec (obeys_bind.mpr (hvec ?_)))
      cases cwd with
      | none => exact hcommand hI ..
      | some d =>
        obtain ⟨hmay, hnext⟩ := hcwd g d hI
        exact obeys_ite.mpr ⟨fun _ => hend, fun _ => obeys_bind.mpr ⟨hmay, fun r => hcommand (hnext r) ..⟩⟩

theorem containerExec_away {Q : Caller → Except CoreError α → Prop} {args env : Option (List String)}
    {cwd : Option String} (hin : c.forked = true ∧ c.ns = (stop P n p 4).forked) :
    Obeys (travel P n p) Q c (containerExec args env cwd id) :=
  containerExec_never (fun _ => trivial) (fun _ => trivial) (fun _ => trivial) (fun _ _ => trivial)
    (fun _ _ hin => ⟨trivial, fun _ => hin⟩) (fun _ _ _ _ hin => hin) hin

section
variable (hme : P.who n.mnt (toString parent) = P.me)
include hme

/-- A link that is looked up at home is opened. That to the caller's own mount namespace is not
lost. -/
theorem At.opens {pid : Int} {k : NsKind} (h : At P n p parent i c) (hhome : (stop P n p i).mnt = n.mnt) :
    At P n p parent i (c.next P (.openNs pid k.name) (.ok ())) ∧
      (c.next P (.openNs pid k.name) (.ok ())).opened (nsPath pid k.name) =
        some (k, P.seen (stop P n p i) pid k) := by
  rw [Caller.next_openNs, h.ns]
  refine ⟨⟨rfl, h.moved, ?_⟩, Function.update_self ..⟩
  show Function.update c.opened (nsPath pid k.name) _ (nsPath parent NsKind.mnt.name) = _
  by_cases hsame : nsPath parent NsKind.mnt.name = nsPath pid k.name
  · obtain ⟨hpid, rfl⟩ := nsPath_inj.mp hsame
    have hmnt : P.seen (stop P n p i) pid .mnt = n.mnt := by
      rw [P.seen_me (by rw [hhome, ← hpid]; exact hme), Namespaces.own, hhome]
    rw [hmnt, ← hsame]
    exact Function.update_self ..
  · rw [Function.update_of_ne hsame]
    exact h.home

omit hme in
theorem At.moves {path : String} {k : NsKind} {ns : Nat} (h : At P n p parent i c)
    (hopen : c.opened path = some (k, ns)) (hroute : (route p parent)[i]? = some path)
    (hstop : (stop P n p i).enter ns k = stop P n p (i + 1)) :
    At P n p parent (i + 1) (c.next P (.setns path) (.ok ())) := by
  rw [Caller.next_setns hopen]
  refine ⟨?_, ?_, h.home⟩
  · rw [h.ns, hstop]
  · rw [List.take_add_one, hroute, h.moved]
    rfl

theorem enter_at {Q : Caller → Except CoreError Unit → Prop} {pid : Int} (k : NsKind)
    (h : At P n p parent i c) (hroute : (route p parent)[i]? = some (nsPath pid k.name))
    (hhome : (stop P n p i).mnt = n.mnt)
    (hstop : (stop P n p i).enter (P.seen (stop P n p i) pid k) k = stop P n p (i + 1))
    (hok : ∀ c', At P n p parent (i + 1) c' → Q c' (.ok ()))
    (herr : ∀ c' e, At P n p parent i c' → Q c' (.error e)) :
    Obeys (travel P n p) Q c (enterNamespace pid k.name) := by
  have hlookup : c.ns.mnt = n.mnt := by rw [h.ns, hhome]
  refine obeys_bind.mpr (obeys_bind.mpr ⟨hlookup, fun r => ?_⟩)
  cases r with
  | error e => exact herr _ _ h
  | ok _ =>
    obtain ⟨hat, hopen⟩ := h.opens hme hhome
    refine ⟨trivial, fun r => ?_⟩
    cases r with
    | error e => exact herr _ _ hat
    | ok _ => exact hok _ (hat.moves hopen hroute hstop)

/-- The fork and the way back. -/
theorem runInside_at {Q : Caller → Except CoreError Unit → Prop} (h : At P n p parent 4 c)
    (hat : ∀ c' r i, At P n p parent i c' → Q c' r) :
    Obeys (travel P n p) Q c (runInside id cmd parent) := by
  -- at home again, the caller's own links for `uts` and `net` are those of where it is
  have hown {i : Nat} {k : NsKind} (hhome : (stop P n p i).mnt = n.mnt) :
      P.seen (stop P n p i) parent k = (stop P n p i).own k := P.seen_me (by rw [hhome]; exact hme)
  refine obeys_bind.mpr ⟨h.ns, fun r => ?_⟩
  rw [obeys_ret, andThen_ok]
  split
  · exact hat _ _ 4 h
  · exact containerExec_away ⟨rfl, congrArg Namespaces.forked h.ns⟩
  · rename_i pid hchild
    have hfork : c.next P .fork (.ok pid) = c := Caller.next_fork_parent hchild
    have hstay : At P n p parent 4 (c.next P .fork (.ok pid)) := by rwa [hfork]
    refine obeys_bind.mpr (obeys_bind.mpr ⟨trivial, fun r => ?_⟩)
    cases r with
    | error e => exact hat _ _ 4 hstay
    | ok _ =>
      refine obeys_bind.mpr ⟨trivial, fun r => ?_⟩
      cases r with
      | error e =>
        refine obeys_bind.mpr (obeys_attempt.mpr ⟨trivial, fun r => ?_⟩)
        cases r <;> exact hat _ _ 4 hstay
      | ok _ =>
        have h₅ := hstay.moves hstay.home rfl rfl
        refine obeys_bind.mpr (enter_at hme .uts h₅ rfl rfl ?_ (fun c₆ h₆ => ?_) fun _ _ => hat _ _ 5)
        · rw [hown rfl]
          rfl
        refine obeys_bind.mpr (enter_at hme .pid h₆ rfl rfl ?_ (fun c₇ h₇ => ?_) fun _ _ => hat _ _ 6)
        · rw [hown rfl]
          rfl
        refine enter_at hme .net h₇ rfl rfl ?_ (fun c₈ h₈ => hat _ _ 8 h₈) fun _ _ => hat _ _ 7
        rw [hown rfl]
        rfl

/-- However `exec` comes back, the caller has made some of the moves. -/
theorem visit_at {Q : Caller → Except CoreError Unit → Prop} (hns : c.ns = n) (hmoved : c.moved = [])
    (hQ : ∀ c' r i, c'.ns = stop P n p i → c'.moved = (route p parent).take i → Q c' r) :
    Obeys (travel P n p) Q c (visit id cmd p parent) := by
  have hat {c' : Caller} {r : Except CoreError Unit} {i : Nat} (h : At P n p parent i c') : Q c' r :=
    hQ c' r i h.ns h.moved
  refine obeys_bind.mpr (obeys_bind.mpr ⟨congrArg Namespaces.mnt hns, fun r => ?_⟩)
  cases r with
  | error e => exact hQ _ _ 0 hns hmoved
  | ok _ =>
    have hstart : At P n p parent 0 (c.next P (.openNs parent NsKind.mnt.name) (.ok ())) := by
      rw [Caller.next_openNs]
      refine ⟨hns, hmoved, ?_⟩
      rw [hns, P.seen_me hme]
      exact Function.update_self ..
    refine obeys_bind.mpr (enter_at hme .uts hstart rfl rfl rfl (fun c₁ h₁ => ?_) fun _ _ => hat)
    refine obeys_bind.mpr (enter_at hme .pid h₁ rfl rfl rfl (fun c₂ h₂ => ?_) fun _ _ => hat)
    refine obeys_bind.mpr (enter_at hme .net h₂ rfl rfl rfl (fun c₃ h₃ => ?_) fun _ _ => hat)
    refine obeys_bind.mpr (enter_at hme .mnt h₃ rfl rfl rfl (fun c₄ h₄ => ?_) fun _ _ => hat)
    exact runInside_at hme h₄ fun _ _ _ => hat

end

/-! ### The caller comes back -/

/-- The caller of a run has moved to this link. -/
def MovedTo (pid : Int) (k : NsKind) (tr : List Sys.Ev) : Prop :=
  ⟨.setns (nsPath pid k.name), .ok ()⟩ ∈ tr

/-- Each namespace of the container the caller has moved to is its own already, or was left again;
and if the caller has moved back to its own pid namespace, that is where its children were made
before. -/
@[mk_iff]
structure ComesHome (P : Procs) (n : Namespaces) (p parent : Int) (tr : List Sys.Ev) : Prop where
  uts : MovedTo p .uts tr → P.seen n p .uts = n.uts
  net : MovedTo p .net tr → P.seen n p .net = n.net
  mnt : MovedTo p .mnt tr → MovedTo parent .mnt tr ∨ P.seen n p .mnt = n.mnt
  pid : MovedTo p .pid tr → MovedTo parent .pid tr ∨ P.seen n p .pid = n.children
  back : MovedTo parent .pid tr → n.pid = n.children

theorem comesHome_of_still (h : ∀ ev ∈ tr, ev.1.still = true) : ComesHome P n p parent tr := by
  have hnone (pid : Int) (k : NsKind) : ¬MovedTo pid k tr := fun hmem => Bool.noConfusion (h _ hmem)
  exact ⟨fun h => (hnone _ _ h).elim, fun h => (hnone _ _ h).elim, fun h => (hnone _ _ h).elim,
    fun h => (hnone _ _ h).elim, fun h => (hnone _ _ h).elim⟩

/-- After each number of moves. -/
theorem restored_iff {i : Nat} (hme : P.who n.mnt (toString parent) = P.me)
    (hmoved : ∀ pid k, MovedTo pid k tr ↔ nsPath pid k.name ∈ (route p parent).take i) :
    stop P n p i = n ↔ ComesHome P n p parent tr := by
  have hroute : route p parent = [nsPath p NsKind.uts.name, nsPath p NsKind.pid.name,
    nsPath p NsKind.net.name, nsPath p NsKind.mnt.name, nsPath parent NsKind.mnt.name,
    nsPath parent NsKind.uts.name, nsPath parent NsKind.pid.name, nsPath parent NsKind.net.name] := rfl
  obtain ⟨uts, pid, net, mnt, children⟩ := n
  rw [comesHome_iff]
  simp only [hmoved, hroute]
  by_cases hsame : p.repr = parent.repr
  · -- the links of the container are the caller's own
    have hseen (k : NsKind) : P.seen ⟨uts, pid, net, mnt, children⟩ p k =
        Namespaces.own ⟨uts, pid, net, mnt, children⟩ k := by
      refine P.seen_me ?_
      have hpid : toString p = toString parent := hsame
      rwa [hpid]
    match i with
    | 0 => simp [stop]
    | 1 | 2 | 3 | 4 | 5 | 6 | 7 | _ + 8 => simp [stop, nsPath_inj, hsame, hseen, Namespaces.own]
  · have hsame' : ¬parent.repr = p.repr := fun h => hsame h.symm
    match i with
    | 0 => simp [stop]
    | 1 | 2 | 3 | 4 | 5 | 6 | 7 | _ + 8 => simp [stop, nsPath_inj, hsame, hsame', and_assoc, and_comm, and_left_comm]

/-- The calls of a run of `exec` are made where they should be. -/
theorem exec_travels {q : Core Unit} (h : Reaches (exec id cmd) tr q)
    (hparent : ∀ r : Int, ⟨.getpid, r⟩ ∈ tr → r = parent) (hme : P.who n.mnt (toString parent) = P.me)
    (hp : ∀ r, StatePid id tr r → r = p) : (travel P n p).Follows (.ofNs n) tr := by
  have hmay {c : Caller} {tr tr' : List Sys.Ev} (hstill : ∀ ev ∈ tr, ev.1.still = true)
      (h : (travel P n p).Follows c tr') : (travel P n p).Follows c (tr ++ tr') := by
    induction tr with
    | nil => exact h
    | cons ev tr ih =>
      have hev : ev.1.still = true := hstill ev List.mem_cons_self
      refine ⟨?_, ?_⟩
      · obtain ⟨op, r⟩ := ev
        cases op <;> trivial
      · have hstay : (travel P n p).next c ev.1 ev.2 = c := Caller.next_still hev
        rw [hstay]
        exact ih fun ev hmem => hstill ev (List.mem_cons_of_mem _ hmem)
  rcases exec_reaches h with hstill | ⟨p', parent', tr₁, tr₂, rfl, hstill, ⟨s, hs, hpid⟩, hself, hvisit⟩
  · rw [← List.append_nil tr]
    exact hmay hstill trivial
  · obtain rfl : p' = p := hp p' ⟨s, List.mem_append_left _ hs, hpid⟩
    obtain rfl : parent' = parent := hparent parent' (List.mem_append_left _ hself)
    have hobeys : Obeys (travel P n p') (fun _ _ => True) (.ofNs n) (visit id cmd p' parent') :=
      visit_at hme rfl rfl fun _ _ _ _ _ => trivial
    exact hmay hstill (hvisit.obeys hobeys).1

/-- When `exec` has come back to its caller, with or without an error, the caller's namespaces are
what they were if and only if nothing was left to be undone. -/
theorem exec_restores {q : Core Unit} (h : Reaches (exec id cmd) tr q)
    (hback : q = .ret () ∨ ∃ e, q = .fail e) (hparent : ∀ r : Int, ⟨.getpid, r⟩ ∈ tr → r = parent)
    (hme : P.who n.mnt (toString parent) = P.me) (hp : ∀ r, StatePid id tr r → r = p) :
    (Caller.walk P (.ofNs n) tr).ns = n ↔ ComesHome P n p parent tr := by
  rcases exec_reaches h with hstill | ⟨p', parent', tr₁, tr₂, rfl, hstill, ⟨s, hs, hpid⟩, hself, hvisit⟩
  · rw [Caller.walk_still hstill]
    exact iff_of_true rfl (comesHome_of_still hstill)
  · obtain rfl : p' = p := hp p' ⟨s, List.mem_append_left _ hs, hpid⟩
    obtain rfl : parent' = parent := hparent parent' (List.mem_append_left _ hself)
    have hwalk : Caller.walk P (.ofNs n) (tr₁ ++ tr₂) = (travel P n p').phase (.ofNs n) tr₂ := by
      rw [Caller.walk_append, Caller.walk_still hstill]
      rfl
    have hend := (hvisit.obeys (visit_at (c := .ofNs n) (Q := fun c _ =>
      ∃ i, c.ns = stop P n p' i ∧ c.moved = (route p' parent').take i) hme rfl rfl
      fun c' r i hns hmoved => ⟨i, hns, hmoved⟩)).2
    rw [← hwalk] at hend
    obtain ⟨i, hns, hmoved⟩ : ∃ i, (Caller.walk P (.ofNs n) (tr₁ ++ tr₂)).ns = stop P n p' i ∧
        (Caller.walk P (.ofNs n) (tr₁ ++ tr₂)).moved = (route p' parent').take i := by
      rcases hback with rfl | ⟨e, rfl⟩ <;> exact hend
    rw [hns]
    refine restored_iff hme fun pid k => ?_
    rw [← hmoved, Caller.mem_moved]
    exact ⟨.inr, fun h => h.resolve_left List.not_mem_nil⟩

/-! ### The command runs inside -/

/-- The process is in the four namespaces of the process `x`. -/
def Inside (P : Procs) (x : Nat) (n : Namespaces) : Prop := ∀ k, n.own k = P.nsOf x k

theorem inside_stop (h : P.who n.mnt (toString p) ≠ P.me) :
    Inside P (P.who n.mnt (toString p)) (stop P n p 4).forked := by
  intro k
  cases k <;> exact P.seen_other h

/-- One of the four entries has failed. -/
def entryFails (p : Int) : Sys.Ev → Prop
  | ⟨.openNs pid _, .error _⟩ => pid = p
  | ⟨.setns path, .error _⟩ => ∃ k : NsKind, path = nsPath p k.name
  | _ => False

/-- A fork, or the start of a command. -/
def Op.starts : Op → Bool
  | .fork | .execve _ _ _ => true
  | _ => false

theorem enterNamespace_ret {pid : Int} {ns : String} {u : Unit}
    (h : Reaches (enterNamespace pid ns) tr (.ret u)) :
    tr = [⟨.openNs pid ns, .ok ()⟩, ⟨.setns (nsPath pid ns), .ok ()⟩] := by
  obtain ⟨_, _, _, rfl, hopen, hset⟩ := h.of_bind_ret
  cases reaches_sys (reaches_mapErr hopen)
  cases reaches_sys (reaches_mapErr hset)
  rfl

/-- Nothing is started before the four entries have succeeded. -/
theorem visit_starts {q : Core Unit} {ev : Sys.Ev} (h : Reaches (visit id cmd p parent) tr q)
    (hev : ev ∈ tr) (hstarts : ev.1.starts = true) :
    ∃ tr₁ tr₂, tr = tr₁ ++ tr₂ ∧ (∀ ev ∈ tr₁, ¬entryFails p ev) ∧
      Reaches (runInside id cmd parent) tr₂ q := by
  have hn : ¬ev.1.starts = false := by rw [hstarts]; exact nofun
  have hopenNs (pid : Int) (ns : String) :
      Calls (S := Sys) (fun op => op.starts = false) (openNamespace pid ns) :=
    Clonebox.Calls.mapErr ⟨rfl, fun _ => trivial⟩
  have henter (pid : Int) (ns : String) :
      Calls (S := Sys) (fun op => op.starts = false) (enterNamespace pid ns) :=
    Calls.bind (hopenNs ..) fun _ => Clonebox.Calls.mapErr ⟨rfl, fun _ => trivial⟩
  obtain ⟨tr₀, _, _, rfl, h₀, h, hev⟩ := h.past (hopenNs ..) hev hn
  obtain ⟨tr₁, _, _, rfl, h₁, h, hev⟩ := h.past (henter ..) hev hn
  obtain ⟨tr₂, _, _, rfl, h₂, h, hev⟩ := h.past (henter ..) hev hn
  obtain ⟨tr₃, _, _, rfl, h₃, h, hev⟩ := h.past (henter ..) hev hn
  obtain ⟨tr₄, tr₅, _, rfl, h₄, hinside, -⟩ := h.past (henter ..) hev hn
  refine ⟨tr₀ ++ (tr₁ ++ (tr₂ ++ (tr₃ ++ tr₄))), tr₅, by simp only [List.append_assoc], ?_, hinside⟩
  rw [reaches_sys (reaches_mapErr h₀), enterNamespace_ret h₁, enterNamespace_ret h₂,
    enterNamespace_ret h₃, enterNamespace_ret h₄]
  simp [entryFails]

/-- What is done after the fork is not an entry. -/
theorem runInside_entries {q : Core Unit} {ev : Sys.Ev} (hne : toString p ≠ toString parent)
    (h : Reaches (runInside id cmd parent) tr q) (hev : ev ∈ tr) : ¬entryFails p ev := by
  have hpid : parent ≠ p := fun he => hne (he ▸ rfl)
  have hopen (ns : String) (r : Io Unit) : ¬entryFails p ⟨.openNs parent ns, r⟩ := by
    cases r with
    | ok _ => exact nofun
    | error e => exact hpid
  have hset (ns : String) (hns : ns ∈ ["mnt", "uts", "pid", "net"]) (r : Io Unit) :
      ¬entryFails p ⟨.setns (nsPath parent ns), r⟩ := by
    obtain ⟨k, rfl⟩ : ∃ k : NsKind, ns = k.name := by
      simp only [List.mem_cons, List.not_mem_nil, or_false] at hns
      rcases hns with rfl | rfl | rfl | rfl
      · exact ⟨.mnt, rfl⟩
      · exact ⟨.uts, rfl⟩
      · exact ⟨.pid, rfl⟩
      · exact ⟨.net, rfl⟩
    cases r with
    | ok _ => exact nofun
    | error e =>
      rintro ⟨k', hpath⟩
      exact hne (nsPath_inj.mp hpath).1.symm
  have hcalls : Calls (S := Sys) (fun op => ∀ r, ¬entryFails p ⟨op, r⟩) (runInside id cmd parent) :=
    runInside_all hopen hset (fun _ => nofun) (fun _ _ => nofun) (fun _ => nofun) (fun _ => nofun)
      (fun _ _ _ _ => nofun) (fun _ _ => nofun) (fun _ _ => nofun) cmd
  exact (h.calls hcalls).1 ev hev ev.2

/-- If an entry fails, nothing is started. -/
theorem exec_refuses {q : Core Unit} (h : Reaches (exec id cmd) tr q)
    (hparent : ∀ r : Int, ⟨.getpid, r⟩ ∈ tr → r = parent) (hp : ∀ r, StatePid id tr r → r = p)
    (hne : toString p ≠ toString parent) (hfails : ∃ ev ∈ tr, entryFails p ev) :
    ∀ ev ∈ tr, ev.1.starts = false := by
  have hquiet {op : Op} (h : op.still = true) : op.starts = false := by
    cases op <;> first | rfl | contradiction
  intro ev hev
  rcases exec_reaches h with hstill | ⟨p', parent', tr₁, tr₂, rfl, hstill, ⟨s, hs, hpid⟩, hself, hvisit⟩
  · exact hquiet (hstill ev hev)
  · obtain rfl : p' = p := hp p' ⟨s, List.mem_append_left _ hs, hpid⟩
    obtain rfl : parent' = parent := hparent parent' (List.mem_append_left _ hself)
    rcases List.mem_append.mp hev with hev | hev
    · exact hquiet (hstill ev hev)
    · by_contra hn
      obtain ⟨tr₃, tr₄, rfl, hclean, hinside⟩ :=
        visit_starts hvisit hev (Bool.eq_true_of_not_eq_false hn)
      obtain ⟨ev', hev', hf⟩ := hfails
      rcases List.mem_append.mp hev' with hev' | hev'
      · obtain ⟨op, r⟩ := ev'
        have hop : op.still = true := hstill _ hev'
        cases op <;> first | exact hf | contradiction
      · rcases List.mem_append.mp hev' with hev' | hev'
        · exact hclean ev' hev' hf
        · exact runInside_entries hne hinside hev' hf

/-- A forked child begins in the namespaces of the container's first process, and a command is
started there and nowhere else; every link is looked up in the mount namespace that `exec` was
called in; and when an entry fails, nothing is started. -/
theorem exec_inside {q : Core Unit} (h : Reaches (exec id cmd) tr q)
    (hparent : ∀ r : Int, ⟨.getpid, r⟩ ∈ tr → r = parent) (hp : ∀ r, StatePid id tr r → r = p)
    (hme : P.who n.mnt (toString parent) = P.me) (hinit : P.who n.mnt (toString p) ≠ P.me) :
    (∀ pre post, tr = pre ++ ⟨.fork, .ok (0 : Int)⟩ :: post → Inside P (P.who n.mnt (toString p))
      (Caller.walk P (.ofNs n) (pre ++ [⟨.fork, .ok (0 : Int)⟩])).ns) ∧
    (∀ pre post path args env r, tr = pre ++ ⟨.execve path args env, r⟩ :: post →
      (Caller.walk P (.ofNs n) pre).forked = true ∧
        Inside P (P.who n.mnt (toString p)) (Caller.walk P (.ofNs n) pre).ns) ∧
    (∀ pre post pid ns r, tr = pre ++ ⟨.openNs pid ns, r⟩ :: post →
      (Caller.walk P (.ofNs n) pre).ns.mnt = n.mnt) ∧
    ((∃ ev ∈ tr, entryFails p ev) → ∀ ev ∈ tr, ev.1.starts = false) := by
  have htravels := exec_travels h hparent hme hp
  have hne : toString p ≠ toString parent := fun he => hinit (by rw [he, hme])
  refine ⟨fun pre post he => ?_, fun pre post path args env r he => ?_, fun pre post pid ns r he => ?_,
    exec_refuses h hparent hp hne⟩
  · rw [he] at htravels
    have hfork : (Caller.walk P (.ofNs n) pre).ns = stop P n p 4 := htravels.at_split
    have hns : (Caller.walk P (.ofNs n) (pre ++ [⟨.fork, .ok (0 : Int)⟩])).ns = (stop P n p 4).forked := by
      rw [Caller.walk_append, ← hfork]
      rfl
    rw [hns]
    exact inside_stop hinit
  · rw [he] at htravels
    obtain ⟨hforked, hns⟩ : (Caller.walk P (.ofNs n) pre).forked = true ∧
        (Caller.walk P (.ofNs n) pre).ns = (stop P n p 4).forked := htravels.at_split
    rw [hns]
    exact ⟨hforked, inside_stop hinit⟩
  · rw [he] at htravels
    exact htravels.at_split

/-! ### A caller that stays in the container -/

/-- The state file of a running container. -/
def execState : State := ⟨"1.0.1", "c", .running, some 7, "/run/clonebox/c", none⟩

/-- The caller is the process 100, and every other process is in namespaces of its own. -/
def sampleProcs : Procs where
  me := 0
  who _ dir := if dir = "100" then 0 else 1
  nsOf _ _ := 5

def sampleHome : Namespaces := ⟨4, 4, 4, 4, 4⟩

def execBegin : List Sys.Ev :=
  [⟨.read (.inBundle "c" .stateJson), .ok (.state execState)⟩,
    ⟨.openFile (.inBundle "c" .containerLog), .ok ()⟩, ⟨.getpid, (100 : Int)⟩,
    ⟨.openNs 100 "mnt", .ok ()⟩, ⟨.openNs 7 "uts", .ok ()⟩]

/-- The uts namespace cannot be entered. -/
def execRefused : List Sys.Ev := execBegin ++ [⟨.setns (nsPath 7 "uts"), .error .esrch⟩]

/-- All four namespaces are entered. -/
def execEntered : List Sys.Ev := execBegin ++
  [⟨.setns (nsPath 7 "uts"), .ok ()⟩, ⟨.openNs 7 "pid", .ok ()⟩, ⟨.setns (nsPath 7 "pid"), .ok ()⟩,
    ⟨.openNs 7 "net", .ok ()⟩, ⟨.setns (nsPath 7 "net"), .ok ()⟩, ⟨.openNs 7 "mnt", .ok ()⟩,
    ⟨.setns (nsPath 7 "mnt"), .ok ()⟩]

/-- The command ends, and the way back is open. -/
def execBack : List Sys.Ev :=
  [⟨.fork, .ok (8 : Int)⟩, ⟨.waitFork 8, .ok (.exited 0)⟩, ⟨.setns (nsPath 100 "mnt"), .ok ()⟩,
    ⟨.openNs 100 "uts", .ok ()⟩, ⟨.setns (nsPath 100 "uts"), .ok ()⟩, ⟨.openNs 100 "pid", .ok ()⟩,
    ⟨.setns (nsPath 100 "pid"), .ok ()⟩, ⟨.openNs 100 "net", .ok ()⟩, ⟨.setns (nsPath 100 "net"), .ok ()⟩]

theorem reaches_execRefused : ∃ e, Reaches (exec "c" ["/bin/ls"]) execRefused (.fail e) :=
  ⟨_, .cons (.cons (.cons (.cons (.cons (.cons .nil)))))⟩

theorem reaches_execEntered :
    Reaches (exec "c" ["/bin/ls"]) execEntered (runInside "c" ["/bin/ls"] 100) :=
  .cons (.cons (.cons (.cons (.cons (.cons (.cons (.cons (.cons (.cons (.cons (.cons .nil)))))))))))

theorem exec_restores_sample : ∃ e, Reaches (exec "c" ["/bin/ls"]) execRefused (.fail e) ∧
    (Caller.walk sampleProcs (.ofNs sampleHome) execRefused).ns = sampleHome := by
  obtain ⟨e, hrun⟩ := reaches_execRefused
  have hme : sampleProcs.who sampleHome.mnt (toString (100 : Int)) = sampleProcs.me := rfl
  refine ⟨e, hrun, (exec_restores (p := 7) hrun (.inr ⟨e, rfl⟩) ?_ hme ?_).mpr ?_⟩
  · simp [execRefused, execBegin]
  · simp [execRefused, execBegin, StatePid, execState]
  · simp [comesHome_iff, MovedTo, execRefused, execBegin]

/-- `exec` succeeds, and its caller is in the container's uts and net namespaces. -/
theorem exec_stays : ∃ tr, Reaches (exec "c" ["/bin/ls"]) tr (.ret ()) ∧
    (Caller.walk sampleProcs (.ofNs sampleHome) tr).ns = { sampleHome with uts := 5, net := 5 } := by
  have hback : Reaches (runInside "c" ["/bin/ls"] 100) execBack (.ret ()) :=
    .cons (.cons (.cons (.cons (.cons (.cons (.cons (.cons (.cons .nil))))))))
  exact ⟨_, reaches_execEntered.trans hback, by decide +kernel⟩

/-- In the forked child. -/
theorem exec_inside_sample : ∃ (tr : List Sys.Ev) (q : Core Unit), Reaches (exec "c" ["/bin/ls"]) tr q ∧
    tr = execEntered ++ [⟨.fork, .ok (0 : Int)⟩] ++ [⟨.execve "/bin/ls" ["/bin/ls"] [], .ok ()⟩] ∧
    Inside sampleProcs 1 (Caller.walk sampleProcs (.ofNs sampleHome)
      (execEntered ++ [⟨.fork, .ok (0 : Int)⟩])).ns := by
  have hcommand : Reaches (runInside "c" ["/bin/ls"] 100)
      ([⟨.fork, .ok (0 : Int)⟩] ++ [⟨.execve "/bin/ls" ["/bin/ls"] [], .ok ()⟩]) .halt := .cons (.cons .nil)
  have hrun := reaches_execEntered.trans hcommand
  rw [← List.append_assoc] at hrun
  refine ⟨_, _, hrun, rfl, ?_⟩
  have hinside := exec_inside (p := 7) (n := sampleHome) (P := sampleProcs) hrun ?_ ?_ (show
    sampleProcs.who sampleHome.mnt (toString (100 : Int)) = sampleProcs.me from rfl) (by decide)
  · exact (hinside.2.1 _ _ _ _ _ _ rfl).2
  · simp [execEntered, execBegin]
  · simp [execEntered, execBegin, StatePid, execState]

end Clonebox
