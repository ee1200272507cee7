import Clonebox.Lifecycle.Deletion

/-! # A deletion that is tried again

`delete` without force removes the cgroup and then the bundle, and each removal fails if there is
nothing to remove. So what a failed attempt has removed stands in the way of the next one. -/

namespace Clonebox
open Conc Prog

variable {id : String} {w : World} {c c' : SysConf} {a : SysAction} {i : Nat}

/-! ### The second attempt -/

/-- The call takes effect. -/
def succeed (w : World) (op : Op) : Option (op.Ret × World) := w.exec 0 op (.run 0)

/-- A deletion by itself, none of whose calls fails by chance. -/
def deleteAlone (w : World) (id : String) : Option (Except CoreError Unit × World) :=
  alone (S := Sys) succeed w (delete id false)

/-- The second attempt returns, and both are gone. -/
def Retried (w : World) (id : String) : Prop :=
  ∃ w', deleteAlone w id = some (.ok (), w') ∧ w'.cgroup id = false ∧ w'.bundle id = none

section
variable {w' : World} {op : Op} {f : Errno → CoreError} {p : Core (Io Unit)}

theorem alone_mapErr_ok (h : alone (S := Sys) succeed w p = some (.ok (.ok ()), w')) :
    alone (S := Sys) succeed w (mapErr p f) = some (.ok (), w') := by
  rw [mapErr, alone_bind h]
  rfl

theorem alone_mapErr_error {e : Errno} (h : alone (S := Sys) succeed w p = some (.ok (.error e), w')) :
    alone (S := Sys) succeed w (mapErr p f) = some (.error (f e), w') := by
  rw [mapErr, alone_bind h]
  rfl

end

theorem deleteAlone_cleanup {s : State} (hfile : w.file id = some s) (hst : s.status = .stopped) :
    deleteAlone w id = alone (S := Sys) succeed w (cleanup id false) := by
  have hread : alone (S := Sys) succeed w (readStateFile id) = some (.ok s, w) := by
    rw [readStateFile, bind_def, alone_bind (alone_ask (World.run_read hfile 0))]
    rfl
  rw [deleteAlone, delete, if_neg Bool.false_ne_true, bind_def, alone_bind hread]
  simp [throwIf, hst, Prog.bind]

/-- Without the cgroup the second attempt fails at it. -/
theorem deleteAlone_gone {s : State} (hfile : w.file id = some s) (hst : s.status = .stopped)
    (hgone : w.cgroup id = false) :
    deleteAlone w id = some (.error (.cleanupFailure .enoent "cgroup"), w) := by
  have hdir : succeed w (.removeDir (.cgroup id)) = some (.error .enoent, w) := by
    simp [succeed, World.exec, World.run, World.removeDir, hgone]
  rw [deleteAlone_cleanup hfile hst, cleanup, if_neg Bool.false_ne_true, bind_def]
  exact alone_bind_error (alone_mapErr_error (alone_ask hdir))

theorem retried_there {s : State} (hfile : w.file id = some s) (hst : s.status = .stopped)
    (hidle : w.populated id = false) (hthere : w.cgroup id = true) : Retried w id := by
  obtain ⟨b, hb, -⟩ := World.bundle_of_file hfile
  let w₁ := { w with cgroup := Function.update w.cgroup id false }
  have hdir : succeed w (.removeDir (.cgroup id)) = some (.ok (), w₁) := by
    simp [succeed, World.exec, World.run, World.removeDir, hthere, hidle, w₁]
  have hall : succeed w₁ (.removeDirAll (.bundle id)) = some (.ok (), w₁.unlink id none) := by
    simp [succeed, World.exec, World.run, World.removeDirAll, hb, w₁]
  refine ⟨w₁.unlink id none, ?_, by simp [World.unlink, World.setBundle, w₁], by simp [World.unlink]⟩
  rw [deleteAlone_cleanup hfile hst, cleanup, if_neg Bool.false_ne_true, bind_def,
    alone_bind (alone_mapErr_ok (alone_ask hdir))]
  exact alone_mapErr_ok (alone_ask hall)

/-- The second attempt succeeds if and only if it finds the cgroup. -/
theorem retried_iff {s : State} (hfile : w.file id = some s) (hst : s.status = .stopped)
    (hidle : w.populated id = false) : Retried w id ↔ w.cgroup id = true := by
  cases hcg : w.cgroup id with
  | true => exact iff_of_true (retried_there hfile hst hidle hcg) rfl
  | false =>
    refine iff_of_false ?_ Bool.false_ne_true
    rintro ⟨w', hok, -⟩
    rw [deleteAlone_gone hfile hst hcg] at hok
    cases hok

/-! ### The first attempt -/

/-- The removal of the cgroup, when it has succeeded. -/
def removedCgroup (id : String) : Sys.Ev := ⟨.removeDir (.cgroup id), .ok ()⟩

/-- Thread `i` has removed the cgroup. -/
def HasRemoved (id : String) (i : Nat) (c : SysConf) : Prop :=
  ∃ th, c.threads[i]? = some th ∧ removedCgroup id ∈ th.trace

/-- Nobody else makes or removes the cgroup. -/
def LeavesCgroup (id : String) (i : Nat) (c : SysConf) (a : SysAction) : Prop :=
  ∀ e ∈ system.event c a, e.2.1.cgroupOf = some id → e.1 = i

instance : Decidable (LeavesCgroup id i c a) :=
  inferInstanceAs (Decidable (∀ e ∈ system.event c a, e.2.1.cgroupOf = some id → e.1 = i))

/-- Thread `i`, if there is one, is an attempt to delete the container. -/
def Attempts (id : String) (i : Nat) (c : SysConf) : Prop :=
  ∀ th, c.threads[i]? = some th → kindOf th = .delete id false

theorem Attempts.before (h : Attempts id i c') (hs : system.step c a = some c') : Attempts id i c := by
  intro th hi
  obtain ⟨th', hi', hm, -⟩ := step_kept hs hi
  have hk := h th' hi'
  rwa [kindOf, hm] at hk

/-- An attempt makes no copy of itself. -/
theorem Attempts.not_copied (h : Attempts id i c') (hc : Conforming c) {t : Nat} {th th' : SysThread}
    (hi : c'.threads[i]? = some th') (hcopy : Copied c t th th') : False := by
  have hk : kindOf th = .delete id false := by
    rw [kindOf, ← hcopy.main]
    exact h th' hi
  have hhas := phase_has (hc t th hcopy.origin)
  rw [hk] at hhas
  rcases hcopy.trace with ⟨hg, -⟩ | ⟨⟨g, hg⟩, -⟩
  · rw [hg] at hhas
    contradiction
  · rw [hg] at hhas
    contradiction

theorem hasRemoved_step (hc : Conforming c) (hs : system.step c a = some c') (h : Attempts id i c') :
    HasRemoved id i c' ↔ HasRemoved id i c ∨ system.event c a = some (i, removedCgroup id) := by
  constructor
  · rintro ⟨th', hi, hmem⟩
    rcases step_trace hc hs hi hmem with ⟨th, hi₀, -, -, hmem⟩ | he | ⟨t, th, hcopy⟩
    · exact .inl ⟨th, hi₀, hmem⟩
    · exact .inr he
    · exact (h.not_copied hc hi hcopy).elim
  · rintro (⟨th, hi, hmem⟩ | he)
    · obtain ⟨th', hi', -, -, htrace⟩ := step_kept hs hi
      exact ⟨th', hi', htrace hmem⟩
    · obtain ⟨th, k, ch, -, -, -, -, hi', -⟩ := event_thread hc he hs
      exact ⟨_, hi', by simp [removedCgroup]⟩

theorem gone_step (hc : Conforming c) (hs : system.step c a = some c') (h : Attempts id i c')
    (hok : LeavesCgroup id i c a) : c'.world.cgroup id = false ↔
      c.world.cgroup id = false ∨ system.event c a = some (i, removedCgroup id) := by
  have hsame (hw : c'.world.cgroup id = c.world.cgroup id) (he : system.event c a ≠ some (i, removedCgroup id)) :
      c'.world.cgroup id = false ↔
        c.world.cgroup id = false ∨ system.event c a = some (i, removedCgroup id) := by
    rw [hw, or_iff_left he]
  cases he : system.event c a with
  | none =>
    rw [← he]
    refine hsame ?_ (by rw [he]; nofun)
    rcases step_world hs with ⟨j, op, r, ch, he', -⟩ | hw | ⟨e, -, hw⟩ | ⟨t, -, hw⟩
    · cases he.symm.trans he'
    · rw [hw]
    · rw [World.env_cgroup hw]
    · rw [hw]
      rfl
  | some e =>
    obtain ⟨j, op, r⟩ := e
    rw [← he]
    obtain ⟨th, k, ch, hi, -, hd, hx, -⟩ := event_thread hc he hs
    by_cases hop : op.cgroupOf = some id
    · obtain rfl := hok _ he hop
      rw [h.before hs th hi] at hd
      generalize phaseOf th = g at hd
      cases hd with
      | quiet hq => exact Bool.noConfusion (hq.symm.trans (Op.not_quiet_of_cgroupOf hop))
      | clearCgroup =>
        cases r with
        | ok _ => exact iff_of_true (World.exec_removeCgroup hx).gone (.inr he)
        | error e => exact hsame (World.exec_removeDir_error hx) (by rw [he]; nofun)
      | checkDelete | clearBundle | settleDelete => contradiction
    · refine hsame (World.exec_cgroup hx hop) fun he' => ?_
      cases he.symm.trans he'
      exact hop rfl

/-- The cgroup is gone if and only if the attempt has removed it. -/
theorem gone_iff_removed {c₀ : SysConf} (hrun : Steps system.step (LeavesCgroup id i) c₀ c)
    (hc₀ : Conforming c₀) (hthere : c₀.world.cgroup id = true) (hbefore : ¬HasRemoved id i c₀)
    (h : Attempts id i c) : c.world.cgroup id = false ↔ HasRemoved id i c := by
  have hkeep := run_invariant (I := fun c => Attempts id i c → (c.world.cgroup id = false ↔ HasRemoved id i c))
    hrun hc₀ (fun _ => ?_) fun c a c' hc hI hok hs h => ?_
  · exact hkeep.2 h
  · rw [hthere]
    exact iff_of_false (Bool.false_ne_true.symm) hbefore
  · rw [gone_step hc hs h hok, hasRemoved_step hc hs h, hI (h.before hs)]

/-- However far a first attempt has come: if the file says `stopped` and no process is in the
cgroup, a second one returns and removes both if and only if the first one has not removed the
cgroup. -/
theorem delete_retried {id : String} {w : World} {c₀ c : SysConf} {i : Nat} {th : SysThread} {s : State}
    (hreach : Steps system.step (fun _ _ => True) (fresh w) c₀) (hthere : c₀.world.cgroup id = true)
    (hbefore : ∀ th, c₀.threads[i]? = some th → th.trace = [])
    (hrun : Steps system.step (LeavesCgroup id i) c₀ c) (hi : c.threads[i]? = some th)
    (hk : kindOf th = .delete id false) (hfile : c.world.file id = some s) (hst : s.status = .stopped)
    (hidle : c.world.populated id = false) :
    (Retried c.world id ↔ c.world.cgroup id = true) ∧
      (c.world.cgroup id = true ↔ removedCgroup id ∉ th.trace) := by
  refine ⟨retried_iff hfile hst hidle, ?_⟩
  have hc₀ : Conforming c₀ :=
    (run_invariant (I := fun _ => True) hreach (conforming_fresh w) trivial fun _ _ _ _ _ _ _ => trivial).1
  have hnone : ¬HasRemoved id i c₀ := by
    rintro ⟨th, hi, hmem⟩
    rw [hbefore th hi] at hmem
    contradiction
  have hattempts : Attempts id i c := by
    intro th' hi'
    cases hi.symm.trans hi'
    exact hk
  have hremoved : HasRemoved id i c ↔ removedCgroup id ∈ th.trace := by
    constructor
    · rintro ⟨th', hi', hmem⟩
      cases hi.symm.trans hi'
      exact hmem
    · exact fun hmem => ⟨th, hi, hmem⟩
  rw [← hremoved, ← gone_iff_removed hrun hc₀ hthere hnone hattempts, Bool.not_eq_false]

/-- `kill` has written `stopped` while the init lives. The deletion fails at the cgroup, and goes
through when the init has ended. -/
theorem delete_retried_sample : ∃ (c : SysConf) (th : SysThread),
    c.threads[3]? = some th ∧ (fault th).isSome = true ∧ Retried c.world "c" := by
  have h : ∃ c₀ ∈ runActions system.step (fun _ _ => True) (fresh sampleHost)
      (supervise "c" ++ [.invoke (.kill "c")] ++ goes 3 2),
      c₀.world.cgroup "c" = true ∧ c₀.threads[3]?.isNone ∧
      ∃ c ∈ runActions system.step (LeavesCgroup "c" 3) c₀
        ([.invoke (.delete "c" false)] ++ goes 2 3 ++ [.env (.exit 7 (.signaled 9 false))]),
        ∃ th ∈ c.threads[3]?, kindOf th = .delete "c" false ∧ (fault th).isSome = true ∧
          (∃ s ∈ c.world.file "c", s.status = .stopped) ∧ c.world.populated "c" = false ∧
          c.world.cgroup "c" = true := by
    decide +kernel
  obtain ⟨c₀, h₀, hthere, hnone, c, h₁, th, hi, hk, hfail, ⟨s, hfile, hst⟩, hidle, hcg⟩ := h
  refine ⟨c, th, hi, hfail, ?_⟩
  refine (delete_retried (.of_runActions h₀) hthere ?_ (.of_runActions h₁) hi hk hfile hst hidle).1.mpr hcg
  intro th₀ hi₀
  rw [Option.isNone_iff_eq_none.mp hnone] at hi₀
  cases hi₀

/-- The supervisor writes `stopped` into the bundle while the deletion empties it. The second
attempt fails at the cgroup, which the first one has removed. -/
theorem deletion_stuck : ∃ (c₀ c : SysConf) (th : SysThread),
    Steps system.step (fun _ _ => True) (fresh sampleHost) c₀ ∧ c₀.world.cgroup "c" = true ∧
    c₀.threads[4]? = none ∧ Steps system.step (LeavesCgroup "c" 4) c₀ c ∧
    c.threads[4]? = some th ∧ kindOf th = .delete "c" false ∧ (fault th).isSome = true ∧
    (∃ s, c.world.file "c" = some s ∧ s.status = .stopped) ∧ c.world.populated "c" = false ∧
    ¬Retried c.world "c" := by
  have h : ∃ c₀ ∈ runActions system.step (fun _ _ => True) (fresh sampleHost)
      (supervise "c" ++ begin "c" 5 ++ childFails ++ goes 2 0 ++ [.invoke (.kill "c")] ++ goes 3 3),
      c₀.world.cgroup "c" = true ∧ c₀.threads[4]?.isNone ∧
      ∃ c ∈ runActions system.step (LeavesCgroup "c" 4) c₀
        ([.invoke (.delete "c" false)] ++ goes 2 4 ++ [.call 4 (.part .enoent), go 0]),
        ∃ th ∈ c.threads[4]?, kindOf th = .delete "c" false ∧ (fault th).isSome = true ∧
          (∃ s ∈ c.world.file "c", s.status = .stopped) ∧ c.world.populated "c" = false ∧
          c.world.cgroup "c" = false := by
    decide +kernel
  obtain ⟨c₀, h₀, hthere, hnone, c, h₁, th, hi, hk, hfail, ⟨s, hfile, hst⟩, hidle, hcg⟩ := h
  refine ⟨c₀, c, th, .of_runActions h₀, hthere, Option.isNone_iff_eq_none.mp hnone, .of_runActions h₁, hi, hk,
    hfail, ⟨s, hfile, hst⟩, hidle, fun hretried => ?_⟩
  exact Bool.false_ne_true (hcg.symm.trans ((retried_iff hfile hst hidle).mp hretried))

end Clonebox
