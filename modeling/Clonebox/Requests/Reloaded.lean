import Clonebox.System.Restart

/-! # What a daemon knows after its start

`main` reads the state files one after the other, while supervisors and commands go on. What it has
entered when it begins to listen was so at some moment since its launch, and nothing that was there
throughout is missing. -/

namespace Clonebox
open Conc

variable {c₀ c c' c₃ : HostConf} {a : HostAction} {h : Host} {d d' : Option (Nat × BootPhase)} {i : Nat}
  {g g' : BootPhase} {th : HostThread} {name : String} {e : ContainerEntry} {listing : List DirEntry}

/-- A run of the host in which daemons are started one at a time. -/
abbrev HostRuns (c c' : HostConf) : Prop := Steps hosts.step OneAtATime c c'

/-- Daemon `i` is there. -/
def There (i : Nat) (c : HostConf) : Prop := ∃ th ∈ c.threads[i]?, Alive th

theorem Present.there (h : Present c (some (i, g))) : There i c := by
  obtain ⟨th, hi, hth, -⟩ := h
  exact ⟨th, hi, hth⟩

/-- While daemon `i` was there, the state file of the container has held a state, and the entry is
what `recover` makes of that with the processes of a later moment. -/
inductive Seen (c₀ : HostConf) (i : Nat) (name : String) (e : ContainerEntry) (c : HostConf) : Prop
  | intro {c₁ c₂ : HostConf} {s : State} (hbefore : HostRuns c₀ c₁) (hi : There i c₁)
    (hf : c₁.world.sys.world.file name = some s) (hmid : HostRuns c₁ c₂)
    (he : e = ⟨(recoveredState c₂.world.sys.world.hasPid s).getState, none, []⟩)
    (hafter : HostRuns c₂ c)

/-- While daemon `i` was there, the state file of the container has held no state, or the daemon
could not read it. -/
inductive Missed (c₀ : HostConf) (i : Nat) (name : String) (c : HostConf) : Prop
  | absent {c₁ : HostConf} (hbefore : HostRuns c₀ c₁) (hi : There i c₁)
    (hf : c₁.world.sys.world.file name = none) (hafter : HostRuns c₁ c)
  | failed {c₁ : HostConf} {a : HostAction} {e : Errno} (hbefore : HostRuns c₀ c₁)
    (he : hosts.event c₁ a = some (i, ⟨.readToString (stateJson name), .error e⟩))
    (hafter : HostRuns c₁ c)

/-- The application directory has been listed to daemon `i`. -/
inductive Listed (c₀ : HostConf) (i : Nat) (listing : List DirEntry) (c : HostConf) : Prop
  | intro {c₁ : HostConf} {a : HostAction} {path : String} (hbefore : HostRuns c₀ c₁)
    (he : hosts.event c₁ a = some (i, ⟨.readDir path, .ok listing⟩)) (hafter : HostRuns c₁ c)

theorem Seen.later (h : Seen c₀ i name e c) (hrun : HostRuns c c') : Seen c₀ i name e c' := by
  cases h with
  | intro hbefore hi hf hmid he hafter => exact .intro hbefore hi hf hmid he (hafter.trans hrun)

theorem Missed.later (h : Missed c₀ i name c) (hrun : HostRuns c c') : Missed c₀ i name c' := by
  cases h with
  | absent hbefore hi hf hafter => exact .absent hbefore hi hf (hafter.trans hrun)
  | failed hbefore he hafter => exact .failed hbefore he (hafter.trans hrun)

theorem Listed.later (h : Listed c₀ i listing c) (hrun : HostRuns c c') : Listed c₀ i listing c' := by
  cases h with
  | intro hbefore he hafter => exact .intro hbefore he (hafter.trans hrun)

/-- The container whose file the loop is about. -/
def Scan.about : Scan → Option String
  | .idle => none
  | .found name _ | .checked name _ _ => some name

/-- What the loop has found of a file was so. -/
def Scan.Seen (c₀ : HostConf) (i : Nat) (c : HostConf) : Scan → Prop
  | .idle => True
  | .found name s => ∃ c₁, HostRuns c₀ c₁ ∧ There i c₁ ∧ c₁.world.sys.world.file name = some s ∧
      HostRuns c₁ c
  | .checked name s alive => ∃ c₁ c₂, HostRuns c₀ c₁ ∧ There i c₁ ∧
      c₁.world.sys.world.file name = some s ∧
      HostRuns c₁ c₂ ∧ (∀ p ∈ s.pid, c₂.world.sys.world.hasPid p = alive) ∧ HostRuns c₂ c

theorem Scan.Seen.later {scan : Scan} (h : scan.Seen c₀ i c) (hrun : HostRuns c c') :
    scan.Seen c₀ i c' := by
  cases scan with
  | idle => trivial
  | found name s =>
    obtain ⟨c₁, hbefore, hi, hf, hafter⟩ := h
    exact ⟨c₁, hbefore, hi, hf, hafter.trans hrun⟩
  | checked name s alive =>
    obtain ⟨c₁, c₂, hbefore, hi, hf, hmid, hp, hafter⟩ := h
    exact ⟨c₁, c₂, hbefore, hi, hf, hmid, hp, hafter.trans hrun⟩

theorem Scan.Seen.entry {scan : Scan} (h : scan.Seen c₀ i c) (he : scan.entry = some (name, e)) :
    scan.about = some name ∧ Clonebox.Seen c₀ i name e c := by
  cases scan with
  | idle => cases he
  | found name' s =>
    obtain ⟨c₁, hbefore, hi, hf, hafter⟩ := h
    simp only [Scan.entry] at he
    split at he
    · rename_i hpid
      cases he
      exact ⟨rfl, .intro hbefore hi hf .refl (by simp [recoveredState, hpid]) hafter⟩
    · cases he
  | checked name' s alive =>
    obtain ⟨c₁, c₂, hbefore, hi, hf, hmid, hp, hafter⟩ := h
    cases he
    refine ⟨rfl, .intro hbefore hi hf hmid ?_ hafter⟩
    unfold recoveredState
    split
    · rename_i p hpid
      rw [hp p hpid]
    · rfl

/-- The loop has come through `done`, and may be about one of them. -/
structure Scanning (c₀ : HostConf) (i : Nat) (c : HostConf) (listed done : List String) (scan : Scan)
    (m : Daemon) : Prop where
  seen : ∀ name e, m.entry name = some e → name ∈ listed ∧ Seen c₀ i name e c
  past : ∀ name ∈ done, m.entry name ≠ none ∨ Missed c₀ i name c ∨ scan.about = some name
  found : scan.Seen c₀ i c
  about : ∀ name ∈ scan.about, name ∈ listed

namespace Scanning

variable {listed done : List String} {scan : Scan} {m : Daemon}

theorem later (hs : Scanning c₀ i c listed done scan m) (hrun : HostRuns c c') :
    Scanning c₀ i c' listed done scan m := by
  refine ⟨fun name e he => ?_, fun name hname => ?_, hs.found.later hrun, hs.about⟩
  · obtain ⟨hmem, hseen⟩ := hs.seen name e he
    exact ⟨hmem, hseen.later hrun⟩
  · exact (hs.past name hname).imp_right (.imp_left (·.later hrun))

theorem enter (hs : Scanning c₀ i c listed done scan m) (he : scan.entry = some (name, e)) :
    Scanning c₀ i c listed done .idle (m.orInsert name e) := by
  obtain ⟨hname, hseen⟩ := hs.found.entry he
  refine ⟨fun name' e' he' => ?_, fun name' hname' => ?_, trivial, fun _ hn => by cases hn⟩
  · by_cases hne : name' = name
    · subst hne
      rw [Daemon.entry_orInsert] at he'
      cases hold : m.entry name' with
      | none =>
        rw [hold] at he'
        cases he'
        exact ⟨hs.about name' hname, hseen⟩
      | some e'' =>
        rw [hold] at he'
        cases he'
        exact hs.seen name' e'' hold
    · rw [Daemon.entry_orInsert_ne _ _ _ _ hne] at he'
      exact hs.seen name' e' he'
  · by_cases hne : name' = name
    · subst hne
      exact .inl (by simp)
    · rw [Daemon.entry_orInsert_ne _ _ _ _ hne]
      rcases hs.past name' hname' with h | h | h
      · exact .inl h
      · exact .inr (.inl h)
      · rw [hname] at h
        exact (hne (Option.some.inj h).symm).elim

/-- The next file is read, and holds a state or is passed over. -/
theorem read {r : Io Content} (hs : Scanning c₀ i c listed done .idle m) (hrun : HostRuns c c')
    (hmem : name ∈ listed) (hfound : ∀ s, r = .ok (.state s) → (Scan.found name s).Seen c₀ i c')
    (hmissed : (∀ s, r ≠ .ok (.state s)) → Missed c₀ i name c') :
    (∀ s, r = .ok (.state s) → Scanning c₀ i c' listed (done ++ [name]) (.found name s) m) ∧
      ((∀ s, r ≠ .ok (.state s)) → Scanning c₀ i c' listed (done ++ [name]) .idle m) := by
  have hlater := hs.later hrun
  constructor
  · intro s hr
    refine ⟨hlater.seen, fun name' hname' => ?_, hfound s hr, fun name' hn => ?_⟩
    · rcases List.mem_append.mp hname' with hname' | hname'
      · rcases hlater.past name' hname' with h | h | h
        · exact .inl h
        · exact .inr (.inl h)
        · cases h
      · rw [List.mem_singleton.mp hname']
        exact .inr (.inr rfl)
    · cases hn
      exact hmem
  · intro hr
    refine ⟨hlater.seen, fun name' hname' => ?_, trivial, fun name' hn => by cases hn⟩
    rcases List.mem_append.mp hname' with hname' | hname'
    · exact hlater.past name' hname'
    · rw [List.mem_singleton.mp hname']
      exact .inr (.inl (hmissed hr))

end Scanning

/-- Daemon `i` begins to listen with a map that it has loaded from the containers that were
listed. -/
structure LoadedMap (c₀ : HostConf) (i : Nat) (listing : List DirEntry) (c : HostConf) : Prop where
  up : c.world.sys.world.up = true
  listed : Listed c₀ i listing c
  entered : ∀ name e, c.world.sys.world.entry name = some e →
    name ∈ listing.filterMap DirEntry.named ∧ Seen c₀ i name e c
  complete : ∀ name ∈ listing.filterMap DirEntry.named,
    c.world.sys.world.entry name ≠ none ∨ Missed c₀ i name c

/-- How far daemon `i` has come with its map. -/
structure Story (c₀ : HostConf) (i : Nat) (c : HostConf) (g : BootPhase) : Prop where
  idle : g.stage = .launched ∨ g.stage = .loading → g.scan = .idle
  loading : g.stage = .loading → ∃ x, c.world.inst = some x ∧ ∀ name, x.daemon.entry name = none
  scanning : g.stage = .scanning → ∃ x listing done, c.world.inst = some x ∧ Listed c₀ i listing c ∧
    listing.filterMap DirEntry.named = done ++ g.todo ∧
    Scanning c₀ i c (listing.filterMap DirEntry.named) done g.scan x.daemon
  later : g.stage = .serving ∨ g.stage = .closing →
    ∃ listing c₁, HostRuns c₀ c₁ ∧ LoadedMap c₀ i listing c₁ ∧
    HostRuns c₁ c

/-- A step that leaves the map and what has been found alone. -/
theorem Story.keep (hst : Story c₀ i c g) (hrun : HostRuns c c') (hinst : c'.world.inst = c.world.inst)
    (hstage : g'.stage = g.stage) (htodo : g'.todo = g.todo) (hscan : g'.scan = g.scan) :
    Story c₀ i c' g' := by
  refine ⟨?_, ?_, ?_, ?_⟩
  · rw [hstage, hscan]
    exact hst.idle
  · rw [hstage, hinst]
    exact hst.loading
  · rw [hstage, hinst, htodo, hscan]
    intro hs
    obtain ⟨x, listing, done, hx, hlisted, hnames, hscanning⟩ := hst.scanning hs
    exact ⟨x, listing, done, hx, hlisted.later hrun, hnames, hscanning.later hrun⟩
  · rw [hstage]
    intro hs
    obtain ⟨listing, c₁, hbefore, hloaded, hafter⟩ := hst.later hs
    exact ⟨listing, c₁, hbefore, hloaded, hafter.trans hrun⟩

/-- A step of a daemon that listens. -/
theorem Story.of_later
    (hlater : ∃ listing c₁, HostRuns c₀ c₁ ∧ LoadedMap c₀ i listing c₁ ∧ HostRuns c₁ c)
    (hstage : g.stage = .serving ∨ g.stage = .closing) : Story c₀ i c g := by
  refine ⟨fun hs => ?_, fun hs => ?_, fun hs => ?_, fun _ => hlater⟩
  · rcases hstage with h | h <;> rw [h] at hs <;> rcases hs with hs | hs <;> cases hs
  · rcases hstage with h | h <;> rw [h] at hs <;> cases hs
  · rcases hstage with h | h <;> rw [h] at hs <;> cases hs

/-- A step of the loop. -/
theorem Story.of_scanning {x : Instance} {done : List String} (hstage : g.stage = .scanning)
    (hinst : c.world.inst = some x) (hlisted : Listed c₀ i listing c)
    (hnames : listing.filterMap DirEntry.named = done ++ g.todo)
    (hscanning : Scanning c₀ i c (listing.filterMap DirEntry.named) done g.scan x.daemon) :
    Story c₀ i c g := by
  refine ⟨fun h => ?_, fun h => ?_, fun _ => ⟨x, listing, done, hinst, hlisted, hnames, hscanning⟩,
    fun h => ?_⟩
  · rw [hstage] at h
    rcases h with h | h <;> cases h
  · rw [hstage] at h
    cases h
  · rw [hstage] at h
    rcases h with h | h <;> cases h

/-- The map that has been loaded is that of the system when the event socket is bound. -/
theorem Story.bound {p : String} {r : Io Unit} {ch : BootChoice} (hst : Story c₀ i c g)
    (h₀ : HostRuns c₀ c) (hrun : HostRuns c c') (hmay : g.may (.bind p))
    (hx : c.world.exec i (.bind p) ch = some (r, c'.world)) :
    Story c₀ i c' (g.next (.bind p) r) := by
  have hne : Cloneboxd.clientSocket ≠ getEventSocketPath := by decide
  rcases Host.exec_bind hx with ⟨hworld, e, rfl⟩ | ⟨rfl, -, hsame, hsys⟩
  · exact hst.keep hrun (by rw [hworld]) rfl rfl rfl
  rcases hmay.2 with ⟨rfl, -⟩ | ⟨rfl, hscanned⟩
  · exact hst.keep hrun hsame (by simp [BootPhase.next, hne]) rfl rfl
  · rw [if_pos rfl] at hsys
    obtain ⟨x, listing, done, hinst, hlisted, hnames, hscanning⟩ := hst.scanning hscanned.stage
    rw [hscanned.todo, List.append_nil] at hnames
    rw [hscanned.scan] at hscanning
    have hscanning := hscanning.later hrun
    have hmap : c'.world.sys.world.daemon = x.daemon := by
      rw [hsys]
      simp [Host.reachable, hinst]
    have hup : c'.world.sys.world.up = true := by
      rw [hsys]
      simp [Host.reachable, hinst]
    refine .of_later ⟨listing, c', h₀.trans hrun, ⟨hup, hlisted.later hrun, fun name e he => ?_,
      fun name hname => ?_⟩, .refl⟩ (by simp [BootPhase.next])
    · rw [World.entry, hmap] at he
      exact hscanning.seen name e he
    · rw [World.entry, hmap]
      rw [hnames] at hname
      rcases hscanning.past name hname with h | h | h
      · exact .inl h
      · exact .inr h
      · cases h

theorem Story.read {p : Path} {r : Io Content} {ch : BootChoice} (hst : Story c₀ i c g)
    (h₀ : HostRuns c₀ c) (hrun : HostRuns c c') (hthere : There i c) (hmay : g.may (.readToString p))
    (he : hosts.event c a = some (i, ⟨.readToString p, r⟩))
    (hx : c.world.exec i (.readToString p) ch = some (r, c'.world)) :
    Story c₀ i c' (g.next (.readToString p) r) := by
  obtain ⟨hstage, hidle, name, hname, rfl⟩ := hmay
  obtain ⟨x, listing, done, hinst, hlisted, hnames, hscanning⟩ := hst.scanning hstage
  rw [hidle] at hscanning
  have hhead : g.todo.head? = some name := hname
  obtain ⟨rest, htodo⟩ : ∃ rest, g.todo = name :: rest := List.head?_eq_some_iff.mp hhead
  have hworld : c'.world = c.world := Host.exec_looks rfl hx
  obtain ⟨hstate, hnone⟩ := Host.exec_readToString hx
  have hfound : ∀ s, r = .ok (.state s) → (Scan.found name s).Seen c₀ i c' := by
    intro s hr
    exact ⟨c, h₀, hthere, hstate s hr, hrun⟩
  have hmissed : (∀ s, r ≠ .ok (.state s)) → Missed c₀ i name c' := by
    intro hr
    cases r with
    | error e => exact .failed h₀ he hrun
    | ok content =>
      exact .absent h₀ hthere (hnone content rfl fun s hs => hr s (by rw [hs])) hrun
  obtain ⟨hstate, hother⟩ := hscanning.read hrun (by rw [hnames, htodo]; simp) hfound hmissed
  have hsplit : listing.filterMap DirEntry.named = (done ++ [name]) ++ g.todo.tail := by
    rw [hnames, htodo]
    simp
  have hinst' : c'.world.inst = some x := by rw [hworld, hinst]
  have hlisted' := hlisted.later hrun
  rcases r with e | (s | config | t)
  · exact .of_scanning hstage hinst' hlisted' hsplit
      (by simpa [BootPhase.next, hidle] using hother fun s h => by cases h)
  · exact .of_scanning hstage hinst' hlisted' hsplit (by simpa [BootPhase.next, hhead] using hstate s rfl)
  · exact .of_scanning hstage hinst' hlisted' hsplit
      (by simpa [BootPhase.next, hidle] using hother fun s h => by cases h)
  · exact .of_scanning hstage hinst' hlisted' hsplit
      (by simpa [BootPhase.next, hidle] using hother fun s h => by cases h)

theorem Story.call {op : MainOp} {r : op.Ret} {ch : BootChoice} (hst : Story c₀ i c g)
    (h₀ : HostRuns c₀ c) (hrun : HostRuns c c') (hthere : There i c) (hmay : g.may op)
    (he : hosts.event c a = some (i, ⟨op, r⟩))
    (hx : c.world.exec i op ch = some (r, c'.world)) (hlive : (g.next op r).stage ≠ .ended) :
    Story c₀ i c' (g.next op r) := by
  cases op with
  | createDirAll | setPermissions =>
    exact hst.keep hrun (by rw [Host.exec_looks rfl hx]) rfl rfl rfl
  | new =>
    cases ch with
    | err e => cases hx
    | run l =>
      have hworld := (Prod.mk.inj (Option.some.inj hx)).2.symm
      refine ⟨fun _ => hst.idle (.inl hmay), fun _ => ⟨_, by rw [hworld], fun name => rfl⟩,
        fun h => ?_, fun h => ?_⟩
      · cases h
      · rcases h with h | h <;> cases h
  | removeFile p =>
    refine hst.keep hrun ?_ rfl rfl rfl
    rcases Host.exec_removeFile hx with ⟨hworld, -⟩ | ⟨-, -, hinst, -⟩
    · rw [hworld]
    · exact hinst
  | bind p => exact hst.bound h₀ hrun hmay hx
  | readDir p =>
    have hloading : g.stage = .loading := hmay
    have hworld : c'.world = c.world := Host.exec_looks rfl hx
    cases r with
    | error e => exact hst.keep hrun (by rw [hworld]) rfl rfl rfl
    | ok listing =>
      obtain ⟨x, hinst, hnone⟩ := hst.loading hloading
      refine .of_scanning (x := x) rfl (by rw [hworld, hinst]) (.intro h₀ he hrun)
        (List.nil_append _).symm ?_
      have hidle : (g.next (.readDir p) (.ok listing)).scan = .idle := hst.idle (.inr hloading)
      rw [hidle]
      refine ⟨fun name e hentry => ?_, fun name hname => ?_, trivial, fun name hname => ?_⟩
      · rw [hnone name] at hentry
        cases hentry
      · cases hname
      · cases hname
  | readToString p => exact hst.read h₀ hrun hthere hmay he hx
  | procExists pid =>
    obtain ⟨hstage, name, s, hscan, hpid⟩ := hmay
    have hworld : c'.world = c.world := Host.exec_looks rfl hx
    have halive := Host.exec_procExists hx
    obtain ⟨x, listing, done, hinst, hlisted, hnames, hscanning⟩ := hst.scanning hstage
    rw [hscan] at hscanning
    refine .of_scanning hstage (by rw [hworld, hinst]) (hlisted.later hrun) hnames ?_
    have hnext : (g.next (.procExists pid) r).scan = .checked name s r := by
      simp only [BootPhase.next, hscan]
    rw [hnext]
    have hlater := hscanning.later hrun
    refine ⟨hlater.seen, hlater.past, ?_, hlater.about⟩
    obtain ⟨c₁, hbefore, hi, hf, hafter⟩ := hscanning.found
    refine ⟨c₁, c, hbefore, hi, hf, hafter, fun p hp => ?_, hrun⟩
    cases hpid.symm.trans hp
    exact halive
  | orInsert name e =>
    obtain ⟨hstage, hentry⟩ := hmay
    cases ch with
    | err e => cases hx
    | run l =>
      have hworld := (Prod.mk.inj (Option.some.inj hx)).2.symm
      obtain ⟨x, listing, done, hinst, hlisted, hnames, hscanning⟩ := hst.scanning hstage
      refine .of_scanning (x := { x with daemon := x.daemon.orInsert name e }) hstage ?_
        (hlisted.later hrun) hnames
        ((hscanning.later hrun).enter hentry)
      rw [hworld, Host.setInst_inst, hinst]
      rfl
  | eventLoop =>
    have hstage : g.stage = .serving := BootPhase.Listens.stage hmay
    obtain ⟨listing, c₁, hbefore, hloaded, hafter⟩ := hst.later (.inl hstage)
    exact .of_later ⟨listing, c₁, hbefore, hloaded, hafter.trans hrun⟩ (.inl hstage)
  | serve =>
    have hstage : g.stage = .serving := BootPhase.Listens.stage hmay
    obtain ⟨listing, c₁, hbefore, hloaded, hafter⟩ := hst.later (.inl hstage)
    exact .of_later ⟨listing, c₁, hbefore, hloaded, hafter.trans hrun⟩ (.inl hstage)
  | shutdown =>
    have hstage : g.stage = .serving := BootPhase.Listens.stage hmay
    obtain ⟨listing, c₁, hbefore, hloaded, hafter⟩ := hst.later (.inl hstage)
    refine .of_later ⟨listing, c₁, hbefore, hloaded, hafter.trans hrun⟩ ?_
    cases r with
    | ok _ => exact .inr rfl
    | error e => exact .inl hstage
  | exit | panic => exact (hlive rfl).elim

theorem Story.change (hst : ∀ i g, d = some (i, g) → Story c₀ i c g) (ht : Tidy c.world d)
    (hd : Present c d) (h₀ : HostRuns c₀ c) (hrun : HostRuns c c')
    (hch : HostChange c a d c'.world d') :
    ∀ i g, d' = some (i, g) → Story c₀ i c' g := by
  intro i g he
  generalize hw : c'.world = w at hch
  cases hch with
  | call hmay hev hx hlive =>
    cases he
    subst hw
    exact (hst _ _ rfl).call h₀ hrun hd.there hmay hev hx hlive
  | ended => cases he
  | launched =>
    cases he
    refine ⟨fun _ => rfl, fun h => ?_, fun h => ?_, fun h => ?_⟩
    · cases h
    · cases h
    · rcases h with h | h <;> cases h
  | rest ha hb hs => exact (hst i g he).keep hrun (by rw [hw]) rfl rfl rfl
  | late hne =>
    exact (hst i g he).keep hrun (by rw [hw, (Host.finish_other (ht.not_owner hne)).2]) rfl rfl rfl

/-- Whatever others do in the meantime, a daemon that serves has begun to listen with a map in which
each entry is for one of the containers listed to it, and is what `recover` makes of a state that
the file has held since the launch; a listed container is missing only if its file held none, or
could not be read, when the daemon came to it. -/
theorem reloaded (hinst : h.inst = none) (hsock : ∀ p j q, h.socket p ≠ .listening j q)
    (hrun : HostRuns ⟨h, []⟩ c) (hi : c.threads[i]? = some th) (hth : Alive th)
    (hserving : serving th = true) :
    ∃ listing c₁, HostRuns ⟨h, []⟩ c₁ ∧ LoadedMap ⟨h, []⟩ i listing c₁ ∧ HostRuns c₁ c := by
  obtain ⟨hc, d, hd, -, hst⟩ := hosted_run
    (I := fun c d => Tidy c.world d ∧ ∀ i g, d = some (i, g) → Story ⟨h, []⟩ i c g)
    (fun _ _ h => h) hrun
    ⟨⟨hinst, hsock⟩, fun i g he => by cases he⟩
    fun _ _ _ _ _ h₀ hok hs hd _ hch hI =>
      ⟨hI.1.change hch, Story.change hI.2 hI.1 hd h₀ (.tail .refl hok hs) hch⟩
  obtain rfl := hd.eq hi hth
  obtain ⟨k, hp⟩ := serving_call hserving
  have hlistens : (bootContract.phase th).Listens := (hc i th hi).may hp
  exact (hst i _ rfl).later (.inl hlistens.stage)

/-- The container has ended when the daemon serves, and its entry is of a moment before. -/
theorem reloaded_sample : ∃ (c : HostConf) (listing : List DirEntry) (c₁ : HostConf),
    HostRuns ⟨leftHost sampleHost, []⟩ c₁ ∧ LoadedMap ⟨leftHost sampleHost, []⟩ 1 listing c₁ ∧
    HostRuns c₁ c ∧
    (∃ e ∈ c.world.sys.world.entry "c", e.state = .running) ∧ c.world.sys.world.procs = [] := by
  have h : ∃ c ∈ runActions hosts.step OneAtATime ⟨leftHost sampleHost, []⟩
      (crashAndStart ++ boots 9 1 oneListed ++ (childFails ++ goes 5 0).map .env ++ boots 4 1 oneListed),
      (∃ th ∈ c.threads[1]?, Alive th ∧ serving th = true) ∧
      (∃ e ∈ c.world.sys.world.entry "c", e.state = .running) ∧ c.world.sys.world.procs = [] := by
    decide +kernel
  obtain ⟨c, hrun, ⟨th, hi, hth, hserving⟩, hrest⟩ := h
  have hnone : ∀ p j q, (leftHost sampleHost).socket p ≠ .listening j q := by
    intro p j q hl
    cases hl
  obtain ⟨listing, c₁, hbefore, hloaded, hafter⟩ :=
    reloaded rfl hnone (.of_runActions hrun) hi hth hserving
  exact ⟨c, listing, c₁, hbefore, hloaded, hafter, hrest⟩

end Clonebox
