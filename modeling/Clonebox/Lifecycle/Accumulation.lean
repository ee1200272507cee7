import Clonebox.Lifecycle.Cycle
import Clonebox.Lifecycle.Ready
import Clonebox.Netlink.Links

/-! # What a sequence of cycles leaves on the host

The bundle and the cgroup are removed by `delete`, and the two ends of the link go with the network
namespace of the container. The rule that `create_network` appends to the NAT table is removed by
nobody. -/

namespace Clonebox
open Conc Prog Tlv

variable {id : String} {n : Nat} {c c' : SysConf} {a : SysAction} {tr tr₁ tr₂ : List Sys.Ev}

/-! ### The host -/

/-- The rule that a call of `iptables` appends to `POSTROUTING`. -/
def appendedRule : Sys.Ev → Option (List String)
  | ⟨.iptables ("-t" :: "nat" :: "-A" :: "POSTROUTING" :: rule), .ok ()⟩ => some rule
  | _ => none

/-- Nobody removes a rule, so they are those that were appended. -/
def postrouting (c : SysConf) : List (List String) :=
  (c.threads.map Thread.trace).flatMap fun tr => tr.filterMap appendedRule

/-- A request of which `meant` is true is sent, and is not answered by an error. -/
def acknowledges (meant : List UInt8 → Bool) : Sys.Ev → Option Sys.Ev → Bool
  | ⟨.send _ buf, .ok ()⟩, some ⟨.recv _, .ok (.ack _)⟩ => meant buf
  | ⟨.send _ buf, .ok ()⟩, some ⟨.recv _, .ok (.link _)⟩ => meant buf
  | _, _ => false

def acknowledged (meant : List UInt8 → Bool) : List Sys.Ev → Bool
  | [] => false
  | ev :: tr => acknowledges meant ev tr.head? || acknowledged meant tr

/-- No process of the child that thread `i` has cloned is left, so its network namespace is gone. -/
def childGone (w : World) (i : Nat) : Bool := w.procs.all fun p => p.parent ≠ i ∨ p.status ≠ none

/-- The link that a supervisor has made on the host. It goes with the namespace its other end is
in. -/
def linkOf (w : World) (i : Nat) (th : SysThread) : Option String :=
  match kindOf th, phaseOf th with
  | .create _ _ _, .create .child => none
  | .create id _ _, _ =>
    if acknowledged (makesPair id) th.trace ∧ ¬(acknowledged movesLink th.trace ∧ childGone w i) then
      some (hostEnd id)
    else none
  | _, _ => none

def hostLinks (c : SysConf) : List String :=
  (List.range c.threads.length).filterMap fun i => (c.threads[i]?).bind (linkOf c.world i)

/-- What a container can leave on the host. -/
structure HostState where
  bundles : String → Bool
  cgroups : String → Bool
  links : List String
  postrouting : List (List String)

def hostState (c : SysConf) : HostState where
  bundles id := (c.world.bundle id).isSome
  cgroups id := c.world.cgroup id
  links := hostLinks c
  postrouting := postrouting c

/-! ### The network of a container -/

theorem acknowledged_right {meant : List UInt8 → Bool} (h : acknowledged meant tr₂ = true) :
    acknowledged meant (tr₁ ++ tr₂) = true := by
  induction tr₁ with
  | nil => exact h
  | cons ev tr₁ ih => simp [acknowledged, ih]

theorem acknowledged_left {meant : List UInt8 → Bool} (h : acknowledged meant tr₁ = true) :
    acknowledged meant (tr₁ ++ tr₂) = true := by
  induction tr₁ with
  | nil => contradiction
  | cons ev tr₁ ih =>
    rw [acknowledged, Bool.or_eq_true] at h
    rw [List.cons_append, acknowledged, Bool.or_eq_true]
    rcases h with h | h
    · refine .inl ?_
      cases tr₁ with
      | nil => simp [acknowledges] at h
      | cons ev' tr₁ => exact h
    · exact .inr (ih h)

theorem acknowledged_exchange {meant : List UInt8 → Bool} {sk : Nat} {buf : List UInt8}
    {reply : NetlinkReply} (hreply : ∀ e, reply ≠ .error e) (hmeant : meant buf = true) :
    acknowledged meant ([⟨.send sk buf, .ok ()⟩, ⟨.recv sk, .ok reply⟩] ++ tr) = true := by
  cases reply with
  | error e => exact (hreply e rfl).elim
  | ack _ | link _ => simp [acknowledged, acknowledges, hmeant]

/-- A network that is set up has a link in the namespace of the container, and has appended a
rule. -/
theorem createNetwork_ret {pid : Int} (h : Reaches (createNetwork id pid) tr (.ret ())) :
    acknowledged movesLink tr = true ∧ ⟨.iptables iptablesArgs, .ok ()⟩ ∈ tr := by
  obtain ⟨_, _, _, rfl, -, h⟩ := h.of_bind_ret
  obtain ⟨_, _, fd, rfl, -, h⟩ := h.of_bind_ret
  cases hsuffix : takeBytes 9 id.toList with
  | none =>
    simp only [hsuffix] at h
    rcases Reaches.of_call h with ⟨-, e⟩ | ⟨r, _, rfl, hhalt⟩
    · cases e
    · cases hhalt.of_halt.2
  | some suffix =>
    simp only [hsuffix] at h
    obtain ⟨_, _, sk, rfl, -, h⟩ := h.of_bind_ret
    obtain ⟨_, _, ⟨_, w₁⟩, rfl, hpair, h⟩ := h.of_bind_ret
    obtain ⟨_, _, ⟨hostIId, w₂⟩, rfl, hhost, h⟩ := h.of_bind_ret
    obtain ⟨_, _, ⟨_, w₃⟩, rfl, haddr, h⟩ := h.of_bind_ret
    obtain ⟨_, _, ⟨_, w₄⟩, rfl, hup, h⟩ := h.of_bind_ret
    obtain ⟨_, _, ⟨childIId, w₅⟩, rfl, hpeer, h⟩ := h.of_bind_ret
    obtain ⟨_, _, ⟨_, w₆⟩, rfl, hmove, h⟩ := h.of_bind_ret
    obtain ⟨_, _, _, rfl, -, h⟩ := h.of_bind_ret
    obtain ⟨_, _, _, rfl, -, h⟩ := h.of_bind_ret
    obtain ⟨_, _, _, rfl, -, h⟩ := h.of_bind_ret
    obtain ⟨_, _, _, rfl, -, h⟩ := h.of_bind_ret
    cases reaches_sys (reaches_mapErr h)
    obtain rfl := query_ret hpeer
    obtain ⟨-, reply, hreply, rfl⟩ := request_ret hmove
    refine ⟨?_, by simp⟩
    repeat first
      | exact acknowledged_exchange hreply (movesLink_write childIId fd)
      | refine acknowledged_right ?_

/-! ### The supervisor of a cycle -/

/-- A supervisor that has written `created` has said so. -/
theorem PastCreated.said {th : SysThread} (h : PastCreated id (kindOf th) (phaseOf th))
    (hconf : contract.Conforms th) : SaidCreated th := by
  obtain ⟨ev, hmem, g, hmay, hng, hg⟩ := hconf.past.cause (I := fun g => PastCreated id (kindOf th) g)
    (AtStage.not_init rfl th.main) h
  refine ⟨ev, hmem, ?_⟩
  rcases AtStage.entry (Kind.may_does hmay) hg with hg | ⟨cp, sp', st, st', hk', rfl, -, hm, hst⟩
  · exact (hng hg).elim
  · have hst₀ : st.past = false := by
      cases hst₀ : st.past with
      | false => rfl
      | true => exact (hng ⟨cp, sp', st, hk', rfl, hst₀⟩).elim
    obtain ⟨op, r⟩ := ev
    cases hm <;> first | rfl | contradiction

/-- It has a link in the namespace of its child, and has appended a rule. -/
theorem PastCreated.network {th : SysThread} (h : PastCreated id (kindOf th) (phaseOf th))
    (hconf : contract.Conforms th) (ht : (system.prog th.main).Reaches th.trace th.prog) :
    acknowledged movesLink th.trace = true ∧ ⟨.iptables iptablesArgs, .ok ()⟩ ∈ th.trace := by
  have hsaid := h.said hconf
  obtain ⟨cp, sp, st, hk, -, -⟩ := h
  obtain ⟨args, pid, -, -, hprep⟩ := hsaid.prepared ht hk
  obtain ⟨tr₀, tr₁, tr₂, u, he, hnet⟩ := hprep.network
  obtain ⟨hmoves, hrule⟩ := createNetwork_ret hnet
  rw [he]
  exact ⟨acknowledged_left (acknowledged_right hmoves), by simp [hrule]⟩

/-- A supervisor that has returned has written `created` before. -/
theorem returned_past {th : SysThread} {configPath : String} {sp : Option String} {r : Reply}
    (h : contract.Conforms th) (hk : kindOf th = .create id configPath sp) (hret : th.prog = .ret r) :
    PastCreated id (kindOf th) (phaseOf th) := by
  have hrest : th.prog.Obeys th.main.proto (kindOf th).post (phaseOf th) :=
    h.rest.mono fun _ _ hpost => hpost.1
  obtain ⟨st, hg⟩ := create_phase h hk
  rw [hret, hk, hg] at hrest
  obtain ⟨pid, rfl⟩ : ∃ pid, st = .stopped pid := hrest
  exact ⟨configPath, sp, _, hk, hg, rfl⟩

/-! ### What a cycle leaves -/

theorem linkOf_congr {w w' : World} {i : Nat} {th th' : SysThread} (hm : th'.main = th.main)
    (htr : th'.trace = th.trace) (hp : w'.procs = w.procs) : linkOf w' i th' = linkOf w i th := by
  have hph : phaseOf th' = phaseOf th := by
    simp only [phaseOf, Machine.Contract.phase, hm, htr]
  unfold linkOf childGone
  rw [kindOf, hph, hm, htr, hp, ← kindOf]

/-- The child of a supervisor holds no link, and neither does a supervisor whose child is gone. -/
theorem linkOf_none {w : World} {i : Nat} {th : SysThread}
    (h : phaseOf th = .create .child ∨ acknowledged movesLink th.trace = true ∧ childGone w i = true) :
    linkOf w i th = none := by
  unfold linkOf
  split
  · rfl
  · rename_i hnot
    rcases h with hg | hgone
    · exact (hnot hg).elim
    · exact if_neg fun hlink => hlink.2 hgone
  · rfl

theorem childGone_of_none {w : World} (h : w.procs = []) (i : Nat) : childGone w i = true := by
  rw [childGone, h]
  rfl

/-- The supervisor of a cycle, at its end. -/
theorem Cycle.supervisor {force : Bool} (hc : Conforming c') (ht : Machine.Traced system c')
    (h : Cycle id force c c') : ∃ th, c'.threads[c.threads.length]? = some th ∧
      acknowledged movesLink th.trace = true ∧ ⟨.iptables iptablesArgs, .ok ()⟩ ∈ th.trace := by
  obtain ⟨-, hcreate, -, -, -, creates, -, starts, -, kills, -, deletes, -, ⟨th, r, hi, hret⟩, -⟩ := h
  obtain ⟨th₁, hi₁, hm₁⟩ := creates.main
  obtain ⟨th₂, hi₂, hm₂⟩ := run_main (starts.run.trans (kills.run.trans deletes.run)) hi₁
  cases hi.symm.trans hi₂
  have hk := (congrArg Main.kind (hm₂.trans hm₁)).trans hcreate
  exact ⟨th, hi, (returned_past (hc _ th hi) hk hret).network (hc _ th hi) (ht _ th hi)⟩

/-- The threads of a cycle have no link on the host when it is over. -/
theorem Cycle.new_links {force : Bool} (hc : Conforming c) (ht : Machine.Traced system c')
    (h : Cycle id force c c') {i : Nat} {th : SysThread} (hge : c.threads.length ≤ i)
    (hi : c'.threads[i]? = some th) : linkOf c'.world i th = none := by
  have hc' : Conforming c' := h.run.invariant (fun c a c' hc _ hs => hc.step hs) hc
  obtain ⟨-, hin, -⟩ := h.inCycle hc
  obtain ⟨sup, hn, hmoves, -⟩ := h.supervisor hc' ht
  have hserve := hin.serve i th (renewed_new hge hi)
  cases hk : kindOf th with
  | create id' cp sp =>
    rw [hk] at hserve
    obtain rfl : id' = id := hserve
    rcases hin.sole i th cp sp (renewed_new hge hi) hk with rfl | hg
    · cases hi.symm.trans hn
      exact linkOf_none (.inr ⟨hmoves, childGone_of_none h.atRest.2.gone _⟩)
    · exact linkOf_none (.inl hg)
  | turn | kill | delete | exec | handler | observer => simp [linkOf, hk]

theorem Cycle.links {force : Bool} (hc : Conforming c) (ht : Machine.Traced system c')
    (h : Cycle id force c c') : hostLinks c' = hostLinks c := by
  obtain ⟨hrest, hrest'⟩ := h.atRest
  have hprocs : c'.world.procs = c.world.procs := hrest'.gone.trans hrest.gone.symm
  have hpast : Past c.threads.length c' :=
    h.run.invariant (fun c₁ a c₂ h _ hs => h.step hs) hrest.past
  obtain ⟨k, hk⟩ := Nat.exists_eq_add_of_le hpast.length
  have hold : ∀ i ∈ List.range c.threads.length,
      (c'.threads[i]?).bind (linkOf c'.world i) = (c.threads[i]?).bind (linkOf c.world i) := by
    intro i hi
    have hlt : i < c.threads.length := List.mem_range.mp hi
    obtain ⟨th', hi', hm, htr⟩ := hrest.past.unchanged h.run hlt (List.getElem?_eq_getElem hlt)
    rw [hi', List.getElem?_eq_getElem hlt]
    exact linkOf_congr hm htr hprocs
  have hnew : ∀ i ∈ (List.range k).map (c.threads.length + ·),
      (c'.threads[i]?).bind (linkOf c'.world i) = none := by
    intro i hi
    obtain ⟨j, -, rfl⟩ := List.mem_map.mp hi
    cases hj : c'.threads[c.threads.length + j]? with
    | none => rfl
    | some th => exact h.new_links hc ht (Nat.le_add_right _ _) hj
  rw [hostLinks, hk, List.range_add, List.filterMap_append, List.filterMap_congr hold,
    List.filterMap_eq_nil_iff.mpr hnew, List.append_nil, hostLinks]

/-- A cycle appends a rule. -/
theorem Cycle.appends {force : Bool} (hc : Conforming c) (ht : Machine.Traced system c')
    (h : Cycle id force c c') : (postrouting c).length < (postrouting c').length := by
  have hc' : Conforming c' := h.run.invariant (fun c a c' hc _ hs => hc.step hs) hc
  obtain ⟨sup, hn, -, hrule⟩ := h.supervisor hc' ht
  have hrest := h.atRest.1
  -- the traces of the earlier threads come first, as they were
  have hold : (c'.threads.take c.threads.length).map Thread.trace = c.threads.map Thread.trace := by
    refine List.ext_getElem? fun i => ?_
    rcases Nat.lt_or_ge i c.threads.length with hlt | hge
    · obtain ⟨th', hi', -, htr⟩ := hrest.past.unchanged h.run hlt (List.getElem?_eq_getElem hlt)
      rw [List.getElem?_map, List.getElem?_take_of_lt hlt, hi', List.getElem?_map,
        List.getElem?_eq_getElem hlt]
      exact congrArg some htr
    · rw [List.getElem?_eq_none (by simp; omega), List.getElem?_eq_none (by simpa using hge)]
  have hnew : sup ∈ c'.threads.drop c.threads.length := by
    refine List.mem_of_getElem? (i := 0) ?_
    rw [List.getElem?_drop]
    exact hn
  have hpos : 0 < (((c'.threads.drop c.threads.length).map Thread.trace).flatMap
      fun tr => tr.filterMap appendedRule).length := by
    have hmem : iptablesArgs.drop 4 ∈ sup.trace.filterMap appendedRule :=
      List.mem_filterMap.mpr ⟨_, hrule, rfl⟩
    exact List.length_pos_of_mem (List.mem_flatMap.mpr ⟨_, List.mem_map_of_mem hnew, hmem⟩)
  have hsplit : postrouting c' = postrouting c ++ ((c'.threads.drop c.threads.length).map
      Thread.trace).flatMap fun tr => tr.filterMap appendedRule := by
    rw [postrouting, postrouting, ← hold, ← List.flatMap_append, ← List.map_append, List.take_append_drop]
  rw [hsplit, List.length_append]
  omega

/-! ### Sequences of cycles -/

theorem Cycles.leaves {cycles : List (String × Bool)} (hc : Conforming c)
    (ht : Machine.Traced system c) (h : Cycles cycles c c') : hostLinks c' = hostLinks c ∧
      (postrouting c).length + cycles.length ≤ (postrouting c').length := by
  induction cycles generalizing c with
  | nil =>
    cases h
    exact ⟨rfl, Nat.le_refl _⟩
  | cons x cycles ih =>
    obtain ⟨id, force⟩ := x
    obtain ⟨c₁, hfirst, hrest⟩ := h
    have hc₁ : Conforming c₁ := hfirst.run.invariant (fun c a c' hc _ hs => hc.step hs) hc
    have ht₁ : Machine.Traced system c₁ := hfirst.run.invariant (fun c a c' ht _ hs => ht.step hs) ht
    obtain ⟨hlinks, hrules⟩ := ih hc₁ ht₁ hrest
    have hmore := hfirst.appends hc ht₁
    refine ⟨hlinks.trans (hfirst.links hc ht₁), ?_⟩
    rw [List.length_cons]
    omega

theorem Cycles.leaves_unforced {cycles : List (String × Bool)} (hc : Conforming c)
    (h : Cycles cycles c c') (hforce : ∀ x ∈ cycles, x.2 = false) :
    (∀ id, (c'.world.bundle id).isSome = (c.world.bundle id).isSome) ∧ ∀ id, c'.world.cgroup id = true ↔
      c.world.cgroup id = true ∧ id ∉ cycles.map Prod.fst := by
  induction cycles generalizing c with
  | nil =>
    cases h
    simp
  | cons x cycles ih =>
    obtain ⟨id, force⟩ := x
    obtain ⟨hhead, htail⟩ := List.forall_mem_cons.mp hforce
    obtain rfl : force = false := hhead
    obtain ⟨c₁, hfirst, hrest⟩ := h
    have hc₁ : Conforming c₁ := hfirst.run.invariant (fun c a c' hc _ hs => hc.step hs) hc
    obtain ⟨hbundles, hcgroups⟩ := ih hc₁ hrest htail
    obtain ⟨hnone, -⟩ := hfirst.inCycle hc
    obtain ⟨hgone, hvac, hothers⟩ := hfirst.leaves hc
    constructor
    · intro id'
      rw [hbundles]
      rcases eq_or_ne id' id with rfl | hne
      · rw [hgone, hnone]
      · exact (hothers id' hne).1
    · intro id'
      rw [hcgroups]
      rcases eq_or_ne id' id with rfl | hne
      · simp [hvac.gone]
      · simp [(hothers id' hne).2, hne]

/-- After the first of a sequence of cycles the host is as after the last one if and only if there
is no other: each cycle appends a rule to the NAT table. The links are the same, and without force
so are the bundles and the cgroups, but for cgroups that were there before and are removed with
their containers. -/
theorem cycles_accumulate {w : World} {c₀ c₁ c : SysConf} {id : String} {force : Bool}
    {rest : List (String × Bool)} (hrun : Steps system.step (fun _ _ => True) (fresh w) c₀)
    (hfirst : Cycle id force c₀ c₁) (hrest : Cycles rest c₁ c) :
    (hostState c = hostState c₁ ↔ rest.length + 1 = 1) ∧ (hostState c).links = (hostState c₁).links ∧
      (hostState c₁).postrouting.length + rest.length ≤ (hostState c).postrouting.length ∧
      ((∀ x ∈ rest, x.2 = false) → (hostState c).bundles = (hostState c₁).bundles ∧
        ∀ id, (hostState c).cgroups id = true ↔
          (hostState c₁).cgroups id = true ∧ id ∉ rest.map Prod.fst) := by
  have hreach := hrun.trans hfirst.run
  have hc₁ : Conforming c₁ := hreach.invariant (fun c a c' hc _ hs => hc.step hs) (conforming_fresh w)
  have ht₁ : Machine.Traced system c₁ :=
    hreach.invariant (fun c a c' ht _ hs => ht.step hs) fun i th hi => by simp at hi
  obtain ⟨hlinks, hrules⟩ := hrest.leaves hc₁ ht₁
  refine ⟨⟨fun hsame => ?_, fun hlen => ?_⟩, hlinks, hrules, fun hforce => ?_⟩
  · have hpost : (postrouting c).length = (postrouting c₁).length :=
      congrArg (fun s => s.postrouting.length) hsame
    omega
  · obtain rfl : rest = [] := List.length_eq_zero_iff.mp (by omega)
    cases hrest
    rfl
  · obtain ⟨hbundles, hcgroups⟩ := hrest.leaves_unforced hc₁ hforce
    exact ⟨funext hbundles, hcgroups⟩

/-! ### Two cycles -/

/-- `m` is started, and then the actions are taken. -/
def proceed (m : Main) (as : List SysAction) (c : SysConf) : Option SysConf :=
  (system.step c (.invoke m)).bind (runActions system.step Within · as)

theorem Proceeds.of_proceed {m : Main} {as : List SysAction} (h : proceed m as c = some c') :
    Proceeds m c c' := by
  obtain ⟨c₁, hs, hrun⟩ := Option.bind_eq_some_iff.mp h
  exact ⟨c₁, hs, .of_runActions hrun⟩

/-- The configurations after `create`, `start`, `kill` and `delete` of a container. -/
structure Cycled (c : SysConf) where
  created : SysConf
  started : SysConf
  killed : SysConf
  deleted : SysConf

/-- The cycle of the container `c` that starts at thread `n`. -/
def lifecycle (n : Nat) (c : SysConf) : Option (Cycled c) := do
  let c₁ ← proceed (.create "c" "cfg" none) (goes 18 n ++ [.call n (.run 7)] ++ goes 38 n) c
  let c₂ ← proceed (.turn .start "c") (goes 5 (n + 2)) c₁
  let c₃ ← proceed (.kill "c")
    (goes 3 (n + 3) ++ [.crash (n + 1), .env (.exit 7 (.signaled 9 false))] ++ goes 7 n) c₂
  let c₄ ← proceed (.delete "c" false) (goes 3 (n + 4)) c₃
  return ⟨c₁, c₂, c₃, c₄⟩

def hasReturned (i : Nat) (c : SysConf) : Bool := ((c.threads[i]?).bind reply).isSome

theorem Returned.of_hasReturned {i : Nat} (h : hasReturned i c = true) : Returned i c := by
  obtain ⟨r, hr⟩ := Option.isSome_iff_exists.mp h
  obtain ⟨th, hi, hth⟩ := Option.bind_eq_some_iff.mp hr
  exact ⟨th, r, hi, reply_some hth⟩

/-- What makes it a cycle. -/
structure Cycled.Complete (x : Cycled c) : Prop where
  rest : AtRest c
  created : ∃ th ∈ x.created.threads[c.threads.length]?,
    atStage "c" Stage.past (kindOf th) (phaseOf th) = true
  started : hasReturned x.created.threads.length x.started = true
  killed : hasReturned x.started.threads.length x.killed = true
  deleted : hasReturned x.killed.threads.length x.deleted = true
  ended : hasReturned c.threads.length x.deleted = true
  rest' : AtRest x.deleted

instance {x : Cycled c} : Decidable x.Complete :=
  decidable_of_iff (AtRest c ∧ (∃ th ∈ x.created.threads[c.threads.length]?,
      atStage "c" Stage.past (kindOf th) (phaseOf th) = true) ∧
      hasReturned x.created.threads.length x.started = true ∧
      hasReturned x.started.threads.length x.killed = true ∧
      hasReturned x.killed.threads.length x.deleted = true ∧
      hasReturned c.threads.length x.deleted = true ∧ AtRest x.deleted)
    ⟨fun ⟨h₁, h₂, h₃, h₄, h₅, h₆, h₇⟩ => ⟨h₁, h₂, h₃, h₄, h₅, h₆, h₇⟩,
      fun h => ⟨h.rest, h.created, h.started, h.killed, h.deleted, h.ended, h.rest'⟩⟩

theorem Cycled.Complete.cycle {x : Cycled c} (hx : lifecycle n c = some x) (h : x.Complete) :
    Cycle "c" false c x.deleted := by
  obtain ⟨c₁, h₁, hx⟩ := Option.bind_eq_some_iff.mp hx
  obtain ⟨c₂, h₂, hx⟩ := Option.bind_eq_some_iff.mp hx
  obtain ⟨c₃, h₃, hx⟩ := Option.bind_eq_some_iff.mp hx
  obtain ⟨c₄, h₄, hx⟩ := Option.bind_eq_some_iff.mp hx
  cases hx
  obtain ⟨th, hi, hst⟩ := h.created
  exact .intro h.rest rfl rfl rfl rfl (.of_proceed h₁) ⟨th, hi, atStage_iff.mp hst⟩
    (.of_proceed h₂) (.of_hasReturned h.started) (.of_proceed h₃) (.of_hasReturned h.killed)
    (.of_proceed h₄) (.of_hasReturned h.deleted) (.of_hasReturned h.ended) h.rest'

/-- Two cycles of one container on a host where nothing has run. -/
theorem cycled_twice : ∃ (x : Cycled (fresh sampleHost)) (y : Cycled x.deleted),
    lifecycle 0 (fresh sampleHost) = some x ∧ x.Complete ∧ lifecycle 5 x.deleted = some y ∧ y.Complete ∧
      (postrouting x.deleted).length = 1 ∧ (postrouting y.deleted).length = 2 := by
  have h : ∃ x ∈ lifecycle 0 (fresh sampleHost), x.Complete ∧ (postrouting x.deleted).length = 1 ∧
      ∃ y ∈ lifecycle 5 x.deleted, y.Complete ∧ (postrouting y.deleted).length = 2 := by
    decide +kernel
  obtain ⟨x, hx, hcomplete, hone, y, hy, hcomplete', htwo⟩ := h
  exact ⟨x, y, hx, hcomplete, hy, hcomplete', hone, htwo⟩

theorem cycles_accumulate_sample : ∃ c₁ c : SysConf, Cycle "c" false (fresh sampleHost) c₁ ∧
    Cycle "c" false c₁ c ∧ hostState c ≠ hostState c₁ ∧
    (hostState c).links = (hostState c₁).links ∧ (hostState c).bundles = (hostState c₁).bundles := by
  obtain ⟨x, y, hx, hcomplete, hy, hcomplete', -⟩ := cycled_twice
  have hfirst := hcomplete.cycle hx
  have hsecond := hcomplete'.cycle hy
  obtain ⟨hsame, hlinks, -, hforce⟩ :=
    cycles_accumulate .refl hfirst (show Cycles [("c", false)] x.deleted y.deleted from ⟨_, hsecond, rfl⟩)
  refine ⟨x.deleted, y.deleted, hfirst, hsecond, fun e => ?_, hlinks, (hforce (by simp)).1⟩
  have hlen : 2 = 1 := hsame.mp e
  exact absurd hlen (by decide)

/-- The second cycle leaves one rule more than the first. -/
theorem rules_accumulate : ∃ c₁ c : SysConf, Cycle "c" false (fresh sampleHost) c₁ ∧
    Cycles [("c", false)] c₁ c ∧ (hostState c₁).postrouting.length = 1 ∧
    (hostState c).postrouting.length = 2 ∧ hostState c ≠ hostState c₁ := by
  obtain ⟨x, y, hx, hcomplete, hy, hcomplete', hone, htwo⟩ := cycled_twice
  refine ⟨x.deleted, y.deleted, hcomplete.cycle hx, ⟨_, hcomplete'.cycle hy, rfl⟩, hone, htwo,
    fun e => ?_⟩
  have hlen : (postrouting y.deleted).length = (postrouting x.deleted).length :=
    congrArg (fun s => s.postrouting.length) e
  omega

end Clonebox
