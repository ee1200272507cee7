import Clonebox.Setup.ChildEnd
import Clonebox.Setup.Names
import Clonebox.System.Kernel

/-! # What the spelling of an id makes fail

The supervisor of a container hands the names that are made from its id to the kernel: in its
requests, in the path of its socket and in the files of its cgroup. A run in which the kernel
refuses nothing else fails only where one of these is not as the kernel takes it. -/

namespace Clonebox
open Conc Prog Tlv

variable {α β : Type} {id host peer : String} {tr : List Sys.Ev}

/-! ### What is refused -/

/-- The attribute gives a link this name. A NUL ends it. -/
inductive Attr.Names : Attr → List UInt8 → Prop
  | name {bs : List UInt8} : Attr.Names (.data IFLA_IFNAME.toNat bs) (bs.takeWhile (· ≠ 0))
  | nested {type : Nat} {header bs : List UInt8} {attrs : List Attr} {attr : Attr}
    (hmem : attr ∈ attrs) (h : attr.Names bs) : Attr.Names (.nest type header attrs) bs

/-- The request has a name for a link that the kernel does not take. -/
def Misnames (buf : List UInt8) : Prop :=
  ∃ m i, readMessage buf = some m ∧ m.header = .link i ∧
    ∃ attr ∈ m.attrs, ∃ bs, attr.Names bs ∧ ¬LegalBytes bs

/-- The kernel refuses the call for what it spells. -/
def Op.Misspelt : Op → Prop
  | .send _ buf => Misnames buf
  | .write (.inCgroup id resource _) _ => resource ∈ resources ∧ ¬Controlled id
  | .bind p => 107 < p.str.utf8ByteSize
  | _ => False

/-- The answer is an error. A reply can carry one, and what is read of a state file can be no
state. -/
inductive Denied : Sys.Ev → Prop
  | failed {op : Op} {r : op.Ret} {e : Errno} (h : op.failure e = some r) : Denied ⟨op, r⟩
  | reply {sk : Nat} {e : Errno} : Denied ⟨.recv sk, .ok (.error e)⟩
  | noState {id : String} {c : Content} (h : ∀ s, c ≠ .state s) :
    Denied ⟨.read (.inBundle id .stateJson), .ok c⟩

/-- The call is refused for its own spelling, or it takes the reply to a request that is
misspelt. -/
inductive DeniedForName (pre : List Sys.Ev) : Op → Prop
  | call {op : Op} (h : op.Misspelt) : DeniedForName pre op
  | reply {sk : Nat} {buf : List UInt8} {r : Io Unit} (hsent : ⟨.send sk buf, r⟩ ∈ pre)
    (h : Misnames buf) : DeniedForName pre (.recv sk)

/-- Nothing is refused for anything but its spelling. -/
def OnlyForNames (tr : List Sys.Ev) : Prop :=
  ∀ pre ev post, tr = pre ++ ev :: post → Denied ev → DeniedForName pre ev.1

/-! ### Requests -/

theorem legal_unended {name : String} (h : Legal name) :
    (asBytes name ++ [0]).takeWhile (· ≠ 0) = asBytes name := by
  have hno : ∀ b ∈ asBytes name, decide (b ≠ 0) = true := by
    intro b hb
    refine decide_eq_true fun he => ?_
    exact h.plain b hb (by rw [he]; decide)
  rw [List.takeWhile_append_of_pos hno]
  simp

/-- The names in a request. -/
def NetlinkRequest.names : NetlinkRequest → List String
  | .createVethPair host peer => [host, peer]
  | .getInterfaceIndex iName => [iName]
  | _ => []

theorem NetlinkRequest.nameAttr_names {name : String} {bs : List UInt8}
    (h : (NetlinkRequest.nameAttr name).Names bs) (hlegal : Legal name) : LegalBytes bs := by
  cases h
  rw [legal_unended hlegal]
  exact hlegal

theorem length_nameValue (name : String) : (nameRecord name).value.length = name.utf8ByteSize + 1 :=
  List.length_append

/-- Legal names make a short message. -/
theorem NetlinkRequest.length_lt (req : NetlinkRequest) (h : ∀ name ∈ req.names, Legal name) :
    req.bytes.length < 65536 := by
  have hsize (name : String) (hname : name ∈ req.names) : name.utf8ByteSize ≤ 15 :=
    (h name hname).short
  rw [req.length_bytes, List.length_append]
  cases req with
  | createVethPair host peer =>
    have hhost := hsize host (by simp [names])
    have hpeer := hsize peer (by simp [names])
    have hveth : "veth".utf8ByteSize = 4 := rfl
    simp [records, header, Header.bytes, IfInfoMsg.bytes, encode, linkInfoRecord, dataRecord,
      peerRecord, kindRecord, length_nameValue, Record.length_encode, Record.length, align,
      length_asBytes, hveth]
    omega
  | getInterfaceIndex iName =>
    have hname := hsize iName (by simp [names])
    simp [records, header, Header.bytes, IfInfoMsg.bytes, encode, length_nameValue,
      Record.length_encode, Record.length, align]
    omega
  | setIpAddr | setInterfaceUp | moveToNetns | addDefaultRoute =>
    simp [records, header, Header.bytes, IfInfoMsg.bytes, IfAddrMsg.bytes, RtMsg.bytes, encode,
      Record.length_encode, Record.length, align, Ipv4Addr.octets]

theorem NetlinkRequest.not_misnames (req : NetlinkRequest) (h : ∀ name ∈ req.names, Legal name) :
    ¬Misnames (req.write ⟨[]⟩).buf := by
  rintro ⟨m, i, hm, hlink, attr, hattr, bs, hnames, hbad⟩
  rw [req.write_eq, req.readMessage_bytes (req.length_lt h)] at hm
  cases hm
  refine hbad ?_
  cases req with
  | createVethPair host peer =>
    have hhost := h host (by simp [names])
    have hpeer := h peer (by simp [names])
    simp only [message, attrs, List.mem_cons, List.not_mem_nil, or_false] at hattr
    rcases hattr with rfl | rfl
    · exact nameAttr_names hnames hhost
    · -- the name of the peer is three levels down
      cases hnames with | nested hmem hnames =>
      simp only [List.mem_cons, List.not_mem_nil, or_false] at hmem
      rcases hmem with rfl | rfl
      · cases hnames
      cases hnames with | nested hmem hnames =>
      rw [List.mem_singleton.mp hmem] at hnames
      cases hnames with | nested hmem hnames =>
      rw [List.mem_singleton.mp hmem] at hnames
      exact nameAttr_names hnames hpeer
  | getInterfaceIndex iName =>
    have hname := h iName (by simp [names])
    simp only [message, attrs, List.mem_cons, List.not_mem_nil, or_false] at hattr
    rcases hattr with rfl | rfl
    · cases hnames
    · exact nameAttr_names hnames hname
  | setIpAddr ifaceId ip prefixLen => cases hlink
  | setInterfaceUp ifaceId => cases hattr
  | moveToNetns iId childFd =>
    simp only [message, attrs, List.mem_cons, List.not_mem_nil, or_false] at hattr
    rw [hattr] at hnames
    cases hnames
  | addDefaultRoute ip => cases hlink

/-! ### Runs -/

/-- The call is no panic, and it is spelt as the kernel takes it. -/
def Op.Clean : Op → Prop
  | .panic => False
  | op => ¬op.Misspelt

theorem Op.Clean.spelt {op : Op} (h : op.Clean) : ¬op.Misspelt := by
  cases op with
  | panic => cases h
  | _ => exact h

/-- Until something is refused, every call is clean. -/
def untilDenied : Proto Sys Prop where
  may refused op := refused ∨ op.Clean
  next refused op r := refused ∨ Denied ⟨op, r⟩
  halts _ := True

/-- How such a program ends: with a value of this kind if nothing was refused. -/
def Returns (S : α → Prop) (refused : Prop) (r : Except CoreError α) : Prop :=
  refused ∨ ∃ a, r = .ok a ∧ S a

def Smooth (S : α → Prop) (p : Core α) : Prop := Obeys untilDenied (Returns S) False p

namespace Smooth

variable {S : α → Prop} {T : β → Prop}

/-- When something was refused, anything may follow. -/
theorem refused (p : Core α) {g : Prop} (h : g) : Obeys untilDenied (Returns S) g p := by
  induction p generalizing g with
  | ret a => exact .inl h
  | fail e => exact .inl h
  | halt => trivial
  | call op k ih => exact ⟨.inl h, fun r => ih r (.inl h)⟩

theorem bind {p : Core α} {f : α → Core β} (hp : Smooth S p) (hf : ∀ a, S a → Smooth T (f a)) :
    Smooth T (p.bind f) := by
  refine obeys_bind.mpr (hp.mono fun g r hr => ?_)
  by_cases hg : g
  · cases r with
    | ok a => exact refused (f a) hg
    | error e => exact .inl hg
  · obtain ⟨a, rfl, ha⟩ := hr.resolve_left hg
    rw [eq_false hg]
    exact hf a ha

theorem ret {a : α} (h : S a) : Smooth S (.ret a) := .inr ⟨a, rfl, h⟩

theorem attempt {p : Core α} (hp : Smooth S p) :
    Smooth (fun r => ∃ a, r = .ok a ∧ S a) (p.attempt : Core (Except CoreError α)) := by
  refine obeys_attempt.mpr (hp.mono fun g r hr => ?_)
  exact hr.imp id fun h => ⟨r, rfl, h⟩

theorem ofExcept {r : Except CoreError α} (h : ∃ a, r = .ok a ∧ S a) : Smooth S (.ofExcept r) := by
  obtain ⟨a, rfl, ha⟩ := h
  exact ret ha

theorem sys {op : Op} {S : op.Ret → Prop} (hclean : op.Clean) (h : ∀ r, Denied ⟨op, r⟩ ∨ S r) :
    Smooth S (sys op) :=
  ⟨.inr hclean, fun r => (h r).imp .inr fun hr => ⟨r, rfl, hr⟩⟩

theorem mapErr {δ : Type} {p : Core (Except δ α)} {f : δ → CoreError}
    (hp : Smooth (fun r => ∃ a, r = .ok a) p) : Smooth (fun _ => True) (mapErr p f) := by
  refine hp.bind fun r hr => ?_
  obtain ⟨a, rfl⟩ := hr
  exact ret trivial

end Smooth

/-- An answer is an error or a value. -/
theorem answered {ev : Sys.Ev} {r : Io α} (h : ∀ e, r = .error e → Denied ev) :
    Denied ev ∨ ∃ a, r = .ok a := by
  cases r with
  | error e => exact .inl (h e rfl)
  | ok a => exact .inr ⟨a, rfl⟩

/-! ### The network -/

theorem createNetlinkSocket_smooth : Smooth (fun _ => True) createNetlinkSocket :=
  .bind (.mapErr (.sys not_false fun _ => answered fun _ he => he ▸ .failed rfl)) fun _ _ =>
    .bind (.mapErr (.sys not_false fun _ => answered fun _ he => he ▸ .failed rfl))
      fun _ _ => .ret trivial

/-- What is read of a reply that is no error. -/
theorem recv_smooth {sk : Nat} {f : NetlinkReply → Core α}
    (hf : ∀ r, (∀ e, r ≠ .error e) → Smooth (fun _ => True) (f r)) :
    Smooth (fun _ => True)
      ((mapErr (sys (.recv sk)) fun e => ↑(NetworkError.recvFailure e)).bind f) := by
  refine .bind (S := fun r => ∀ e, r ≠ .error e)
    (.bind (S := fun r => ∃ a, r = .ok a ∧ ∀ e, a ≠ .error e)
      (.sys not_false fun r => ?_) fun r hr => ?_) hf
  · rcases r with e | (e | n | n)
    · exact .inl (.failed rfl)
    · exact .inl .reply
    · exact .inr ⟨_, rfl, fun _ h => by cases h⟩
    · exact .inr ⟨_, rfl, fun _ h => by cases h⟩
  · obtain ⟨a, rfl, ha⟩ := hr
    exact .ret ha

/-- A request that is well spelt is answered, and it leaves nothing in the writer. -/
theorem reply_smooth {γ : Type} {read : Core γ} {sk : Nat} {w : Writer} (hw : ¬Misnames w.buf)
    (hread : Smooth (fun _ => True) read) :
    Smooth (fun x => x.2 = ⟨[]⟩) (orReturn ((sys (.send sk w.buf)).bind fun
      | .error e => .ret (.error ↑(NetworkError.sendFailure e), w)
      | .ok () => read.attempt.bind fun r => .ret (r, w.flush))) := by
  refine .bind (S := fun x => (∃ a, x.1 = .ok a) ∧ x.2 = ⟨[]⟩) ?_ fun x hx => ?_
  · refine .bind (S := fun r => ∃ u, r = .ok u)
      (.sys hw fun _ => answered fun _ he => he ▸ .failed rfl) fun r hr => ?_
    obtain ⟨u, rfl⟩ := hr
    refine .bind hread.attempt fun r hr => .ret ?_
    obtain ⟨a, rfl, -⟩ := hr
    exact ⟨⟨a, rfl⟩, rfl⟩
  · obtain ⟨⟨a, ha⟩, hempty⟩ := hx
    refine .bind (S := fun _ => True) (.ofExcept ⟨a, ha, trivial⟩) fun _ _ => .ret hempty

theorem request_smooth {sk : Nat} {w : Writer} (req : NetlinkRequest)
    (h : ∀ name ∈ req.names, Legal name) (hw : w = req.write ⟨[]⟩) :
    Smooth (fun x => x.2 = ⟨[]⟩) (orReturn (request sk w)) := by
  subst hw
  refine reply_smooth (req.not_misnames h) (recv_smooth fun r hr => ?_)
  cases r with
  | error e => exact absurd rfl (hr e)
  | ack _ | link _ => exact .ret trivial

/-- A request without a name is never misspelt. -/
theorem unnamed_smooth {sk : Nat} {w : Writer} (req : NetlinkRequest) (h : req.names = [])
    (hw : w = ⟨[]⟩) : Smooth (fun x => x.2 = ⟨[]⟩) (orReturn (request sk (req.write w))) := by
  have hnames : ∀ name ∈ req.names, Legal name := by
    rw [h]
    exact fun name hmem => absurd hmem List.not_mem_nil
  exact request_smooth req hnames (by rw [hw])

theorem query_smooth {sk : Nat} {name : String} (h : Legal name) :
    Smooth (fun x => x.2 = ⟨[]⟩) (orReturn (getInterfaceIndex sk ⟨[]⟩ name)) := by
  have hnames : ∀ n ∈ (NetlinkRequest.getInterfaceIndex name).names, Legal n := by
    simpa [NetlinkRequest.names] using h
  refine reply_smooth ((NetlinkRequest.getInterfaceIndex name).not_misnames hnames)
    (recv_smooth fun r hr => ?_)
  cases r with
  | error e => exact absurd rfl (hr e)
  | ack _ | link _ => exact .ret trivial

theorem createPeerNetwork_smooth (w : Writer) (hw : w = ⟨[]⟩) (i : UInt32) (h p : Ipv4Addr) :
    Smooth (fun _ => True) (createPeerNetwork w i h p) := by
  refine .bind createNetlinkSocket_smooth fun sk _ => ?_
  refine .bind (unnamed_smooth (.setIpAddr i p 24) rfl hw) fun x hx => ?_
  refine .bind (unnamed_smooth (.setInterfaceUp i) rfl hx) fun x hx => ?_
  refine .bind (unnamed_smooth (.setInterfaceUp 1) rfl hx) fun x hx => ?_
  exact .bind (unnamed_smooth (.addDefaultRoute h) rfl hx) fun _ _ => .ret trivial

/-- The slice of the id is the only line of `create_network` that can panic. -/
theorem createNetwork_smooth (h : vethNames id = some (host, peer)) (hhost : Legal host)
    (hpeer : Legal peer) (pid : Int) : Smooth (fun _ => True) (createNetwork id pid) := by
  obtain ⟨htake, rfl⟩ := vethNames_some h
  refine .bind (.mapErr (.sys not_false fun _ => answered fun _ he => he ▸ .failed rfl))
    fun _ _ => ?_
  refine .bind (.mapErr (.sys not_false fun _ => answered fun _ he => he ▸ .failed rfl))
    fun fd _ => ?_
  rw [htake]
  dsimp only
  rw [String.ofList_toList]
  refine .bind createNetlinkSocket_smooth fun sk _ => ?_
  have hpair : ∀ name ∈ (NetlinkRequest.createVethPair host (host ++ "_peer")).names,
      Legal name := by
    simpa [NetlinkRequest.names] using ⟨hhost, hpeer⟩
  refine .bind (request_smooth (.createVethPair host (host ++ "_peer")) hpair rfl) fun x hx => ?_
  obtain ⟨_, w⟩ := x
  obtain rfl : w = ⟨[]⟩ := hx
  refine .bind (query_smooth hhost) fun x hx => ?_
  obtain ⟨i, w⟩ := x
  obtain rfl : w = ⟨[]⟩ := hx
  refine .bind (unnamed_smooth (.setIpAddr i ⟨10, 0, 0, 1⟩ 24) rfl rfl) fun x hx => ?_
  refine .bind (unnamed_smooth (.setInterfaceUp i) rfl hx) fun x hx => ?_
  obtain ⟨_, w⟩ := x
  obtain rfl : w = ⟨[]⟩ := hx
  refine .bind (query_smooth hpeer) fun x hx => ?_
  obtain ⟨j, w⟩ := x
  obtain rfl : w = ⟨[]⟩ := hx
  refine .bind (unnamed_smooth (.moveToNetns j fd) rfl rfl) fun x hx => ?_
  refine .bind (.mapErr (.sys not_false fun _ => answered fun _ he => he ▸ .failed rfl))
    fun _ _ => ?_
  refine .bind (createPeerNetwork_smooth _ hx ..) fun _ _ => ?_
  refine .bind (.mapErr (.sys not_false fun _ => answered fun _ he => he ▸ .failed rfl))
    fun _ _ => ?_
  refine .bind (.mapErr (.sys not_false fun _ => answered fun _ he => he ▸ .failed rfl))
    fun _ _ => ?_
  exact .mapErr (.sys not_false fun _ => answered fun _ he => he ▸ .failed rfl)

/-! ### The supervisor -/

theorem setCgroup_smooth {resource key value : String} (h : Controlled id) :
    Smooth (fun _ => True) (setCgroup id resource key value) :=
  .mapErr (.sys (fun hbad => hbad.2 h) fun _ => answered fun _ he => he ▸ .failed rfl)

theorem report_smooth (sp : Option String) (ev : Event) : Smooth (fun _ => True) (report sp ev) := by
  cases sp with
  | none => exact .ret trivial
  | some s =>
    refine .bind (.mapErr (.sys not_false fun _ => answered fun _ he => he ▸ .failed rfl))
      fun _ _ => ?_
    exact .mapErr (.sys not_false fun _ => answered fun _ he => he ▸ .failed rfl)

theorem updateState_smooth (f : State → State) : Smooth (fun _ => True) (updateState id f) := by
  refine .bind (S := fun _ => True) (.bind (S := fun r => ∃ s, r = .ok (.state s))
    (.sys not_false fun r => ?_) fun r hr => ?_) fun s _ => ?_
  · rcases r with e | (s | c | t)
    · exact .inl (.failed rfl)
    · exact .inr ⟨s, rfl⟩
    · exact .inl (.noState fun _ h => by cases h)
    · exact .inl (.noState fun _ h => by cases h)
  · obtain ⟨s, rfl⟩ := hr
    exact .ret trivial
  · exact .bind (.mapErr (.sys not_false fun _ => answered fun _ he => he ▸ .failed rfl))
      fun _ _ => .ret trivial

theorem superviseChild_smooth (sp : Option String) (ev : Event) (rt : Runtime) (pid : Int) :
    Smooth (fun _ => True) (superviseChild id sp ev rt pid) := by
  have hgate : Smooth (fun _ => True) rt.unfreezeChild := by
    unfold Runtime.unfreezeChild
    cases rt.parentEnd with
    | none => exact .ret trivial
    | some pipe => exact .mapErr (.sys not_false fun _ => answered fun _ he => he ▸ .failed rfl)
  refine .bind hgate fun _ _ => ?_
  refine .bind (.mapErr (.sys not_false fun _ => answered fun _ he => he ▸ .failed rfl))
    fun st _ => ?_
  refine .bind (report_smooth ..) fun _ _ => .bind (updateState_smooth _) fun _ _ => ?_
  exact .mapErr (.sys not_false fun _ => answered fun _ he => he ▸ .failed rfl)

/-- The path of the socket is the only one that can be too long for its address. -/
theorem acceptStart_smooth (h : (getSocketPath id).str.utf8ByteSize ≤ 107) :
    Smooth (fun _ => True) (Runtime.acceptStart id) := by
  have hfits : (unixAddr (getSocketPath id) : Core Path) = .ret (getSocketPath id) := by
    rw [unixAddr, throwIf, if_neg (by omega)]
    rfl
  rw [Runtime.acceptStart, hfits, bind_def, Prog.bind]
  refine .bind (.mapErr (.sys (Nat.not_lt.mpr h) fun _ => answered fun _ he => he ▸ .failed rfl))
    fun _ _ => ?_
  refine .bind (.mapErr (.sys not_false fun _ => answered fun _ he => he ▸ .failed rfl))
    fun _ _ => ?_
  refine .bind (.mapErr (.sys not_false fun _ => answered fun _ he => he ▸ .failed rfl))
    fun _ _ => ?_
  exact .mapErr (.sys not_false fun _ => answered fun _ he => he ▸ .failed rfl)

theorem parentProcSocket_smooth (h : (getSocketPath id).str.utf8ByteSize ≤ 107) (rt : Runtime) :
    Smooth (fun _ => True) (rt.parentProcSocket id) := by
  refine .bind (.mapErr (.sys not_false fun _ => answered fun _ he => he ▸ .failed rfl))
    fun _ _ => ?_
  refine .bind (acceptStart_smooth h).attempt fun r hr => ?_
  obtain ⟨u, rfl, -⟩ := hr
  exact .ret trivial

theorem createParent_smooth (h : UsableNames id) (sp : Option String) (ev : Event) (rt : Runtime)
    (pid : Int) : Smooth (fun _ => True) (createParent id sp ev rt pid) := by
  obtain ⟨⟨host, peer, hnames, hhost, hpeer⟩, ⟨hlong, -⟩, hcgroup⟩ := h
  refine .bind (createNetwork_smooth hnames hhost hpeer pid) fun _ _ => ?_
  refine .bind (setCgroup_smooth hcgroup) fun _ _ => .bind (setCgroup_smooth hcgroup) fun _ _ => ?_
  refine .bind (report_smooth ..) fun _ _ => .bind (updateState_smooth _) fun _ _ => ?_
  refine .bind (parentProcSocket_smooth hlong rt) fun rt' _ => ?_
  refine .bind (superviseChild_smooth ..).attempt fun r hr => ?_
  refine .bind (S := fun _ => True) ?_ fun _ _ => .ofExcept hr
  unfold Runtime.drop
  cases rt'.unixSock with
  | none => exact .ret trivial
  | some path => exact .sys not_false fun _ => .inr trivial

/-! ### Where nothing is misspelt -/

/-- What was refused so far. -/
theorem phase_untilDenied (tr : List Sys.Ev) (g : Prop) :
    untilDenied.phase g tr ↔ g ∨ ∃ ev ∈ tr, Denied ev := by
  induction tr using List.reverseRecOn with
  | nil => simp
  | append_singleton tr ev ih =>
    rw [Proto.phase_snoc]
    show untilDenied.phase g tr ∨ Denied ev ↔ _
    rw [ih]
    simp only [List.mem_append, List.mem_singleton, or_and_right, exists_or, exists_eq_left,
      or_assoc]

/-- As long as nothing was refused, a call is clean. -/
theorem clean_before {pre post : List Sys.Ev} {ev : Sys.Ev} (h : untilDenied.Follows False tr)
    (hcut : tr = pre ++ ev :: post) (hnone : ∀ ev ∈ pre, ¬Denied ev) :
    ev.1.Clean := by
  rcases Proto.Follows.at_split (hcut ▸ h) with hphase | hclean
  · rcases (phase_untilDenied pre False).mp hphase with hfalse | ⟨ev', hev, hdenied⟩
    · exact hfalse.elim
    · exact absurd hdenied (hnone ev' hev)
  · exact hclean

/-- Where nothing is misspelt, what is refused for its spelling is nothing. -/
theorem none_denied (hfollows : untilDenied.Follows False tr) (h : OnlyForNames tr) :
    ∀ ev ∈ tr, ¬Denied ev := by
  -- the first refusal would have none before it
  suffices hall : ∀ pre post, tr = pre ++ post → ∀ ev ∈ pre, ¬Denied ev from
    hall tr [] (List.append_nil tr).symm
  intro pre
  induction pre using List.reverseRecOn with
  | nil => exact fun _ _ ev hev => absurd hev List.not_mem_nil
  | append_singleton pre ev ih =>
    intro post he ev' hmem hdenied
    have hsplit : tr = pre ++ ev :: post := by rw [he, List.append_assoc]; rfl
    have hbefore := ih (ev :: post) hsplit
    rcases List.mem_append.mp hmem with hmem | hmem
    · exact hbefore ev' hmem hdenied
    obtain rfl := List.mem_singleton.mp hmem
    obtain ⟨op, r⟩ := ev'
    cases h pre _ post hsplit hdenied with
    | call hbad => exact (clean_before hfollows hsplit hbefore).spelt hbad
    | @reply sk buf s hsent hbad =>
      obtain ⟨pre', post', rfl⟩ := List.append_of_mem hsent
      have hcut : tr = pre' ++ ⟨.send sk buf, s⟩ :: (post' ++ ⟨.recv sk, r⟩ :: post) := by
        rw [hsplit, List.append_assoc]
        rfl
      exact (clean_before hfollows hcut fun ev hev =>
        hbefore ev (List.mem_append_left _ hev)).spelt hbad

/-- Every call takes effect until the supervisor configures the network. -/
def builds : (op : Op) → Option op.Ret
  | .exists _ => some false
  | .read (.host _) => some (.ok (.config sampleConfig))
  | .read _ => some (.ok (.text "cpu memory"))
  | .write _ _ | .openFile _ | .createDirAll _ | .setPermissions _ _ => some (.ok ())
  | .pipe2 => some (.ok 0)
  | .clone3 _ => some (.ok 7)
  | .openFd _ => some (.ok 5)
  | .panic => some ()
  | _ => none

def clonesChild : Sys.Ev → Bool
  | ⟨.clone3 _, .ok pid⟩ => pid ≠ 0
  | _ => false

/-- The ninth byte of this id is the first of the two bytes of its last character. -/
def accentedId : String := "ubuntu-pé"

end Clonebox
