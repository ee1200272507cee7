import Clonebox.Netlink.Links
import Clonebox.Setup.Identifiers

/-! # The names that are made from an id

An id is any string. `create_network` cuts off its first nine bytes for the names of the link,
`parent_proc_socket` puts all of it into the path of a socket, and `set_cgroup` into that of a
cgroup. -/

namespace Clonebox
open Conc Prog

variable {α β : Type} {id host peer : String} {n : Nat} {cs s : List Char} {tr : List Sys.Ev}

/-! ### The first bytes of a string -/

/-- The length of a text in bytes. -/
def bytes (cs : List Char) : Nat := (String.ofList cs).utf8ByteSize

@[simp] theorem bytes_nil : bytes [] = 0 := rfl

@[simp] theorem bytes_append {cs' : List Char} : bytes (cs ++ cs') = bytes cs + bytes cs' := by
  rw [bytes, String.ofList_append, String.utf8ByteSize_append]
  rfl

@[simp] theorem bytes_cons {c : Char} : bytes (c :: cs) = c.utf8Size + bytes cs := by
  rw [← List.singleton_append, bytes_append, bytes, ← String.singleton_eq_ofList,
    String.utf8ByteSize_singleton]

theorem bytes_toList : bytes id.toList = id.utf8ByteSize := by rw [bytes, String.ofList_toList]

/-- What is taken is a beginning, and it is all there is or has the length that was asked for. -/
theorem takeBytes_some (h : takeBytes n cs = some s) :
    s <+: cs ∧ bytes s ≤ n ∧ (s = cs ∨ bytes s = n) := by
  induction cs generalizing n s with
  | nil =>
    have hs : s = [] := by cases n <;> simp_all [takeBytes]
    rw [hs]
    exact ⟨List.nil_prefix, Nat.zero_le n, .inl rfl⟩
  | cons c cs ih =>
    cases n with
    | zero =>
      cases h
      exact ⟨List.nil_prefix, Nat.le_refl 0, .inr rfl⟩
    | succ n =>
      rw [takeBytes] at h
      split at h
      · rename_i hfits
        obtain ⟨s', hs', rfl⟩ := Option.map_eq_some_iff.mp h
        obtain ⟨hbegin, hle, hend⟩ := ih hs'
        refine ⟨List.cons_prefix_cons.mpr ⟨rfl, hbegin⟩, ?_, ?_⟩
        · rw [bytes_cons]
          omega
        · rcases hend with rfl | hend
          · exact .inl rfl
          · refine .inr ?_
            rw [bytes_cons]
            omega
      · cases h

/-- A beginning of the right length is what is taken. -/
theorem takeBytes_prefix (hs : s <+: cs) (h : s = cs ∧ bytes s ≤ n ∨ bytes s = n) :
    takeBytes n cs = some s := by
  induction s generalizing n cs with
  | nil =>
    rcases h with ⟨rfl, -⟩ | h
    · cases n <;> rfl
    · cases h
      cases cs <;> rfl
  | cons c s ih =>
    obtain ⟨cs', rfl⟩ := hs
    have hpos : 0 < c.utf8Size := Char.utf8Size_pos c
    rw [bytes_cons] at h
    obtain ⟨m, rfl⟩ : ∃ m, n = m + 1 := ⟨n - 1, by omega⟩
    rw [List.cons_append, takeBytes, if_pos (by omega), ih (List.prefix_append s cs')]
    · rfl
    · rcases h with ⟨he, hle⟩ | h
      · exact .inl ⟨(List.cons.inj he).2, by omega⟩
      · exact .inr (by omega)

/-! ### The names -/

/-- The names that `create_network` gives to the two ends, if it does not panic. -/
def vethNames (id : String) : Option (String × String) :=
  (takeBytes 9 id.toList).map fun suffix => (String.ofList suffix, String.ofList suffix ++ "_peer")

/-- The bytes that the kernel refuses in the name of an interface, NUL aside, which ends it: white
space, of which the byte 160 is one, `/` and `:`. A `%` makes a name a template for others. -/
def barredBytes : List UInt8 := [0, 9, 10, 11, 12, 13, 32, 37, 47, 58, 160]

/-- Names without such a byte that no new interface gets: two directories, two tables of
`/proc/sys/net`, and the interface that is always there. -/
def keptNames : List String := [".", "..", "all", "default", "lo"]

/-- What the kernel takes for the name of a new interface. -/
structure LegalBytes (bs : List UInt8) : Prop where
  nonempty : bs ≠ []
  short : bs.length ≤ 15
  plain : ∀ b ∈ bs, b ∉ barredBytes
  free : bs ∉ keptNames.map asBytes

def Legal (name : String) : Prop := LegalBytes (asBytes name)

/-- The cgroup is one level below a cgroup in which `init_resources` enables the controllers, so
that it has the files of the limits. -/
def Controlled (id : String) : Prop :=
  (cgroupDir id).dropLast ∈ [["sys", "fs", "cgroup"], ["sys", "fs", "cgroup", "clonebox"]]

/-- No name that is made from the id is refused for its spelling. -/
structure UsableNames (id : String) : Prop where
  links : ∃ host peer, vethNames id = some (host, peer) ∧ Legal host ∧ Legal peer
  address : (getSocketPath id).str.utf8ByteSize ≤ 107 ∧ 0 ∉ asBytes (getSocketPath id).str
  cgroup : Controlled id

/-- An id of 1 to 84 bytes, none of which is NUL, the first nine of which end between two characters
and hold no barred byte. A slash can stand behind these only where the cgroup is not nested in that
of another container. -/
structure LegalId (id : String) : Prop where
  nonempty : id ≠ ""
  boundary : id.utf8ByteSize ≤ 9 ∨ ∃ pre post, id = pre ++ post ∧ pre.utf8ByteSize = 9
  plain : ∀ b ∈ (asBytes id).take 9, b ∉ barredBytes
  free : id ∉ keptNames
  noNul : 0 ∉ asBytes id
  short : id.utf8ByteSize ≤ 84
  notNested : Controlled id

/-! ### Bytes -/

theorem asBytes_append (a b : String) : asBytes (a ++ b) = asBytes a ++ asBytes b := by
  simp [asBytes]

theorem asBytes_inj {a b : String} (h : asBytes a = asBytes b) : a = b := by
  rw [← String.toByteArray_inj]
  exact ByteArray.ext (Array.toList_inj.mp h)

theorem length_asBytes (s : String) : (asBytes s).length = s.utf8ByteSize := rfl

theorem asBytes_ne_nil {s : String} (h : s ≠ "") : asBytes s ≠ [] := fun he => h (asBytes_inj he)

/-! ### The names of an id -/

theorem vethNames_some (h : vethNames id = some (host, peer)) :
    takeBytes 9 id.toList = some host.toList ∧ peer = host ++ "_peer" := by
  obtain ⟨s, hs, he⟩ := Option.map_eq_some_iff.mp h
  obtain ⟨rfl, rfl⟩ := Prod.mk.inj he
  rw [String.toList_ofList]
  exact ⟨hs, rfl⟩

/-- The name of the link is all of the id or its first nine bytes. -/
theorem vethNames_cut (h : vethNames id = some (host, peer)) : ∃ rest : String, id = host ++ rest ∧
    host.utf8ByteSize ≤ 9 ∧ (rest = "" ∨ host.utf8ByteSize = 9) := by
  obtain ⟨htake, -⟩ := vethNames_some h
  obtain ⟨⟨rest, hrest⟩, hle, hend⟩ := takeBytes_some htake
  rw [bytes_toList] at hle
  refine ⟨String.ofList rest, ?_, hle, ?_⟩
  · rw [← String.toList_inj, String.toList_append, String.toList_ofList, hrest]
  · rcases hend with hall | hnine
    · have hnil : rest = [] := by simpa [hall] using hrest
      exact .inl (by rw [hnil])
    · exact .inr (by rwa [bytes_toList] at hnine)

/-- What is cut off behind nine bytes is not in the first nine. -/
theorem take_cut {rest : String} (hid : id = host ++ rest) (hle : host.utf8ByteSize ≤ 9)
    (hend : rest = "" ∨ host.utf8ByteSize = 9) : (asBytes id).take 9 = asBytes host := by
  rcases hend with rfl | hnine
  · rw [hid, String.append_empty]
    exact List.take_of_length_le hle
  · rw [hid, asBytes_append]
    exact List.take_left' hnine

/-- Where there is room for nine bytes, the link has the name of the id. -/
theorem vethNames_cut_eq {rest : String} (hid : id = host ++ rest) (hle : host.utf8ByteSize ≤ 9)
    (hend : rest = "" ∨ host.utf8ByteSize = 9) : vethNames id = some (host, host ++ "_peer") := by
  have htake : takeBytes 9 id.toList = some host.toList := by
    refine takeBytes_prefix ⟨rest.toList, by rw [hid, String.toList_append]⟩ ?_
    rw [bytes_toList]
    rcases hend with rfl | hnine
    · rw [hid, String.append_empty]
      exact .inl ⟨rfl, hle⟩
    · exact .inr hnine
  rw [vethNames, htake, Option.map_some, String.ofList_toList]

theorem socketPath_eq : (getSocketPath id).str = "/run/clonebox/" ++ id ++ "/" ++ "start.sk" := rfl

theorem socketPath_size : (getSocketPath id).str.utf8ByteSize = id.utf8ByteSize + 23 := by
  rw [socketPath_eq, String.utf8ByteSize_append, String.utf8ByteSize_append,
    String.utf8ByteSize_append]
  have h₁ : "/run/clonebox/".utf8ByteSize = 14 := rfl
  have h₂ : "/".utf8ByteSize = 1 := rfl
  have h₃ : "start.sk".utf8ByteSize = 8 := rfl
  omega

theorem nul_socketPath : 0 ∈ asBytes (getSocketPath id).str ↔ 0 ∈ asBytes id := by
  have h₁ : 0 ∉ asBytes "/run/clonebox/" := by decide +kernel
  have h₂ : 0 ∉ asBytes "/" := by decide +kernel
  have h₃ : 0 ∉ asBytes "start.sk" := by decide +kernel
  rw [socketPath_eq, asBytes_append, asBytes_append, asBytes_append]
  simp [h₁, h₂, h₃]

/-- The name of the other end is as usable as that of the end in the host. -/
theorem peer_legal (h : Legal host) (hsize : host.utf8ByteSize ≤ 9) : Legal (host ++ "_peer") := by
  have hbytes : asBytes (host ++ "_peer") = asBytes host ++ asBytes "_peer" := asBytes_append ..
  have hpeer : (asBytes "_peer").length = 5 := rfl
  rw [Legal, hbytes]
  refine ⟨fun he => h.nonempty (List.append_eq_nil_iff.mp he).1, ?_, fun b hb => ?_, fun hmem => ?_⟩
  · rw [List.length_append, hpeer, length_asBytes]
    omega
  · rcases List.mem_append.mp hb with hb | hb
    · exact h.plain b hb
    · have hplain : ∀ b ∈ asBytes "_peer", b ∉ barredBytes := by decide +kernel
      exact hplain b hb
  · -- no kept name has an underscore
    have hunder : 95 ∈ asBytes host ++ asBytes "_peer" :=
      List.mem_append_right _ (by decide +kernel)
    have hkept : ∀ bs ∈ keptNames.map asBytes, 95 ∉ bs := by decide +kernel
    exact hkept _ hmem hunder

/-- A kept name is short enough to be the name of the link whole. -/
theorem kept_size (h : id ∈ keptNames) : id.utf8ByteSize ≤ 8 := by
  have hall : ∀ name ∈ keptNames, name.utf8ByteSize ≤ 8 := by decide
  exact hall id h

theorem legalId_of_usable (h : UsableNames id) : LegalId id := by
  obtain ⟨⟨host, peer, hnames, hhost, -⟩, ⟨hlong, hnul⟩, hcgroup⟩ := h
  obtain ⟨rest, hid, hle, hend⟩ := vethNames_cut hnames
  refine ⟨?_, ?_, ?_, fun hkept => ?_, fun hmem => hnul (nul_socketPath.mpr hmem), ?_, hcgroup⟩
  · rintro rfl
    have hempty : host = "" := by
      rw [← String.toList_inj]
      exact (List.append_eq_nil_iff.mp (by rw [← String.toList_append, ← hid]; rfl)).1
    exact hhost.nonempty (by rw [hempty]; rfl)
  · rcases hend with rfl | hnine
    · rw [hid, String.append_empty]
      exact .inl hle
    · exact .inr ⟨host, rest, hid, hnine⟩
  · rw [take_cut hid hle hend]
    exact hhost.plain
  · have hshort := kept_size hkept
    rcases hend with rfl | hnine
    · rw [String.append_empty] at hid
      exact hhost.free (hid ▸ List.mem_map_of_mem hkept)
    · rw [hid, String.utf8ByteSize_append] at hshort
      omega
  · rw [socketPath_size] at hlong
    omega

theorem usable_of_legalId (h : LegalId id) : UsableNames id := by
  -- where the first nine bytes end
  obtain ⟨host, rest, hid, hle, hend⟩ : ∃ host rest : String, id = host ++ rest ∧
      host.utf8ByteSize ≤ 9 ∧ (rest = "" ∨ host.utf8ByteSize = 9) := by
    rcases h.boundary with hle | ⟨pre, post, hid, hnine⟩
    · exact ⟨id, "", String.append_empty.symm, hle, .inl rfl⟩
    · exact ⟨pre, post, hid, Nat.le_of_eq hnine, .inr hnine⟩
  have hhost : Legal host := by
    refine ⟨asBytes_ne_nil ?_, ?_, ?_, fun hmem => ?_⟩
    · rintro rfl
      rcases hend with rfl | hnine
      · exact h.nonempty hid
      · exact absurd hnine (by decide)
    · rw [length_asBytes]
      omega
    · rw [← take_cut hid hle hend]
      exact h.plain
    · obtain ⟨name, hkept, he⟩ := List.mem_map.mp hmem
      obtain rfl := asBytes_inj he
      have hshort := kept_size hkept
      rcases hend with rfl | hnine
      · rw [String.append_empty] at hid
        exact h.free (hid ▸ hkept)
      · omega
  have hnames : vethNames id = some (host, host ++ "_peer") := vethNames_cut_eq hid hle hend
  refine ⟨⟨_, _, hnames, hhost, peer_legal hhost hle⟩, ⟨?_, ?_⟩, h.notNested⟩
  · rw [socketPath_size]
    have hshort := h.short
    omega
  · exact fun hmem => h.noNul (nul_socketPath.mp hmem)

/-! ### The names of two containers -/

/-- What the kernel does not carry out while there are links of these names: both ends of a pair are
made with `NLM_F_EXCL`. -/
def NetlinkRequest.excluded (links : List String) : NetlinkRequest → Prop
  | .createVethPair host peer => host ∈ links ∨ peer ∈ links
  | _ => False

/-- Whichever of these links there are in the host, no request of `create_network` fails for
them. -/
def NotExcluded (id : String) (owned : List String) : Prop :=
  ∀ (pid : Int) (pre post : List Sys.Ev) (sk : Nat) (buf : List UInt8) (r : Io Unit) (q : Core Unit),
    Reaches (createNetwork id pid) (pre ++ ⟨.send sk buf, r⟩ :: post) q →
      ∃ req : NetlinkRequest, buf = (req.write ⟨[]⟩).buf ∧ ∀ links ⊆ owned, ¬req.excluded links

variable {a b : String}

theorem notExcluded {owned : List String} (h : vethNames id = some (host, peer)) (hhost : host ∉ owned)
    (hpeer : peer ∉ owned) : NotExcluded id owned := by
  intro pid pre post sk buf r q hrun
  obtain ⟨req, hturn, hbuf⟩ := sent_in_turn hrun
  refine ⟨req, hbuf, fun links hlinks hex => ?_⟩
  obtain ⟨htake, rfl⟩ := vethNames_some h
  have hmem : req ∈ (exchanged pre).requests id := List.mem_of_getElem? hturn
  rw [Exchange.requests, htake, Option.getD_some, String.ofList_toList] at hmem
  rcases List.mem_cons.mp hmem with rfl | hrest
  · rcases hex with hex | hex
    · exact hhost (hlinks hex)
    · exact hpeer (hlinks hex)
  · -- the first request is the only one that makes links
    simp only [List.mem_cons, List.not_mem_nil, or_false] at hrest
    rcases hrest with rfl | rfl | rfl | rfl | rfl | rfl | rfl | rfl | rfl <;> exact hex

/-- A name of at most nine bytes is the peer name of a link only if nothing was cut off the id the
link is named after. -/
theorem host_is_peer (ha : takeBytes 9 a.toList = some host.toList)
    (hb : takeBytes 9 b.toList = some peer.toList) :
    host = peer ++ "_peer" ↔ takeBytes 9 a.toList = some (b.toList ++ "_peer".toList) := by
  obtain ⟨-, hle, -⟩ := takeBytes_some ha
  obtain ⟨⟨rest, hrest⟩, -, hend⟩ := takeBytes_some hb
  have hwhole (h : bytes peer.toList ≤ 4) : peer.toList = b.toList := by
    rcases hend with hall | hnine
    · exact hall
    · omega
  have hsuffix : bytes "_peer".toList = 5 := rfl
  rw [ha, Option.some_inj, ← String.toList_inj, String.toList_append]
  constructor
  · intro h
    rw [h, bytes_append] at hle
    rw [h, hwhole (by omega)]
  · intro h
    rw [h, bytes_append, ← hrest, bytes_append] at hle
    rw [h, hwhole (by omega)]

theorem peer_inj {host' : String} (h : host ++ "_peer" = host' ++ "_peer") : host = host' := by
  have hlist : host.toList ++ "_peer".toList = host'.toList ++ "_peer".toList := by
    rw [← String.toList_append, h, String.toList_append]
  exact String.toList_inj.mp (List.append_cancel_right hlist)

/-- The names of two containers whose ids differ in their first nine bytes are four, and neither
container stands in the way of the other's link, exactly if the first nine bytes of neither id are
the other id with `_peer` behind it. A name with a `%`, from which the kernel would make others, is
taken as it is. -/
theorem names_apart {host' peer' : String} (ha : vethNames a = some (host, peer))
    (hb : vethNames b = some (host', peer')) (hne : takeBytes 9 a.toList ≠ takeBytes 9 b.toList) :
    ([host, peer, host', peer'].Nodup ∧ NotExcluded a [host', peer'] ∧ NotExcluded b [host, peer]) ↔
      takeBytes 9 a.toList ≠ some (b.toList ++ "_peer".toList) ∧
        takeBytes 9 b.toList ≠ some (a.toList ++ "_peer".toList) := by
  obtain ⟨hta, hpeer⟩ := vethNames_some ha
  obtain ⟨htb, hpeer'⟩ := vethNames_some hb
  have hhosts : host ≠ host' := by
    rintro rfl
    exact hne (hta.trans htb.symm)
  have hpeers : peer ≠ peer' := by
    rw [hpeer, hpeer']
    exact fun h => hhosts (peer_inj h)
  have hown : host ≠ peer := hpeer ▸ host_ne_peer
  have hown' : host' ≠ peer' := hpeer' ▸ host_ne_peer
  rw [Ne, ← host_is_peer hta htb, Ne, ← host_is_peer htb hta, ← hpeer, ← hpeer']
  constructor
  · rintro ⟨hnodup, -⟩
    simp only [List.nodup_cons, List.mem_cons, not_or] at hnodup
    exact ⟨hnodup.1.2.2.1, fun h => hnodup.2.1.1 h.symm⟩
  · rintro ⟨hcross, hcross'⟩
    refine ⟨?_, notExcluded ha ?_ ?_, notExcluded hb ?_ ?_⟩
    · simp [hown, hhosts, hcross, Ne.symm hcross', hpeers, hown']
    · simp [hhosts, hcross]
    · simp [Ne.symm hcross', hpeers]
    · simp [Ne.symm hhosts, hcross']
    · simp [Ne.symm hcross, Ne.symm hpeers]

theorem names_apart_sample : ["web", "web_peer", "db", "db_peer"].Nodup ∧
    NotExcluded "web" ["db", "db_peer"] ∧ NotExcluded "db" ["web", "web_peer"] :=
  (names_apart (by decide +kernel) (by decide +kernel) (by decide +kernel)).mpr (by decide +kernel)

/-- The end of one container in the host has the name of the other end of the other. -/
theorem names_clash : vethNames "db" = some ("db", "db_peer") ∧
    vethNames "db_peer" = some ("db_peer", "db_peer_peer") ∧
    takeBytes 9 "db".toList ≠ takeBytes 9 "db_peer".toList ∧
    (NetlinkRequest.createVethPair "db" "db_peer").excluded ["db_peer"] ∧
    ¬["db", "db_peer", "db_peer", "db_peer_peer"].Nodup :=
  ⟨by decide +kernel, by decide +kernel, by decide +kernel, .inr List.mem_cons_self, by decide⟩

end Clonebox
