import Easymesh.System.Hops

open Lib Lib.Result easymesh.cmdu easymesh.ieee1905_network easymesh.bus_msg easymesh.mbusd
open easymesh.cfg_mgr easymesh.mesh_agent

namespace easymesh.system

/-- The messages that were posted because of message `k`. -/
def mesh_system.caused (s : mesh_system) (k : Nat) : List posted_msg :=
  s.posted.filter fun m => m.cause = some k

/-- The frames that the agent gave to a socket because of message `k`. -/
def mesh_system.transmitted (s : mesh_system) (k : Nat) : List sent_frame :=
  s.sent.filter fun f => f.cause = some k

/-- Nothing has come of message `k`. -/
structure mesh_system.Effectless (s : mesh_system) (k : Nat) : Prop where
  caused : s.caused k = []
  transmitted : s.transmitted k = []

/-- Message `k` is a packet for the network that the `cfg_mgr` published. -/
def mesh_system.Packet (s : mesh_system) (k : Nat) (data : List UInt8) : Prop :=
  ∃ m my_name groupname, s.posted[k]? = some m ∧ m.sender = .cfg_mgr ∧
    m.call = .sendmsg_in_group my_name groupname data ∧ packet_to data = ok PKT_NETWORK

/-- What the filter of the agent publishes of a packet that it sends on an interface. -/
def posted_msg.Copies (net : setup) (m : posted_msg) (data : List UInt8) : Prop :=
  m.sender = .mesh_agent ∧ ∃ interface ∈ net.interfaces,
    m.call = .sendmsg_in_group mesh_agent.g_mesh_user_name mesh_agent.g_mesh_group_name
      (filter_packet interface.toNetworkInterface PKT_LOCAL PKT_NETWORK (packet data)).bytes

/-- Of packet `k` came at most one transmission and at most one message, a copy of which
nothing came. -/
structure mesh_system.Stopped (net : setup) (s : mesh_system) (k : Nat) (data : List UInt8) :
    Prop where
  transmitted : (s.transmitted k).length ≤ 1
  caused : (s.caused k).length ≤ 1
  copies : ∀ j m, s.posted[j]? = some m → m.cause = some k →
    m.Copies net data ∧ s.Effectless j

/-- The messages of a client that somebody has still to read, the oldest first. -/
def mesh_system.path (s : mesh_system) (c : client) : List (Nat × List UInt8) :=
  s.to_client c.other ++ s.to_daemon c

/-- A message on the connections is one of the client's, as it stands on the wire, and
nothing has come of it yet. -/
structure mesh_system.UnderWay (s : mesh_system) (c : client) (k : Nat) (frame : List UInt8) :
    Prop where
  posted : ∃ m, s.posted[k]? = some m ∧ m.sender = c ∧ frame = c.wire m.call
  effectless : s.Effectless k

/-- The registry serves the two clients, and every message is read once. -/
structure Flowing (net : setup) (s : mesh_system) : Prop where
  serving : Serving s.daemon
  logged_in : LoggedIn net.fd s.daemon
  posts : ∀ m ∈ s.posted, m.sender.Posts m.call
  later : ∀ k, s.posted.length ≤ k → s.Effectless k
  once : ∀ c, ((s.path c).map Prod.fst).Nodup
  under_way : ∀ c k frame, (k, frame) ∈ s.path c → s.UnderWay c k frame
  stopped : ∀ k data, s.Packet k data → s.Stopped net k data

/-- The calls as they are numbered and put on the wire. -/
def numbered (c : client) (n : Nat) (calls : List mbus_call) : List (Nat × List UInt8) :=
  (calls.zipIdx n).map fun (call, k) => (k, c.wire call)

def posted_by (c : client) (cause : Option Nat) (calls : List mbus_call) : List posted_msg :=
  calls.map fun call => { sender := c, call, cause }

def sent_by (cause : Option Nat) (frames : List (Int × List UInt8)) : List sent_frame :=
  frames.map fun (fd, frame) => { cause, fd, frame }

/-- The client has made the calls, and the frames were given to the sockets. -/
def mesh_system.goes (net : setup) (s : mesh_system) (c : client) (cause : Option Nat)
    (calls : List mbus_call) (frames : List (Int × List UInt8)) : mesh_system :=
  { s with
    to_daemon := Function.update s.to_daemon c
      (s.to_daemon c ++ net.taken .to_daemon (numbered c s.posted.length calls))
    posted := s.posted ++ posted_by c cause calls
    sent := s.sent ++ sent_by cause frames }

section Goes

variable {net : setup} {s s' : mesh_system} {c : client} {cause : Option Nat}
  {calls : List mbus_call} {frames : List (Int × List UInt8)} {j k : Nat} {m : posted_msg}
  {data frame : List UInt8}

theorem taken_sublist (net : setup) (h : hop) (msgs : List (Nat × List UInt8)) :
    (net.taken h msgs).Sublist msgs := List.filter_sublist

theorem mem_taken {h : hop} {msgs : List (Nat × List UInt8)} :
    (k, frame) ∈ net.taken h msgs ↔ (k, frame) ∈ msgs ∧ net.refused h k = false := by
  simp [setup.taken]

theorem taken_numbered_cons (net : setup) (h : hop) (c : client) (n : Nat) (call : mbus_call)
    (calls : List mbus_call) :
    net.taken h (numbered c n (call :: calls)) =
      net.taken h [(n, c.wire call)] ++ net.taken h (numbered c (n + 1) calls) := by
  rw [numbered, List.zipIdx_cons, List.map_cons]
  exact List.filter_append [(n, c.wire call)] (numbered c (n + 1) calls)

theorem foldlM_post (hposts : ∀ call ∈ calls, c.Posts call) :
    calls.foldlM (mesh_system.post net c cause) s = ok (s.goes net c cause calls []) := by
  induction calls generalizing s with
  | nil =>
    simp only [List.foldlM_nil, pure_eq_ok, mesh_system.goes, numbered, posted_by, setup.taken,
      sent_by, List.zipIdx_nil, List.map_nil, List.filter_nil, List.append_nil,
      Function.update_eq_self]
  | cons call calls ih =>
    obtain ⟨hfirst, hrest⟩ := List.forall_mem_cons.mp hposts
    have hread : readBytes (c.wire call) 0 ((c.wire call).length : Int).toNat =
        ok (c.wire call) := by
      rw [Int.toNat_natCast, readBytes_front (List.append_nil _).symm]
    rw [List.foldlM_cons, mesh_system.post, hfirst.handed net, ok_bind]
    dsimp only
    rw [hread, ok_bind, ok_bind, ih hrest]
    simp only [mesh_system.goes, taken_numbered_cons, posted_by, sent_by, List.map_cons,
      List.map_nil, List.append_nil, List.length_append, List.length_singleton,
      Function.update_self, Function.update_idem, List.append_assoc, List.singleton_append]

theorem filter_one_cause {α : Type} {causeOf : α → Option Nat} {xs : List α}
    (h : ∀ x ∈ xs, causeOf x = cause) (k : Nat) :
    xs.filter (fun x => causeOf x = some k) = if cause = some k then xs else [] := by
  split
  · rename_i hcause
    rw [List.filter_eq_self]
    intro x hx
    exact decide_eq_true ((h x hx).trans hcause)
  · rename_i hcause
    rw [List.filter_eq_nil_iff]
    intro x hx hsame
    exact hcause ((h x hx).symm.trans (of_decide_eq_true hsame))

theorem caused_goes (s : mesh_system) (c : client) (cause : Option Nat) (calls : List mbus_call)
    (frames : List (Int × List UInt8)) (k : Nat) :
    (s.goes net c cause calls frames).caused k =
      s.caused k ++ if cause = some k then posted_by c cause calls else [] := by
  rw [mesh_system.caused, mesh_system.goes, List.filter_append, mesh_system.caused]
  congr 1
  apply filter_one_cause
  intro m hm
  obtain ⟨call, -, rfl⟩ := List.mem_map.mp hm
  rfl

theorem transmitted_goes (s : mesh_system) (c : client) (cause : Option Nat)
    (calls : List mbus_call) (frames : List (Int × List UInt8)) (k : Nat) :
    (s.goes net c cause calls frames).transmitted k =
      s.transmitted k ++ if cause = some k then sent_by cause frames else [] := by
  rw [mesh_system.transmitted, mesh_system.goes, List.filter_append, mesh_system.transmitted]
  congr 1
  apply filter_one_cause
  intro f hf
  obtain ⟨frame, -, rfl⟩ := List.mem_map.mp hf
  rfl

theorem effectless_goes (heffect : s.Effectless k)
    (hnone : cause = some k → calls = [] ∧ frames = []) :
    (s.goes net c cause calls frames).Effectless k := by
  constructor
  · rw [caused_goes, heffect.caused, List.nil_append]
    split
    · rename_i hcause
      rw [(hnone hcause).1]
      rfl
    · rfl
  · rw [transmitted_goes, heffect.transmitted, List.nil_append]
    split
    · rename_i hcause
      rw [(hnone hcause).2]
      rfl
    · rfl

theorem posted_goes_of_lt (hk : k < s.posted.length) :
    (s.goes net c cause calls frames).posted[k]? = s.posted[k]? :=
  List.getElem?_append_left hk

theorem numbered_numbers (c : client) (n : Nat) (calls : List mbus_call) :
    (numbered c n calls).map Prod.fst = List.range' n calls.length := by
  rw [numbered, List.map_map, ← List.zipIdx_map_snd n calls]
  rfl

theorem numbered_posted {n : Nat} (h : (k, frame) ∈ numbered c n calls) :
    ∃ call, n ≤ k ∧ calls[k - n]? = some call ∧ frame = c.wire call := by
  obtain ⟨⟨call, i⟩, hmem, heq⟩ := List.mem_map.mp h
  cases heq
  obtain ⟨hle, hget⟩ := List.mem_zipIdx_iff_le_and_getElem?_sub.mp hmem
  exact ⟨call, hle, hget, rfl⟩

theorem path_goes_self (s : mesh_system) (c : client) (cause : Option Nat)
    (calls : List mbus_call) (frames : List (Int × List UInt8)) :
    (s.goes net c cause calls frames).path c =
      s.path c ++ net.taken .to_daemon (numbered c s.posted.length calls) := by
  simp only [mesh_system.path, mesh_system.goes, Function.update_self, List.append_assoc]

theorem path_goes_of_ne {c' : client} (hne : c' ≠ c) :
    (s.goes net c cause calls frames).path c' = s.path c' := by
  simp only [mesh_system.path, mesh_system.goes, Function.update_of_ne hne]

/-- A message on the new path was on it before, or is one of the calls. -/
theorem mem_path_goes {c' : client} (h : (k, frame) ∈ (s.goes net c cause calls frames).path c') :
    (k, frame) ∈ s.path c' ∨ c' = c ∧ (k, frame) ∈ numbered c s.posted.length calls := by
  by_cases hsame : c' = c
  · subst hsame
    rw [path_goes_self] at h
    exact (List.mem_append.mp h).imp_right fun hnew => ⟨rfl, (mem_taken.mp hnew).1⟩
  · rw [path_goes_of_ne hsame] at h
    exact .inl h

theorem mem_caused (hm : s.posted[j]? = some m) (hcause : m.cause = some k) : m ∈ s.caused k :=
  List.mem_filter.mpr ⟨List.mem_of_getElem? hm, decide_eq_true hcause⟩

theorem posted_goes_cases (h : (s.goes net c cause calls frames).posted[j]? = some m) :
    s.posted[j]? = some m ∨
      s.posted.length ≤ j ∧ ∃ call ∈ calls, m = { sender := c, call, cause } := by
  by_cases hj : j < s.posted.length
  · rw [posted_goes_of_lt hj] at h
    exact .inl h
  · have hnew := List.mem_of_getElem? ((List.getElem?_append_right (by omega)).symm.trans h)
    obtain ⟨call, hcall, rfl⟩ := List.mem_map.mp hnew
    exact .inr ⟨by omega, call, hcall, rfl⟩

end Goes

/-- Message `k` has been read, and nothing has come of it yet. -/
structure mesh_system.Taken (s : mesh_system) (k : Nat) : Prop where
  posted : k < s.posted.length
  gone : ∀ c, k ∉ (s.path c).map Prod.fst
  effectless : s.Effectless k

/-- Message `j` was posted because of a packet. -/
def mesh_system.FromPacket (s : mesh_system) (j : Nat) : Prop :=
  ∃ m k data, s.posted[j]? = some m ∧ m.cause = some k ∧ s.Packet k data

/-- What a client does because of a message that it has read: of a packet comes at most
a copy and a transmission, and nothing of the copy. -/
structure Answers (net : setup) (s : mesh_system) (c : client) (cause : Option Nat)
    (calls : List mbus_call) (frames : List (Int × List UInt8)) : Prop where
  posts : ∀ call ∈ calls, c.Posts call
  taken : ∀ k, cause = some k → s.Taken k
  of_packet : ∀ k data, cause = some k → s.Packet k data → calls.length ≤ 1 ∧
    frames.length ≤ 1 ∧ ∀ call ∈ calls, ({ sender := c, call, cause } : posted_msg).Copies net data
  of_copy : ∀ j, cause = some j → s.FromPacket j → calls = [] ∧ frames = []

section Invariant

variable {net : setup} {s s' : mesh_system} {c : client} {cause : Option Nat}
  {calls : List mbus_call} {frames : List (Int × List UInt8)} {j k : Nat} {m : posted_msg}
  {data frame : List UInt8}

theorem Flowing.lt_of_mem (h : Flowing net s) (hmem : (k, frame) ∈ s.path c) :
    k < s.posted.length := by
  obtain ⟨m, hm, -, -⟩ := (h.under_way c k frame hmem).posted
  exact (List.getElem?_eq_some_iff.mp hm).1

theorem Flowing.later_goes (h : Flowing net s) (hanswers : Answers net s c cause calls frames)
    (hk : s.posted.length ≤ k) : (s.goes net c cause calls frames).Effectless k :=
  effectless_goes (h.later k hk) fun hcause =>
    absurd (hanswers.taken k hcause).posted (Nat.not_lt.mpr hk)

theorem Flowing.once_goes (h : Flowing net s) (c' : client) :
    (((s.goes net c cause calls frames).path c').map Prod.fst).Nodup := by
  by_cases hsame : c' = c
  · subst hsame
    have hnew := (taken_sublist net .to_daemon (numbered c' s.posted.length calls)).map Prod.fst
    rw [numbered_numbers] at hnew
    rw [path_goes_self, List.map_append, List.nodup_append]
    refine ⟨h.once c', List.Nodup.sublist hnew List.nodup_range', ?_⟩
    rintro k hold j hin rfl
    obtain ⟨⟨k, frame⟩, hmem, rfl⟩ := List.mem_map.mp hold
    have hlt := h.lt_of_mem hmem
    have hge := (List.mem_range'_1.mp (hnew.subset hin)).1
    exact absurd hlt (Nat.not_lt.mpr hge)
  · rw [path_goes_of_ne hsame]
    exact h.once c'

theorem Flowing.under_way_goes (h : Flowing net s)
    (hanswers : Answers net s c cause calls frames) {c' : client}
    (hmem : (k, frame) ∈ (s.goes net c cause calls frames).path c') :
    (s.goes net c cause calls frames).UnderWay c' k frame := by
  rcases mem_path_goes hmem with hold | ⟨rfl, hnew⟩
  · obtain ⟨hposted, heffect⟩ := h.under_way c' k frame hold
    constructor
    · rw [posted_goes_of_lt (h.lt_of_mem hold)]
      exact hposted
    · apply effectless_goes heffect
      intro hcause
      exact absurd (List.mem_map_of_mem hold) ((hanswers.taken k hcause).gone c')
  · obtain ⟨call, hle, hcall, rfl⟩ := numbered_posted hnew
    refine ⟨⟨{ sender := c', call, cause }, ?_, rfl, rfl⟩, h.later_goes hanswers hle⟩
    rw [mesh_system.goes, List.getElem?_append_right hle, posted_by, List.getElem?_map, hcall]
    rfl

theorem mesh_system.Effectless.stopped (h : s.Effectless k) : s.Stopped net k data := by
  obtain ⟨hcaused, htransmitted⟩ := h
  constructor
  · rw [htransmitted]
    exact Nat.zero_le 1
  · rw [hcaused]
    exact Nat.zero_le 1
  · intro j m hm hmcause
    have hin := mem_caused hm hmcause
    rw [hcaused] at hin
    exact absurd hin List.not_mem_nil

/-- The packet that a client has just read. -/
theorem Flowing.stopped_taken (h : Flowing net s)
    (hanswers : Answers net s c (some k) calls frames) (hpacket : s.Packet k data) :
    (s.goes net c (some k) calls frames).Stopped net k data := by
  obtain ⟨hcalls, hframes, hcopies⟩ := hanswers.of_packet k data rfl hpacket
  obtain ⟨hcaused, htransmitted⟩ := (hanswers.taken k rfl).effectless
  constructor
  · rw [transmitted_goes, htransmitted, if_pos rfl, List.nil_append, sent_by, List.length_map]
    exact hframes
  · rw [caused_goes, hcaused, if_pos rfl, List.nil_append, posted_by, List.length_map]
    exact hcalls
  · intro j m hm hmcause
    rcases posted_goes_cases hm with hold | ⟨hj, call, hcall, rfl⟩
    · have hin := mem_caused hold hmcause
      rw [hcaused] at hin
      exact absurd hin List.not_mem_nil
    · exact ⟨hcopies call hcall, h.later_goes hanswers hj⟩

/-- A packet that was read before. -/
theorem Flowing.stopped_before (h : Flowing net s)
    (hanswers : Answers net s c cause calls frames) (hpacket : s.Packet k data)
    (hcause : cause ≠ some k) : (s.goes net c cause calls frames).Stopped net k data := by
  obtain ⟨htransmitted, hcaused, hcopies⟩ := h.stopped k data hpacket
  constructor
  · rw [transmitted_goes, if_neg hcause, List.append_nil]
    exact htransmitted
  · rw [caused_goes, if_neg hcause, List.append_nil]
    exact hcaused
  · intro j m hm hmcause
    rcases posted_goes_cases hm with hold | ⟨hj, call, hcall, rfl⟩
    · obtain ⟨hcopy, heffect⟩ := hcopies j m hold hmcause
      refine ⟨hcopy, effectless_goes heffect fun hj => ?_⟩
      exact hanswers.of_copy j hj ⟨m, k, data, hold, hmcause, hpacket⟩
    · exact absurd hmcause hcause

theorem Flowing.stopped_goes (h : Flowing net s) (hanswers : Answers net s c cause calls frames)
    (hpacket : (s.goes net c cause calls frames).Packet k data) :
    (s.goes net c cause calls frames).Stopped net k data := by
  by_cases hk : k < s.posted.length
  · rw [mesh_system.Packet, posted_goes_of_lt hk] at hpacket
    by_cases hcause : cause = some k
    · subst hcause
      exact h.stopped_taken hanswers hpacket
    · exact h.stopped_before hanswers hpacket hcause
  · exact (h.later_goes hanswers (Nat.not_lt.mp hk)).stopped

theorem Flowing.goes (h : Flowing net s) (hanswers : Answers net s c cause calls frames) :
    Flowing net (s.goes net c cause calls frames) where
  serving := h.serving
  logged_in := h.logged_in
  posts := by
    intro m hm
    rcases List.mem_append.mp hm with hold | hnew
    · exact h.posts m hold
    · obtain ⟨call, hcall, rfl⟩ := List.mem_map.mp hnew
      exact hanswers.posts call hcall
  later := by
    intro k hk
    rw [mesh_system.goes, List.length_append] at hk
    exact h.later_goes hanswers (by omega)
  once := h.once_goes
  under_way c' k frame hmem := h.under_way_goes hanswers hmem
  stopped k data hpacket := h.stopped_goes hanswers hpacket

/-- Messages leave the connections, and nothing is posted. -/
theorem Flowing.shortened (h : Flowing net s) (hserving : Serving s'.daemon)
    (hlogged : LoggedIn net.fd s'.daemon) (hposted : s'.posted = s.posted)
    (hsent : s'.sent = s.sent) (hpath : ∀ c, (s'.path c).Sublist (s.path c)) :
    Flowing net s' := by
  have hcaused (k : Nat) : s'.caused k = s.caused k := by
    rw [mesh_system.caused, hposted, mesh_system.caused]
  have htransmitted (k : Nat) : s'.transmitted k = s.transmitted k := by
    rw [mesh_system.transmitted, hsent, mesh_system.transmitted]
  have heffect {k : Nat} (heffect : s.Effectless k) : s'.Effectless k :=
    ⟨(hcaused k).trans heffect.caused, (htransmitted k).trans heffect.transmitted⟩
  refine ⟨hserving, hlogged, ?_, ?_, ?_, ?_, ?_⟩
  · rw [hposted]
    exact h.posts
  · rw [hposted]
    exact fun k hk => heffect (h.later k hk)
  · exact fun c => (h.once c).sublist ((hpath c).map Prod.fst)
  · intro c k frame hmem
    obtain ⟨hm, hbefore⟩ := h.under_way c k frame ((hpath c).subset hmem)
    exact ⟨hposted ▸ hm, heffect hbefore⟩
  · intro k data hpacket
    rw [mesh_system.Packet, hposted] at hpacket
    obtain ⟨hfew, hone, hcopies⟩ := h.stopped k data hpacket
    refine ⟨(htransmitted k).symm ▸ hfew, (hcaused k).symm ▸ hone, ?_⟩
    rw [hposted]
    intro j m hm hmcause
    obtain ⟨hcopy, hbefore⟩ := hcopies j m hm hmcause
    exact ⟨hcopy, heffect hbefore⟩

end Invariant

end easymesh.system
