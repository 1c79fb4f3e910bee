import Easymesh.Agent.Receive
import Easymesh.Lib.Transition
import Mathlib.Algebra.BigOperators.Group.Finset.Basic
import Mathlib.Data.Fintype.BigOperators

open Lib Lib.Result Lib.ClassicBpf easymesh.cmdu easymesh.ieee1905_network

namespace easymesh.mesh_agent

/-- What the sockets of the devices answer, and what fresh heap memory holds there. -/
structure lan_setup (ι : Type) where
  sent : ι → Int → List UInt8 → Int
  uninit : ι → Nat → UInt8

/-- The devices of a LAN, the frames that are under way to each, those that its process has
read, the frames that are no device's own, since they came from a client of the bus or from
elsewhere in the LAN, and those that were doubled. -/
structure lan (ι : Type) where
  devices : ι → device
  pending : ι → List (List UInt8)
  heard : ι → List (List UInt8)
  outside : List (List UInt8)
  doubled : List (List UInt8)

/-- A discovery timer is due, a client has a frame sent, or one of the frames under way to a
device arrives, is lost or is doubled; `injects` is a frame of another sender. -/
inductive lan_event (ι : Type) where
  | discovers (i : ι)
  | forwards (i : ι) (buf : List UInt8)
  | hears (i : ι) (k : Nat)
  | loses (i : ι) (k : Nat)
  | doubles (i : ι) (k : Nat)
  | injects (frame : List UInt8)

section Exec

variable {ι : Type} [DecidableEq ι] (net : lan_setup ι) (l : lan ι)

/-- A device has done something: what its socket was given goes to all of them, also to
itself. -/
def lan.goes (i : ι) (d : device) : lan ι :=
  { l with
    devices := Function.update l.devices i d
    pending := fun j => l.pending j ++
      (d.env.transmitted.drop (l.devices i).env.transmitted.length).map Prod.snd }

def lan.takes (i : ι) (k : Nat) : lan ι :=
  { l with pending := Function.update l.pending i ((l.pending i).eraseIdx k) }

/-- The filter of the socket decides whether a frame that arrives is read. -/
def lan.exec : lan_event ι → Result (lan ι)
  | .discovers i => do
    let d := l.devices i
    let (_, env) ← send_topology_discovery d.interface.toNetworkInterface (agent_net (net.sent i))
      (net.uninit i) d.env
    ok (l.goes i { d with env })
  | .forwards i buf =>
    let d := l.devices i
    let (_, env) := if_send (agent_net (net.sent i)) d.interface.toNetworkInterface buf d.env
    ok ({ l with outside := l.outside ++ [buf] }.goes i { d with env })
  | .hears i k =>
    match (l.pending i)[k]? with
    | none => ok l
    | some frame => do
      let d := l.devices i
      let l := l.takes i k
      if Accepts (attach_bpf_filters_code d.interface.al_addr d.interface.addr) frame then do
        let d ← client_read_cb (net.sent i) (net.uninit i) d frame
        ok ({ l with heard := Function.update l.heard i (l.heard i ++ [read_buffer frame]) }.goes i d)
      else ok l
  | .loses i k => ok (l.takes i k)
  | .doubles i k =>
    let again := (l.pending i)[k]?.toList
    ok { l with
      pending := Function.update l.pending i (l.pending i ++ again)
      doubled := l.doubled ++ again }
  | .injects frame =>
    ok { l with pending := fun i => l.pending i ++ [frame], outside := l.outside ++ [frame] }

/-- Devices with these interfaces, before anything has happened. -/
structure lan.Fresh {ι : Type} (ifs : ι → NetworkInterface cmdu_filter_cb) (l : lan ι) : Prop where
  interface : ∀ i, (l.devices i).interface = { toNetworkInterface := ifs i, nbr_1905 := [] }
  created : ∀ i, (ifs i).fd ≠ 0
  queries : ∀ i, (l.devices i).queries = []
  transmitted : ∀ i, (l.devices i).env.transmitted = []
  pending : ∀ i, l.pending i = []
  heard : ∀ i, l.heard i = []
  outside : l.outside = []
  doubled : l.doubled = []

end Exec

section Reaction

variable {sent : Int → List UInt8 → Int} {uninit : Nat → UInt8} {s s' : device}
  {buf frame : List UInt8}

/-- What a device does with a frame that it has read: the queries that it makes, and what it
gives to its socket. -/
inductive Reaction (s : device) (buf : List UInt8) :
    List (MacAddr × UInt16) → List (Int × List UInt8) → Prop
  | nothing : Reaction s buf [] []
  | asks (src : MacAddr) (id : UInt16) : Reaction s buf [(src, id)]
      (interface_frames s.interface.toNetworkInterface (query_frame s.interface src id))
  | answers (htype : msg_type buf = ok (htons MSG_TOPOLOGY_QUERY)) (src : MacAddr) (id : UInt16) :
      Reaction s buf []
        (interface_frames s.interface.toNetworkInterface (response_frame s.interface src id))
  | reports (src : MacAddr) (id : UInt16) : Reaction s buf []
      (interface_frames s.interface.toNetworkInterface (cmdu_raw_msg src.toList
        s.interface.al_addr.toList (htons MSG_AP_CAPABILITY_REPORT) id ++ capa))

/-- What the table holds of devices that have been asked. -/
def asked_nbrs (queries : List (MacAddr × UInt16)) : List nbr_1905dev :=
  queries.map fun q => { al_addr := q.1, sup_service := SUP_SERVICE_CONTROLLER }

theorem cmdu_handle_reacts (hbuf : sizeof_cmdu_raw_msg ≤ buf.length)
    (h : cmdu_handle (agent_net sent) uninit s buf = ok s') :
    ∃ queries frames, Reaction s buf queries frames ∧
      s'.interface.toNetworkInterface = s.interface.toNetworkInterface ∧
      s'.interface.nbr_1905 = s.interface.nbr_1905 ++ asked_nbrs queries ∧
      s'.queries = s.queries ++ queries ∧
      s'.env.transmitted = s.env.transmitted ++ frames := by
  obtain ⟨type, src, id, htype, hsrc, hid⟩ := header_fields hbuf
  have hquiet : ∃ queries frames, Reaction s buf queries frames ∧
      s.interface.toNetworkInterface = s.interface.toNetworkInterface ∧
      s.interface.nbr_1905 = s.interface.nbr_1905 ++ asked_nbrs queries ∧
      s.queries = s.queries ++ queries ∧ s.env.transmitted = s.env.transmitted ++ frames :=
    ⟨[], [], .nothing, rfl, (List.append_nil _).symm, (List.append_nil _).symm,
      (List.append_nil _).symm⟩
  rw [cmdu_handle, htype, ok_bind, hsrc, ok_bind, hid, ok_bind, send_topology_response_eq,
    ok_bind] at h
  split at h
  · split at h
    · split at h
      · cases h
        exact hquiet
      · cases h
        exact ⟨_, _, .asks src id, rfl, rfl, rfl, if_send_transmitted ..⟩
    · cases h
      exact hquiet
  · split at h
    · next hquery =>
      have hasked : msg_type buf = ok (htons MSG_TOPOLOGY_QUERY) := by
        rw [htype, ← hquery]
        exact congrArg ok (ntohs_htons type).symm
      split at h
      · cases h
        exact ⟨_, _, .answers hasked src id, rfl, (List.append_nil _).symm,
          (List.append_nil _).symm, if_send_transmitted ..⟩
      · cases h
        exact hquiet
    · split at h
      · cases h
        exact hquiet
      · split at h
        · split at h
          · cases h
            exact ⟨_, _, .reports src id, rfl, (List.append_nil _).symm,
              (List.append_nil _).symm, if_send_transmitted ..⟩
          · cases h
            exact hquiet
        · cases h
          exact hquiet

/-- A frame that is there is read into the buffer and handled. -/
theorem client_read_cb_reacts (hfd : s.interface.fd ≠ 0) (hframe : frame ≠ [])
    {nbrs : List (List UInt8)} (hlearned : Learned s.interface.al_addr nbrs s) :
    ∃ s' queries frames, client_read_cb sent uninit s frame = ok s' ∧
      Learned s.interface.al_addr (nbrs ++ [read_buffer frame]) s' ∧
      Reaction s (read_buffer frame) queries frames ∧
      s'.interface.toNetworkInterface = s.interface.toNetworkInterface ∧
      s'.interface.nbr_1905 = s.interface.nbr_1905 ++ asked_nbrs queries ∧
      s'.queries = s.queries ++ queries ∧
      s'.env.transmitted = s.env.transmitted ++ frames := by
  obtain ⟨hrecv, htransmitted⟩ :=
    if_recv_spec s.interface.toNetworkInterface (frame.take 2048) s.env
  have hbuf : sizeof_cmdu_raw_msg ≤ (read_buffer frame).length := by
    rw [read_buffer_length]
    decide
  have hpos : 0 < (frame.take 2048).length := by
    rw [List.length_take]
    exact lt_min (by decide) (List.length_pos_of_ne_nil hframe)
  rw [client_read_cb]
  generalize if_recv s.interface.toNetworkInterface (frame.take 2048) s.env = received
    at hrecv htransmitted
  obtain ⟨recv_b, env⟩ := received
  dsimp only at hrecv htransmitted ⊢
  rw [if_neg hfd] at hrecv
  rw [if_neg (by omega)]
  have hstart : Learned s.interface.al_addr nbrs { s with env } :=
    ⟨hlearned.own, hlearned.nbrs, hlearned.queries⟩
  obtain ⟨s', hhandle, hnext⟩ :=
    @cmdu_handle_learns _ _ (agent_net sent) uninit _ _ _ _ hstart hbuf
  obtain ⟨queries, frames, hreacts, hinterface, hnbrs, hqueries, hsent⟩ :=
    cmdu_handle_reacts hbuf hhandle
  refine ⟨s', queries, frames, hhandle, hnext, ?_, hinterface, hnbrs, hqueries, ?_⟩
  · cases hreacts with
    | nothing => exact .nothing
    | asks src id => exact .asks src id
    | answers htype src id => exact .answers htype src id
    | reports src id => exact .reports src id
  · rw [hsent]
    exact congrArg (· ++ frames) htransmitted

end Reaction

section Types

variable {type id : UInt16} {src dest : MacAddr} {frame : List UInt8}

/-- The message type that a device reads in a frame. -/
def read_type (frame : List UInt8) : UInt16 := ntohs ((msg_type (read_buffer frame)).getD 0)

theorem Headed.read_type (h : Headed type src dest frame) : mesh_agent.read_type frame = type := by
  rw [mesh_agent.read_type, h.type_read, Result.getD_ok, ntohs_htons]

theorem discovery_headed (interface : NetworkInterface cmdu_filter_cb) :
    Headed MSG_TOPOLOGY_DISCOBERY interface.al_addr ieee1905_multicast
      (discovery_frame interface) :=
  ⟨0, _, rfl⟩

theorem query_headed (interface : cmdu_interface cmdu_filter_cb) (dest : MacAddr) (id : UInt16) :
    Headed MSG_TOPOLOGY_QUERY interface.addr dest (query_frame interface dest id) :=
  ⟨id, _, rfl⟩

theorem response_headed (interface : cmdu_interface cmdu_filter_cb) (dest : MacAddr)
    (id : UInt16) :
    Headed MSG_TOPOLOGY_RESPONSE interface.al_addr dest (response_frame interface dest id) :=
  ⟨id, _, rfl⟩

theorem report_headed (interface : cmdu_interface cmdu_filter_cb) (dest : MacAddr) (id : UInt16) :
    Headed MSG_AP_CAPABILITY_REPORT interface.al_addr dest (cmdu_raw_msg dest.toList
      interface.al_addr.toList (htons MSG_AP_CAPABILITY_REPORT) id ++ capa) :=
  ⟨id, _, rfl⟩

end Types

section Invariants

variable {ι : Type} {ifs : ι → NetworkInterface cmdu_filter_cb} {l : lan ι}

/-- The devices keep their interfaces, each has learned what it has heard, and takes all its
neighbours for controllers. -/
structure lan.Learns (ifs : ι → NetworkInterface cmdu_filter_cb) (l : lan ι) : Prop where
  interface : ∀ i, (l.devices i).interface.toNetworkInterface = ifs i
  controllers : ∀ i, ∀ dev ∈ (l.devices i).interface.nbr_1905,
    dev.sup_service = SUP_SERVICE_CONTROLLER
  created : ∀ i, (ifs i).fd ≠ 0
  learned : ∀ i, Learned (ifs i).al_addr (l.heard i) (l.devices i)

/-- The frame is one that a device has given to its socket, or came from elsewhere. -/
def lan.Aired (l : lan ι) (frame : List UInt8) : Prop :=
  frame ∈ l.outside ∨ ∃ i, ∃ x ∈ (l.devices i).env.transmitted, x.2 = frame

/-- Nothing that is under way or has been heard came from nowhere, and the discoveries that a
device itself has sent are its own. -/
structure lan.Authentic (ifs : ι → NetworkInterface cmdu_filter_cb) (l : lan ι) : Prop where
  pending : ∀ i, ∀ frame ∈ l.pending i, l.Aired frame
  heard : ∀ i, ∀ buf ∈ l.heard i, ∃ frame, l.Aired frame ∧ buf = read_buffer frame
  sent : ∀ i, ∀ x ∈ (l.devices i).env.transmitted,
    x.2 ∈ l.outside ∨ x.2 = discovery_frame (ifs i) ∨ read_type x.2 ≠ MSG_TOPOLOGY_DISCOBERY

theorem lan.Fresh.learns (h : l.Fresh ifs) : l.Learns ifs := by
  refine ⟨fun i => by rw [h.interface], fun i dev hdev => ?_, h.created, fun i => ⟨?_, ?_, ?_⟩⟩
  · rw [h.interface] at hdev
    cases hdev
  · rw [h.interface]
  · rw [h.interface, h.heard]
    rfl
  · rw [h.queries, h.heard]
    rfl

theorem lan.Fresh.authentic (h : l.Fresh ifs) : l.Authentic ifs := by
  refine ⟨fun i f hf => ?_, fun i buf hbuf => ?_, fun i x hx => ?_⟩
  · rw [h.pending] at hf
    cases hf
  · rw [h.heard] at hbuf
    cases hbuf
  · rw [h.transmitted] at hx
    cases hx

/-- More frames from elsewhere, some of which are then under way. -/
theorem lan.Authentic.more (h : l.Authentic ifs) {more : List (List UInt8)}
    {pending : ι → List (List UInt8)}
    (hpending : ∀ i, ∀ f ∈ pending i, f ∈ l.pending i ∨ f ∈ more) :
    lan.Authentic ifs { l with pending, outside := l.outside ++ more } := by
  have haired {f : List UInt8} (hf : l.Aired f) :
      lan.Aired { l with pending, outside := l.outside ++ more } f :=
    hf.imp (List.mem_append_left _) id
  refine ⟨fun i f hf => ?_, fun i buf hbuf => ?_, fun i x hx => ?_⟩
  · rcases hpending i f hf with hold | hmore
    · exact haired (h.pending i f hold)
    · exact .inl (List.mem_append_right _ hmore)
  · obtain ⟨f, hf, heq⟩ := h.heard i buf hbuf
    exact ⟨f, haired hf, heq⟩
  · exact (h.sent i x hx).imp (List.mem_append_left _) id

end Invariants

section Steps

variable {ι : Type} [DecidableEq ι] {net : lan_setup ι} {l l' : lan ι}
  {ifs : ι → NetworkInterface cmdu_filter_cb} {i : ι} {k : Nat} {d : device}
  {frames : List (Int × List UInt8)}

theorem lan.goes_pending (hsent : d.env.transmitted = (l.devices i).env.transmitted ++ frames)
    (j : ι) : (l.goes i d).pending j = l.pending j ++ frames.map Prod.snd := by
  rw [lan.goes, hsent, List.drop_left]

theorem lan.exec_discovers (h : l.exec net (.discovers i) = ok l') :
    ∃ env, l' = l.goes i { l.devices i with env } ∧
      env.transmitted = (l.devices i).env.transmitted ++
        interface_frames (l.devices i).interface.toNetworkInterface
          (discovery_frame (l.devices i).interface.toNetworkInterface) := by
  rw [lan.exec, send_topology_discovery_eq, ok_bind] at h
  cases h
  exact ⟨_, rfl, if_send_transmitted ..⟩

theorem lan.exec_forwards {buf : List UInt8} (h : l.exec net (.forwards i buf) = ok l') :
    ∃ env, l' = { l with outside := l.outside ++ [buf] }.goes i { l.devices i with env } ∧
      env.transmitted = (l.devices i).env.transmitted ++
        interface_frames (l.devices i).interface.toNetworkInterface buf := by
  cases h
  exact ⟨_, rfl, if_send_transmitted ..⟩

/-- What a device does with a frame that arrives and that its filter accepts. -/
theorem lan.Learns.hears (h : l.Learns ifs) (net : lan_setup ι) {frame : List UInt8}
    (hframe : (l.pending i)[k]? = some frame)
    (haccepts : Accepts (attach_bpf_filters_code (ifs i).al_addr (ifs i).addr) frame) :
    ∃ d queries frames, l.exec net (.hears i k) = ok ({ l.takes i k with
        heard := Function.update l.heard i (l.heard i ++ [read_buffer frame]) }.goes i d) ∧
      Learned (ifs i).al_addr (l.heard i ++ [read_buffer frame]) d ∧
      Reaction (l.devices i) (read_buffer frame) queries frames ∧
      d.interface.toNetworkInterface = ifs i ∧
      (∀ dev ∈ d.interface.nbr_1905, dev.sup_service = SUP_SERVICE_CONTROLLER) ∧
      d.queries = (l.devices i).queries ++ queries ∧
      d.env.transmitted = (l.devices i).env.transmitted ++ frames := by
  rw [← h.interface i] at haccepts
  have hfd : (l.devices i).interface.fd ≠ 0 := by
    rw [h.interface i]
    exact h.created i
  have hlearned : Learned (l.devices i).interface.al_addr (l.heard i) (l.devices i) := by
    rw [h.interface i]
    exact h.learned i
  have hwhole : frame ≠ [] := by
    rintro rfl
    exact rejects_short _ _ [] (by decide) haccepts
  obtain ⟨d, queries, frames, hread, hnext, hreacts, hinterface, hnbrs, hspec⟩ :=
    @client_read_cb_reacts (net.sent i) (net.uninit i) _ _ hfd hwhole _ hlearned
  rw [h.interface i] at hnext
  refine ⟨d, queries, frames, ?_, hnext, hreacts, hinterface.trans (h.interface i), ?_, hspec⟩
  · rw [lan.exec, hframe]
    dsimp only
    rw [if_pos haccepts, hread, ok_bind]
    rfl
  · rw [hnbrs]
    refine List.forall_mem_append.mpr ⟨h.controllers i, fun dev hdev => ?_⟩
    obtain ⟨q, -, rfl⟩ := List.mem_map.mp hdev
    rfl

/-- A frame that arrives is handled if the filter accepts it, and else nothing is done. -/
theorem lan.Learns.hears_cases (h : l.Learns ifs) (net : lan_setup ι) (i : ι) (k : Nat) :
    l.exec net (.hears i k) = ok l ∨ l.exec net (.hears i k) = ok (l.takes i k) ∨
      ∃ frame, (l.pending i)[k]? = some frame ∧
        Accepts (attach_bpf_filters_code (ifs i).al_addr (ifs i).addr) frame := by
  cases hframe : (l.pending i)[k]? with
  | none =>
    rw [lan.exec, hframe]
    exact .inl rfl
  | some frame =>
    by_cases haccepts : Accepts (attach_bpf_filters_code (ifs i).al_addr (ifs i).addr) frame
    · exact .inr (.inr ⟨frame, rfl, haccepts⟩)
    · rw [← h.interface i] at haccepts
      rw [lan.exec, hframe]
      dsimp only
      rw [if_neg haccepts]
      exact .inr (.inl rfl)

/-- One device goes on, and has learned what it may have heard meanwhile. -/
theorem lan.Learns.goes (h : l.Learns ifs) {l₁ : lan ι} (hdevices : l₁.devices = l.devices)
    (hheard : ∀ j, j ≠ i → l₁.heard j = l.heard j)
    (hinterface : d.interface.toNetworkInterface = ifs i)
    (hcontrollers : ∀ dev ∈ d.interface.nbr_1905, dev.sup_service = SUP_SERVICE_CONTROLLER)
    (hlearned : Learned (ifs i).al_addr (l₁.heard i) d) : (l₁.goes i d).Learns ifs := by
  refine ⟨?_, ?_, h.created, ?_⟩
  · refine (Function.forall_update_iff l₁.devices fun j d =>
      d.interface.toNetworkInterface = ifs j).mpr ⟨hinterface, fun j _ => ?_⟩
    rw [hdevices]
    exact h.interface j
  · refine (Function.forall_update_iff l₁.devices fun _ d =>
      ∀ dev ∈ d.interface.nbr_1905, dev.sup_service = SUP_SERVICE_CONTROLLER).mpr
        ⟨hcontrollers, fun j _ => ?_⟩
    rw [hdevices]
    exact h.controllers j
  · refine (Function.forall_update_iff l₁.devices fun j d =>
      Learned (ifs j).al_addr (l₁.heard j) d).mpr ⟨hlearned, fun j hj => ?_⟩
    rw [hdevices, hheard j hj]
    exact h.learned j

theorem lan.Learns.step (h : l.Learns ifs) {e : lan_event ι} (hstep : l.exec net e = ok l') :
    l'.Learns ifs := by
  have hsend (i : ι) (env : outbox) : Learned (ifs i).al_addr (l.heard i) { l.devices i with env } :=
    ⟨(h.learned i).own, (h.learned i).nbrs, (h.learned i).queries⟩
  cases e with
  | discovers i =>
    obtain ⟨env, rfl, -⟩ := lan.exec_discovers hstep
    exact h.goes rfl (fun _ _ => rfl) (h.interface i) (h.controllers i) (hsend i env)
  | forwards i buf =>
    obtain ⟨env, rfl, -⟩ := lan.exec_forwards hstep
    exact h.goes rfl (fun _ _ => rfl) (h.interface i) (h.controllers i) (hsend i env)
  | hears i k =>
    obtain hsame | hlost | ⟨frame, hframe, haccepts⟩ := h.hears_cases net i k
    · cases hstep.symm.trans hsame
      exact h
    · cases hstep.symm.trans hlost
      exact ⟨h.interface, h.controllers, h.created, h.learned⟩
    · obtain ⟨d, queries, frames, hexec, hnext, -, hinterface, hcontrollers, -⟩ :=
        h.hears net hframe haccepts
      cases hstep.symm.trans hexec
      refine h.goes rfl (fun j hj => Function.update_of_ne hj _ _) hinterface hcontrollers ?_
      change Learned _ (Function.update l.heard i _ i) d
      rw [Function.update_self]
      exact hnext
  | loses i k | doubles i k | injects frame =>
    cases hstep
    exact ⟨h.interface, h.controllers, h.created, h.learned⟩

/-- What has been heard stays heard. -/
theorem lan.Learns.heard_grows (h : l.Learns ifs) {e : lan_event ι}
    (hstep : l.exec net e = ok l') (i : ι) : l.heard i <+: l'.heard i := by
  cases e with
  | discovers j =>
    obtain ⟨env, rfl, -⟩ := lan.exec_discovers hstep
    exact List.prefix_rfl
  | forwards j buf =>
    obtain ⟨env, rfl, -⟩ := lan.exec_forwards hstep
    exact List.prefix_rfl
  | hears j k =>
    obtain hsame | hlost | ⟨frame, hframe, haccepts⟩ := h.hears_cases net j k
    · cases hstep.symm.trans hsame
      exact List.prefix_rfl
    · cases hstep.symm.trans hlost
      exact List.prefix_rfl
    · obtain ⟨d, queries, frames, hexec, -⟩ := h.hears net hframe haccepts
      cases hstep.symm.trans hexec
      exact (Function.forall_update_iff l.heard fun i bufs => l.heard i <+: bufs).mpr
        ⟨List.prefix_append _ _, fun _ _ => List.prefix_rfl⟩ i
  | loses j k | doubles j k | injects frame =>
    cases hstep
    exact List.prefix_rfl

section Authentic

variable {frame : List UInt8}

/-- What has been sent before is there after a device has gone on. -/
theorem lan.Aired.goes (h : l.Aired frame)
    (hsent : d.env.transmitted = (l.devices i).env.transmitted ++ frames) :
    (l.goes i d).Aired frame := by
  rcases h with hout | ⟨j, x, hx, rfl⟩
  · exact .inl hout
  · refine .inr ⟨j, x, ?_, rfl⟩
    change x ∈ (Function.update l.devices i d j).env.transmitted
    by_cases hj : j = i
    · subst hj
      rw [Function.update_self, hsent]
      exact List.mem_append_left _ hx
    · rwa [Function.update_of_ne hj]

theorem lan.Authentic.goes (h : l.Authentic ifs)
    (hsent : d.env.transmitted = (l.devices i).env.transmitted ++ frames)
    (hown : ∀ x ∈ frames, x.2 ∈ l.outside ∨ x.2 = discovery_frame (ifs i) ∨
      read_type x.2 ≠ MSG_TOPOLOGY_DISCOBERY) : (l.goes i d).Authentic ifs := by
  have hnew : ∀ x ∈ frames, (l.goes i d).Aired x.2 := by
    intro x hx
    refine .inr ⟨i, x, ?_, rfl⟩
    change x ∈ (Function.update l.devices i d i).env.transmitted
    rw [Function.update_self, hsent]
    exact List.mem_append_right _ hx
  refine ⟨fun j f hf => ?_, fun j buf hbuf => ?_, fun j x hx => ?_⟩
  · rw [lan.goes_pending hsent] at hf
    rcases List.mem_append.mp hf with hold | hlast
    · exact (h.pending j f hold).goes hsent
    · obtain ⟨x, hx, rfl⟩ := List.mem_map.mp hlast
      exact hnew x hx
  · obtain ⟨f, hf, heq⟩ := h.heard j buf hbuf
    exact ⟨f, hf.goes hsent, heq⟩
  · refine (Function.forall_update_iff l.devices fun j d => ∀ x ∈ d.env.transmitted,
      x.2 ∈ l.outside ∨ x.2 = discovery_frame (ifs j) ∨
        read_type x.2 ≠ MSG_TOPOLOGY_DISCOBERY).mpr ⟨?_, fun j _ => h.sent j⟩ j x hx
    rw [hsent]
    exact List.forall_mem_append.mpr ⟨h.sent i, hown⟩

theorem lan.Authentic.takes (h : l.Authentic ifs) : (l.takes i k).Authentic ifs := by
  refine ⟨?_, h.heard, h.sent⟩
  exact (Function.forall_update_iff l.pending fun _ frames => ∀ f ∈ frames, l.Aired f).mpr
    ⟨fun f hf => h.pending i f (List.mem_of_mem_eraseIdx hf), fun j _ => h.pending j⟩

/-- A frame that is doubled is under way already. -/
theorem lan.Authentic.doubles (h : l.Authentic ifs) : lan.Authentic ifs
    { l with
      pending := Function.update l.pending i (l.pending i ++ (l.pending i)[k]?.toList)
      doubled := l.doubled ++ (l.pending i)[k]?.toList } := by
  refine ⟨?_, h.heard, h.sent⟩
  refine (Function.forall_update_iff l.pending fun _ frames => ∀ f ∈ frames, l.Aired f).mpr
    ⟨List.forall_mem_append.mpr ⟨h.pending i, fun f hf => ?_⟩, fun j _ => h.pending j⟩
  rw [Option.mem_toList] at hf
  exact h.pending i f (List.mem_of_getElem? hf)

theorem lan.Authentic.hears (h : l.Authentic ifs) (hframe : l.Aired frame) :
    lan.Authentic ifs
      { l with heard := Function.update l.heard i (l.heard i ++ [read_buffer frame]) } := by
  refine ⟨h.pending, ?_, h.sent⟩
  refine (Function.forall_update_iff l.heard fun _ bufs =>
    ∀ buf ∈ bufs, ∃ frame, l.Aired frame ∧ buf = read_buffer frame).mpr ⟨?_, fun j _ => h.heard j⟩
  exact List.forall_mem_append.mpr
    ⟨h.heard i, List.forall_mem_singleton.mpr ⟨frame, hframe, rfl⟩⟩

/-- A reaction to a frame sends no discovery. -/
theorem Reaction.no_discovery {s : device} {buf : List UInt8} {queries : List (MacAddr × UInt16)}
    (h : Reaction s buf queries frames) :
    ∀ x ∈ frames, read_type x.2 ≠ MSG_TOPOLOGY_DISCOBERY := by
  have hsingle {type : UInt16} {src dest : MacAddr} {f : List UInt8} (hf : Headed type src dest f)
      (htype : type ≠ MSG_TOPOLOGY_DISCOBERY) :
      ∀ x ∈ interface_frames s.interface.toNetworkInterface f,
        read_type x.2 ≠ MSG_TOPOLOGY_DISCOBERY := by
    intro x hx
    rw [mem_interface_frames hx, hf.read_type]
    exact htype
  cases h with
  | nothing =>
    intro x hx
    cases hx
  | asks src id => exact hsingle (query_headed ..) (by decide)
  | answers _ src id => exact hsingle (response_headed ..) (by decide)
  | reports src id => exact hsingle (report_headed ..) (by decide)

theorem lan.Authentic.step (h : l.Authentic ifs) (hlearns : l.Learns ifs) {e : lan_event ι}
    (hstep : l.exec net e = ok l') : l'.Authentic ifs := by
  cases e with
  | discovers i =>
    obtain ⟨env, rfl, hsent⟩ := lan.exec_discovers hstep
    refine h.goes hsent fun x hx => .inr (.inl ?_)
    rw [mem_interface_frames hx, hlearns.interface i]
  | forwards i buf =>
    obtain ⟨env, rfl, hsent⟩ := lan.exec_forwards hstep
    have hmore : lan.Authentic ifs { l with outside := l.outside ++ [buf] } :=
      h.more fun _ _ hf => .inl hf
    refine hmore.goes hsent fun x hx => .inl ?_
    rw [mem_interface_frames hx]
    exact List.mem_append_right _ (List.mem_singleton_self buf)
  | hears i k =>
    obtain hsame | hlost | ⟨frame, hframe, haccepts⟩ := hlearns.hears_cases net i k
    · cases hstep.symm.trans hsame
      exact h
    · cases hstep.symm.trans hlost
      exact h.takes
    · obtain ⟨d, queries, frames, hexec, -, hreacts, -, -, -, hsent⟩ :=
        hlearns.hears net hframe haccepts
      cases hstep.symm.trans hexec
      have haired := h.pending i frame (List.mem_of_getElem? hframe)
      refine (h.takes.hears haired).goes hsent fun x hx => .inr (.inr ?_)
      exact hreacts.no_discovery x hx
  | loses i k =>
    cases hstep
    exact h.takes
  | doubles i k =>
    cases hstep
    exact h.doubles
  | injects frame =>
    cases hstep
    exact h.more fun j f hf => List.mem_append.mp hf

end Authentic

theorem lan.Fresh.run (h : l.Fresh ifs) {tr : List (lan_event ι × lan ι)}
    (hrun : Run (Returning (lan.exec net)) l tr) :
    (endState l tr).Learns ifs ∧ (endState l tr).Authentic ifs := by
  refine Run.endState_invariant (J := fun l : lan ι => l.Learns ifs ∧ l.Authentic ifs)
    (fun hs hstep => ?_) ⟨h.learns, h.authentic⟩ hrun
  exact ⟨hs.1.step hstep, hs.2.step hs.1 hstep⟩

end Steps

section Neighbours

variable {ι : Type} {ifs : ι → NetworkInterface cmdu_filter_cb}

/-- What is in the buffer is a discovery of this device. -/
def Announces (mac : MacAddr) (buf : List UInt8) : Prop :=
  msg_type buf = ok (htons MSG_TOPOLOGY_DISCOBERY) ∧ src_mac buf = ok mac

/-- The addresses in the table of neighbours. -/
def device.nbrs (d : device) : List MacAddr := d.interface.nbr_1905.map nbr_1905dev.al_addr

theorem mem_foreign_discoveries {al_addr mac : MacAddr} {bufs : List (List UInt8)}
    (hbufs : ∀ buf ∈ bufs, sizeof_cmdu_raw_msg ≤ buf.length) :
    mac ∈ (foreign_discoveries al_addr bufs).map Prod.fst ↔
      mac ≠ al_addr ∧ ∃ buf ∈ bufs, Announces mac buf := by
  have hone : ∀ buf ∈ bufs, (∃ id, foreign_discovery al_addr buf = some (mac, id)) ↔
      mac ≠ al_addr ∧ Announces mac buf := by
    intro buf hbuf
    obtain ⟨type, src, id, htype, hsrc, hid⟩ := header_fields (hbufs buf hbuf)
    have hzero : ntohs type = MSG_TOPOLOGY_DISCOBERY ↔ type = htons MSG_TOPOLOGY_DISCOBERY := by
      constructor
      · intro h
        rw [← h]
        exact (ntohs_htons type).symm
      · rintro rfl
        exact ntohs_htons _
    rw [foreign_discovery, htype, hsrc, hid, Announces, htype, hsrc]
    dsimp only
    split
    · next h =>
      constructor
      · rintro ⟨id', heq⟩
        cases heq
        exact ⟨Ne.symm h.2, congrArg ok (hzero.mp h.1), rfl⟩
      · rintro ⟨-, -, heq⟩
        cases heq
        exact ⟨id, rfl⟩
    · next h =>
      constructor
      · rintro ⟨id', heq⟩
        cases heq
      · rintro ⟨hne, htype', heq⟩
        cases heq
        cases htype'
        exact absurd ⟨ntohs_htons _, Ne.symm hne⟩ h
  rw [List.mem_map]
  constructor
  · rintro ⟨⟨_, id⟩, hmem, rfl⟩
    obtain ⟨buf, hbuf, heq⟩ := List.mem_filterMap.mp hmem
    obtain ⟨hne, hann⟩ := (hone buf hbuf).mp ⟨id, heq⟩
    exact ⟨hne, buf, hbuf, hann⟩
  · rintro ⟨hne, buf, hbuf, hann⟩
    obtain ⟨id, heq⟩ := (hone buf hbuf).mpr ⟨hne, hann⟩
    exact ⟨(mac, id), List.mem_filterMap.mpr ⟨buf, hbuf, heq⟩, rfl⟩

/-- The table holds the other devices whose discoveries have been heard, and each of them has
been asked once. -/
theorem lan.Learns.neighbours {l : lan ι} (h : l.Learns ifs) (hauthentic : l.Authentic ifs) (i : ι) :
    (l.devices i).nbrs.Nodup ∧ (l.devices i).queries.map Prod.fst = (l.devices i).nbrs ∧
      ∀ mac, mac ∈ (l.devices i).nbrs ↔
        mac ≠ (ifs i).al_addr ∧ ∃ buf ∈ l.heard i, Announces mac buf := by
  have hlearned := h.learned i
  have hbufs : ∀ buf ∈ l.heard i, sizeof_cmdu_raw_msg ≤ buf.length := by
    intro buf hbuf
    obtain ⟨frame, -, rfl⟩ := hauthentic.heard i buf hbuf
    rw [read_buffer_length]
    decide
  have hnbrs : (l.devices i).nbrs =
    (firstSeen (foreign_discoveries (ifs i).al_addr (l.heard i))).map Prod.fst := hlearned.nbrs
  refine ⟨?_, ?_, fun mac => ?_⟩
  · rw [hnbrs]
    exact firstSeen_nodup _
  · rw [hlearned.queries, hnbrs]
  · rw [hnbrs, mem_firstSeen, mem_foreign_discoveries hbufs]

/-- A discovery that has been heard is one that its device sent, or came from elsewhere. -/
theorem lan.Authentic.announced {l : lan ι} (h : l.Authentic ifs) {i : ι} {mac : MacAddr}
    {buf : List UInt8} (hbuf : buf ∈ l.heard i) (hann : Announces mac buf) :
    (∃ j, (ifs j).al_addr = mac ∧
        discovery_frame (ifs j) ∈ (l.devices j).env.transmitted.map Prod.snd) ∨
      ∃ frame ∈ l.outside, Announces mac (read_buffer frame) := by
  obtain ⟨frame, haired, rfl⟩ := h.heard i buf hbuf
  have hout (hmem : frame ∈ l.outside) : ∃ frame ∈ l.outside, Announces mac (read_buffer frame) :=
    ⟨frame, hmem, hann⟩
  obtain hmem | ⟨j, x, hx, rfl⟩ := haired
  · exact .inr (hout hmem)
  · obtain hmem | hown | hother := h.sent j x hx
    · exact .inr (hout hmem)
    · refine .inl ⟨j, ?_, List.mem_map.mpr ⟨x, hx, hown⟩⟩
      have hsrc := hann.2
      rw [hown, (discovery_headed (ifs j)).src_read] at hsrc
      exact Result.ok.inj hsrc
    · refine absurd ?_ hother
      rw [read_type, hann.1, Result.getD_ok, ntohs_htons]

/-- No filter holds back a discovery. -/
theorem discovery_accepted (al_addr addr : MacAddr) (interface : NetworkInterface cmdu_filter_cb) :
    Accepts (attach_bpf_filters_code al_addr addr) (discovery_frame interface) := by
  obtain ⟨s0, s1, s2, s3, s4, s5, hsrc⟩ := mac_bytes interface.al_addr
  rw [discovery_frame, discovery_header, cmdu_raw_msg, hsrc]
  refine (accepts_whole_header al_addr addr 0x01 0x80 0xc2 0x00 0x00 0x13 s0 s1 s2 s3 s4 s5 0x89
    0x3a _).mpr ⟨by decide, ?_⟩
  rw [if_pos (by decide)]
  decide

/-- A discovery of another device that arrives puts it into the table. -/
theorem lan.Learns.discovered [DecidableEq ι] {l : lan ι} (h : l.Learns ifs)
    (hauthentic : l.Authentic ifs) (net : lan_setup ι) {i j : ι} {k : Nat}
    (hframe : (l.pending i)[k]? = some (discovery_frame (ifs j)))
    (hother : (ifs j).al_addr ≠ (ifs i).al_addr) :
    ∃ l', l.exec net (.hears i k) = ok l' ∧ (ifs j).al_addr ∈ (l'.devices i).nbrs := by
  obtain ⟨d, queries, frames, hexec, -⟩ := h.hears net hframe (discovery_accepted _ _ (ifs j))
  refine ⟨_, hexec, ?_⟩
  obtain ⟨-, -, hheard⟩ := (h.step hexec).neighbours (hauthentic.step h hexec) i
  refine (hheard _).mpr ⟨hother, read_buffer (discovery_frame (ifs j)), ?_,
    (discovery_headed (ifs j)).type_read, (discovery_headed (ifs j)).src_read⟩
  change _ ∈ Function.update l.heard i _ i
  rw [Function.update_self]
  exact List.mem_append_right _ (List.mem_singleton_self _)

/-- Two devices with an interface each. -/
def two_ifs (b : Bool) : NetworkInterface cmdu_filter_cb where
  fd := 5
  addr := #v[2, 0, 0, 0, 0, bif b then 16 else 18]
  ifname := cstr ['e', 'n', 's', '3', '2']
  al_addr := #v[2, 0, 0, 0, 0, bif b then 17 else 19]
  topo_timer := 1
  filters := [.cmdu_filter_func]

def two_devices : lan Bool where
  devices b :=
    { interface := { toNetworkInterface := two_ifs b, nbr_1905 := [] }
      env := ⟨[], []⟩
      queries := [] }
  pending _ := []
  heard _ := []
  outside := []
  doubled := []

def two_setup : lan_setup Bool := ⟨fun _ _ buf => buf.length, fun _ _ => 0⟩

theorem two_devices_fresh : two_devices.Fresh two_ifs where
  interface _ := rfl
  created _ := (by decide : (5 : Int) ≠ 0)
  queries _ := rfl
  transmitted _ := rfl
  pending _ := rfl
  heard _ := rfl
  outside := rfl
  doubled := rfl

/-- One device announces itself, the other asks it, and it answers. -/
def two_run : List (lan_event Bool × lan Bool) :=
  trace (fun l e => (lan.exec two_setup l e).getD l) two_devices
    [.discovers true, .hears false 0, .hears true 1]

theorem two_run_is_run : Run (Returning (lan.exec two_setup)) two_devices two_run :=
  run_trace_returning (by decide +kernel)

end Neighbours

end easymesh.mesh_agent
