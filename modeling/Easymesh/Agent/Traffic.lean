import Easymesh.Agent.Lan

open Lib Lib.Result Lib.ClassicBpf easymesh.cmdu easymesh.ieee1905_network

namespace easymesh.mesh_agent

/-- The addresses of the frames that the filter of an interface lets in. -/
def names (interface : NetworkInterface cmdu_filter_cb) : List MacAddr :=
  [ieee1905_multicast, interface.al_addr, interface.addr]

/-- A topology query that the device of the interface may hear. -/
def QueriesFor (interface : NetworkInterface cmdu_filter_cb) (frame : List UInt8) : Prop :=
  read_type frame = MSG_TOPOLOGY_QUERY ∧ ∃ dest ∈ names interface, ieee1905_dest frame = some dest

instance (interface : NetworkInterface cmdu_filter_cb) (frame : List UInt8) :
    Decidable (QueriesFor interface frame) :=
  inferInstanceAs (Decidable (_ ∧ ∃ dest ∈ _, _))

/-- A topology query or a response to one. -/
def Exchange (frame : List UInt8) : Prop :=
  read_type frame = MSG_TOPOLOGY_QUERY ∨ read_type frame = MSG_TOPOLOGY_RESPONSE

instance (frame : List UInt8) : Decidable (Exchange frame) := inferInstanceAs (Decidable (_ ∨ _))

section Filter

variable {interface : NetworkInterface cmdu_filter_cb} {frame : List UInt8}

/-- The filter lets in no frame that is for none of the addresses. -/
theorem accepted_dest (h : Accepts (attach_bpf_filters_code interface.al_addr interface.addr) frame) :
    ∃ dest ∈ names interface, ieee1905_dest frame = some dest := by
  match frame, h with
  | f0 :: f1 :: f2 :: f3 :: f4 :: f5 :: f6 :: f7 :: f8 :: f9 :: f10 :: f11 :: t0 :: t1 :: rest, h =>
    obtain ⟨htype, haddr⟩ := (accepts_whole_header ..).mp h
    rw [show (0x893a : UInt32) = half 0x89 0x3a by decide, half_inj] at htype
    refine ⟨#v[f0, f1, f2, f3, f4, f5], ?_, if_pos htype⟩
    have heq (mac : MacAddr) (hlow : word f2 f3 f4 f5 = mac.low) (hhigh : half f0 f1 = mac.high) :
        (#v[f0, f1, f2, f3, f4, f5] : MacAddr) = mac := (MacAddr.eq_iff _ _).mpr ⟨hlow, hhigh⟩
    split at haddr
    · next hlow => exact List.mem_cons.mpr (.inl (heq _ hlow haddr))
    · split at haddr
      · next hlow => exact List.mem_cons_of_mem _ (List.mem_cons.mpr (.inl (heq _ hlow haddr)))
      · exact List.mem_cons_of_mem _ (List.mem_cons_of_mem _
          (List.mem_singleton.mpr (heq _ haddr.1 haddr.2)))
  | [], h | [_], h | [_, _], h | [_, _, _], h | [_, _, _, _], h | [_, _, _, _, _], h
  | [_, _, _, _, _, _], h | [_, _, _, _, _, _, _], h | [_, _, _, _, _, _, _, _], h
  | [_, _, _, _, _, _, _, _, _], h | [_, _, _, _, _, _, _, _, _, _], h
  | [_, _, _, _, _, _, _, _, _, _, _], h | [_, _, _, _, _, _, _, _, _, _, _, _], h
  | [_, _, _, _, _, _, _, _, _, _, _, _, _], h =>
    exact absurd h (rejects_short _ _ _ (by simp))

end Filter

section Counts

variable {ι : Type} (ifs : ι → NetworkInterface cmdu_filter_cb) (l : lan ι) (j : ι)

/-- The topology responses that a device has given to its socket. -/
def lan.responses : Nat :=
  (l.devices j).env.transmitted.countP fun x => read_type x.2 = MSG_TOPOLOGY_RESPONSE

/-- The topology queries that a device has given to its socket. -/
def lan.requests : Nat :=
  (l.devices j).env.transmitted.countP fun x => read_type x.2 = MSG_TOPOLOGY_QUERY

/-- The topology queries under way to a device. -/
def lan.questions : Nat := (l.pending j).countP (QueriesFor (ifs j) ·)

/-- The queries that the devices have made under a name of the device. -/
def lan.asked [Fintype ι] : Nat :=
  Finset.univ.sum fun i => (l.devices i).queries.countP fun q => q.1 ∈ names (ifs j)

/-- The queries and responses that are no device's own, and those that were doubled. -/
def lan.strange : Nat := (l.outside ++ l.doubled).countP (Exchange ·)

theorem lan.strange_outside (pending : ι → List (List UInt8)) (more : List (List UInt8)) :
    lan.strange { l with pending, outside := l.outside ++ more } =
      l.strange + more.countP (Exchange ·) := by
  simp only [lan.strange, List.countP_append]
  omega

theorem lan.strange_doubled (pending : ι → List (List UInt8)) (more : List (List UInt8)) :
    lan.strange { l with pending, doubled := l.doubled ++ more } =
      l.strange + more.countP (Exchange ·) := by
  simp only [lan.strange, List.countP_append]
  omega

/-- Responses, also `c` of them still to come, and queries under way are no more than
queries that were made. -/
def lan.Covered [Fintype ι] (c : Nat) : Prop :=
  l.responses j + l.questions ifs j + c ≤ l.asked ifs j + l.strange

/-- The queries that a device has sent, also `c` of them still to come, are no more than it has
made. -/
def lan.Asking (c : Nat) : Prop :=
  l.requests j + c ≤ (l.devices j).queries.length + l.strange

end Counts

section Sent

variable {ι : Type} [DecidableEq ι] {net : lan_setup ι} {l l' : lan ι}
  {ifs : ι → NetworkInterface cmdu_filter_cb} {i j : ι} {c : Nat} {d : device}
  {frames : List (Int × List UInt8)} {queries : List (MacAddr × UInt16)}

theorem lan.goes_responses (hsent : d.env.transmitted = (l.devices i).env.transmitted ++ frames) :
    (l.goes i d).responses j = l.responses j +
      if j = i then frames.countP fun x => read_type x.2 = MSG_TOPOLOGY_RESPONSE else 0 := by
  change (Function.update l.devices i d j).env.transmitted.countP _ = _
  by_cases hj : j = i
  · subst hj
    rw [Function.update_self, hsent, List.countP_append, if_pos rfl, lan.responses]
  · rw [Function.update_of_ne hj, if_neg hj, Nat.add_zero, lan.responses]

theorem countP_interface_frames (p : List UInt8 → Bool)
    (interface : NetworkInterface cmdu_filter_cb) (f : List UInt8) :
    ((interface_frames interface f).countP fun x => p x.2) ≤ if p f then 1 else 0 := by
  rw [interface_frames]
  split
  · exact Nat.zero_le _
  · rw [List.countP_singleton]

theorem countP_no_frame (p : List UInt8 → Bool) (interface : NetworkInterface cmdu_filter_cb)
    {f : List UInt8} (hf : ¬ p f = true) :
    ((interface_frames interface f).countP fun x => p x.2) = 0 := by
  have hle := countP_interface_frames p interface f
  rw [if_neg hf] at hle
  exact Nat.le_zero.mp hle

/-- A reaction is covered by the query that it makes, or by the query that it answers. -/
theorem Reaction.cost {s : device} {frame : List UInt8}
    (h : Reaction s (read_buffer frame) queries frames)
    (haccepts : Accepts (attach_bpf_filters_code (ifs i).al_addr (ifs i).addr) frame) :
    (if j = i then frames.countP fun x => read_type x.2 = MSG_TOPOLOGY_RESPONSE else 0) +
      (frames.countP fun x => QueriesFor (ifs j) x.2) ≤
        queries.countP (fun q => q.1 ∈ names (ifs j)) +
          if j = i ∧ QueriesFor (ifs j) frame then 1 else 0 := by
  have hresponses {f : List UInt8} (hf : read_type f ≠ MSG_TOPOLOGY_RESPONSE) :
      ((interface_frames s.interface.toNetworkInterface f).countP
        fun x => read_type x.2 = MSG_TOPOLOGY_RESPONSE) = 0 :=
    countP_no_frame (read_type · = MSG_TOPOLOGY_RESPONSE) _ (by rwa [decide_eq_true_eq])
  have hquestions {f : List UInt8} (hf : read_type f ≠ MSG_TOPOLOGY_QUERY) :
      ((interface_frames s.interface.toNetworkInterface f).countP
        fun x => QueriesFor (ifs j) x.2) = 0 :=
    countP_no_frame (QueriesFor (ifs j) ·) _ (by
      rw [decide_eq_true_eq]
      exact fun hquery => hf hquery.1)
  cases h with
  | nothing =>
    simp only [List.countP_nil, ite_self, Nat.zero_add]
    exact Nat.zero_le _
  | asks src id =>
    have hheaded := query_headed s.interface src id
    have htype : read_type (query_frame s.interface src id) ≠ MSG_TOPOLOGY_RESPONSE := by
      rw [hheaded.read_type]
      decide
    have hone := countP_interface_frames (QueriesFor (ifs j) ·) s.interface.toNetworkInterface
      (query_frame s.interface src id)
    have hnamed : QueriesFor (ifs j) (query_frame s.interface src id) → src ∈ names (ifs j) := by
      rintro ⟨-, dest, hdest, hread⟩
      rw [hheaded.dest_read] at hread
      cases hread
      exact hdest
    rw [hresponses htype, ite_self, Nat.zero_add, List.countP_singleton]
    simp only [decide_eq_true_eq] at hone ⊢
    split at hone
    · next hquery =>
      rw [if_pos (hnamed hquery)]
      omega
    · omega
  | answers htype src id =>
    have hheaded := response_headed s.interface src id
    have htype' : read_type (response_frame s.interface src id) ≠ MSG_TOPOLOGY_QUERY := by
      rw [hheaded.read_type]
      decide
    have hone := countP_interface_frames (fun f => read_type f = MSG_TOPOLOGY_RESPONSE)
      s.interface.toNetworkInterface (response_frame s.interface src id)
    rw [hquestions htype', Nat.add_zero, List.countP_nil, Nat.zero_add]
    by_cases hj : j = i
    · subst hj
      have hquery : QueriesFor (ifs j) frame := by
        refine ⟨?_, accepted_dest haccepts⟩
        rw [read_type, htype, Result.getD_ok, ntohs_htons]
      rw [if_pos rfl, if_pos ⟨rfl, hquery⟩]
      refine hone.trans ?_
      split
      · exact le_rfl
      · exact Nat.zero_le _
    · rw [if_neg hj]
      exact Nat.zero_le _
  | reports src id =>
    have hheaded := report_headed s.interface src id
    rw [hresponses (by rw [hheaded.read_type]; decide), ite_self,
      hquestions (by rw [hheaded.read_type]; decide)]
    exact Nat.zero_le _

theorem lan.Asking.goes (h : l.Asking j c)
    (hsent : d.env.transmitted = (l.devices i).env.transmitted ++ frames)
    (hqueries : d.queries = (l.devices i).queries ++ queries)
    (hcost : (frames.countP fun x => read_type x.2 = MSG_TOPOLOGY_QUERY) ≤ queries.length + c) :
    (l.goes i d).Asking j 0 := by
  unfold lan.Asking lan.requests at h ⊢
  change (Function.update l.devices i d j).env.transmitted.countP _ + 0 ≤
    (Function.update l.devices i d j).queries.length + l.strange
  by_cases hj : j = i
  · subst hj
    rw [Function.update_self, hsent, hqueries, List.countP_append, List.length_append]
    omega
  · rw [Function.update_of_ne hj]
    omega

theorem Reaction.asks_little {s : device} {buf : List UInt8} (h : Reaction s buf queries frames) :
    (frames.countP fun x => read_type x.2 = MSG_TOPOLOGY_QUERY) ≤ queries.length := by
  have hnone {f : List UInt8} (hf : read_type f ≠ MSG_TOPOLOGY_QUERY) :
      ((interface_frames s.interface.toNetworkInterface f).countP
        fun x => read_type x.2 = MSG_TOPOLOGY_QUERY) ≤ 0 :=
    Nat.le_zero.mpr (countP_no_frame (read_type · = MSG_TOPOLOGY_QUERY) _
      (by rwa [decide_eq_true_eq]))
  cases h with
  | nothing => exact le_rfl
  | asks src id =>
    refine (countP_interface_frames (read_type · = MSG_TOPOLOGY_QUERY) _ _).trans ?_
    rw [List.length_singleton]
    split
    · exact le_rfl
    · exact Nat.zero_le _
  | answers htype src id =>
    exact hnone (by rw [(response_headed s.interface src id).read_type]; decide)
  | reports src id =>
    exact hnone (by rw [(report_headed s.interface src id).read_type]; decide)

theorem lan.Asking.step (h : l.Asking j 0) (hlearns : l.Learns ifs) {e : lan_event ι}
    (hstep : l.exec net e = ok l') : l'.Asking j 0 := by
  have hmore {l₁ : lan ι} {c : Nat} (hdevices : l₁.devices = l.devices)
      (hstrange : l₁.strange = l.strange + c) : l₁.Asking j c := by
    unfold lan.Asking lan.requests at h ⊢
    rw [hdevices, hstrange]
    omega
  have hless {c : Nat} {l : lan ι} (hl : l.Asking j c) : l.Asking j 0 := by
    unfold lan.Asking at hl ⊢
    omega
  cases e with
  | discovers i =>
    obtain ⟨env, rfl, hsent⟩ := lan.exec_discovers hstep
    have htype := (discovery_headed (l.devices i).interface.toNetworkInterface).read_type
    refine h.goes hsent (List.append_nil _).symm ?_
    rw [countP_no_frame (read_type · = MSG_TOPOLOGY_QUERY) _ (by rw [htype]; decide)]
    exact Nat.zero_le _
  | forwards i buf =>
    obtain ⟨env, rfl, hsent⟩ := lan.exec_forwards hstep
    have hcredit : lan.Asking { l with outside := l.outside ++ [buf] } j
      ([buf].countP (Exchange ·)) := hmore rfl (l.strange_outside l.pending [buf])
    refine hcredit.goes hsent (List.append_nil _).symm ?_
    refine (countP_interface_frames (read_type · = MSG_TOPOLOGY_QUERY) _ _).trans ?_
    simp only [List.countP_singleton, decide_eq_true_eq]
    by_cases hquery : read_type buf = MSG_TOPOLOGY_QUERY
    · have hexch : Exchange buf := .inl hquery
      rw [if_pos hquery, if_pos hexch]
      exact Nat.le_add_left _ _
    · rw [if_neg hquery]
      exact Nat.zero_le _
  | hears i k =>
    obtain hsame | hlost | ⟨frame, hframe, haccepts⟩ := hlearns.hears_cases net i k
    · cases hstep.symm.trans hsame
      exact h
    · cases hstep.symm.trans hlost
      exact h
    · obtain ⟨d, queries, frames, hexec, -, hreacts, -, -, hqueries, hsent⟩ :=
        hlearns.hears net hframe haccepts
      cases hstep.symm.trans hexec
      have hthere : lan.Asking { l.takes i k with
        heard := Function.update l.heard i (l.heard i ++ [read_buffer frame]) } j 0 := h
      exact hthere.goes hsent hqueries hreacts.asks_little
  | loses i k =>
    cases hstep
    exact h
  | doubles i k =>
    cases hstep
    exact hless (hmore rfl (l.strange_doubled _ _))
  | injects frame =>
    cases hstep
    exact hless (hmore rfl (l.strange_outside _ [frame]))

end Sent

section Covered

variable {ι : Type} [Fintype ι] {net : lan_setup ι} {l l' : lan ι}
  {ifs : ι → NetworkInterface cmdu_filter_cb} {i j : ι} {k c : Nat} {d : device}
  {frames : List (Int × List UInt8)} {queries : List (MacAddr × UInt16)}

theorem lan.Fresh.covered (h : l.Fresh ifs) (j : ι) : l.Covered ifs j 0 ∧ l.Asking j 0 := by
  unfold lan.Covered lan.Asking lan.responses lan.requests lan.questions
  rw [h.transmitted, h.pending]
  exact ⟨Nat.zero_le _, Nat.zero_le _⟩

/-- Of a table without duplicates at most three entries are names of an interface. -/
theorem named_le {nbrs : List MacAddr} (hnodup : nbrs.Nodup)
    (interface : NetworkInterface cmdu_filter_cb) :
    (nbrs.countP fun mac => mac ∈ names interface) ≤ 3 := by
  rw [List.countP_eq_length_filter]
  have hsub : nbrs.filter (fun mac => mac ∈ names interface) ⊆ names interface := fun mac hmac =>
    of_decide_eq_true (List.mem_filter.mp hmac).2
  exact (List.subperm_of_subset (hnodup.filter _) hsub).length_le

/-- Frames that are doubled or from elsewhere, some of which are then under way, cover
themselves. -/
theorem lan.Covered.more (h : l.Covered ifs j 0) {more : Nat} (hdevices : l'.devices = l.devices)
    (hstrange : l'.strange = l.strange + more)
    (hpending : l'.questions ifs j + c ≤ l.questions ifs j + more) : l'.Covered ifs j c := by
  unfold lan.Covered lan.responses lan.asked at h ⊢
  rw [hdevices, hstrange]
  omega

variable [DecidableEq ι]

theorem lan.goes_asked (hqueries : d.queries = (l.devices i).queries ++ queries) :
    (l.goes i d).asked ifs j =
      l.asked ifs j + queries.countP fun q => q.1 ∈ names (ifs j) := by
  have hone (i' : ι) : ((l.goes i d).devices i').queries.countP (fun q => q.1 ∈ names (ifs j)) =
      (l.devices i').queries.countP (fun q => q.1 ∈ names (ifs j)) +
        if i' = i then queries.countP (fun q => q.1 ∈ names (ifs j)) else 0 := by
    change (Function.update l.devices i d i').queries.countP _ = _
    by_cases hi : i' = i
    · subst hi
      rw [Function.update_self, hqueries, List.countP_append, if_pos rfl]
    · rw [Function.update_of_ne hi, if_neg hi, Nat.add_zero]
  unfold lan.asked
  rw [Finset.sum_congr rfl fun i' _ => hone i', Finset.sum_add_distrib, Finset.sum_ite_eq',
    if_pos (Finset.mem_univ i)]

/-- What a device sends is covered by what it asks and by the credit there was. -/
theorem lan.Covered.goes (h : l.Covered ifs j c)
    (hsent : d.env.transmitted = (l.devices i).env.transmitted ++ frames)
    (hqueries : d.queries = (l.devices i).queries ++ queries)
    (hcost : (if j = i then frames.countP fun x => read_type x.2 = MSG_TOPOLOGY_RESPONSE else 0) +
      (frames.countP fun x => QueriesFor (ifs j) x.2) ≤
        queries.countP (fun q => q.1 ∈ names (ifs j)) + c) : (l.goes i d).Covered ifs j 0 := by
  unfold lan.Covered at h ⊢
  rw [lan.goes_asked hqueries, lan.goes_responses hsent, lan.questions, lan.goes_pending hsent,
    List.countP_append, List.countP_map]
  change _ + (_ + frames.countP fun x => QueriesFor (ifs j) x.2) + 0 ≤ _ + l.strange
  unfold lan.questions at h
  omega

/-- A frame that is taken leaves its place to a response. -/
theorem lan.Covered.takes (h : l.Covered ifs j 0) {frame : List UInt8}
    (hframe : (l.pending i)[k]? = some frame) :
    (l.takes i k).Covered ifs j (if j = i ∧ QueriesFor (ifs j) frame then 1 else 0) := by
  refine h.more rfl (Nat.add_zero _).symm ?_
  · change (Function.update l.pending i ((l.pending i).eraseIdx k) j).countP _ + _ ≤
      (l.pending j).countP _
    by_cases hj : j = i
    · subst hj
      obtain ⟨hk, rfl⟩ := List.getElem?_eq_some_iff.mp hframe
      have hperm := (List.getElem_cons_eraseIdx_perm hk).countP_eq (QueriesFor (ifs j) ·)
      rw [List.countP_cons] at hperm
      rw [Function.update_self, ← hperm]
      simp only [true_and, decide_eq_true_eq]
      exact le_rfl
    · rw [Function.update_of_ne hj, if_neg (fun hboth => hj hboth.1), Nat.add_zero]

theorem lan.Covered.loses (h : l.Covered ifs j 0) : (l.takes i k).Covered ifs j 0 := by
  cases hframe : (l.pending i)[k]? with
  | none =>
    have hsame : (l.pending i).eraseIdx k = l.pending i :=
      List.eraseIdx_of_length_le (List.getElem?_eq_none_iff.mp hframe)
    rw [lan.takes, hsame, Function.update_eq_self]
    exact h
  | some frame =>
    have hcredit := h.takes (i := i) hframe
    unfold lan.Covered at hcredit ⊢
    omega

theorem lan.Covered.step (h : l.Covered ifs j 0) (hlearns : l.Learns ifs) {e : lan_event ι}
    (hstep : l.exec net e = ok l') : l'.Covered ifs j 0 := by
  have hexchange (fs : List (List UInt8)) :
      fs.countP (QueriesFor (ifs j) ·) ≤ fs.countP (Exchange ·) :=
    List.countP_mono_left fun f _ hf => by
      rw [decide_eq_true_eq] at hf ⊢
      exact .inl hf.1
  cases e with
  | discovers i =>
    obtain ⟨env, rfl, hsent⟩ := lan.exec_discovers hstep
    refine h.goes hsent (List.append_nil _).symm ?_
    have htype := (discovery_headed (l.devices i).interface.toNetworkInterface).read_type
    rw [countP_no_frame (read_type · = MSG_TOPOLOGY_RESPONSE) _ (by rw [htype]; decide), ite_self,
      countP_no_frame (QueriesFor (ifs j) ·) _ (by
        rw [decide_eq_true_eq]
        rintro ⟨hquery, -⟩
        rw [htype] at hquery
        exact absurd hquery (by decide))]
    exact Nat.zero_le _
  | forwards i buf =>
    obtain ⟨env, rfl, hsent⟩ := lan.exec_forwards hstep
    have hcredit : lan.Covered ifs { l with outside := l.outside ++ [buf] } j
      ([buf].countP (Exchange ·)) := h.more rfl (l.strange_outside l.pending [buf]) le_rfl
    refine hcredit.goes hsent (List.append_nil _).symm ?_
    have hresponse := countP_interface_frames (read_type · = MSG_TOPOLOGY_RESPONSE)
      (l.devices i).interface.toNetworkInterface buf
    have hquery := countP_interface_frames (QueriesFor (ifs j) ·)
      (l.devices i).interface.toNetworkInterface buf
    have hboth : (if read_type buf = MSG_TOPOLOGY_RESPONSE then 1 else 0) +
        (if QueriesFor (ifs j) buf then 1 else 0) ≤ [buf].countP (Exchange ·) := by
      simp only [List.countP_singleton, decide_eq_true_eq]
      by_cases hasked : QueriesFor (ifs j) buf
      · have hnot : read_type buf ≠ MSG_TOPOLOGY_RESPONSE := by
          rw [hasked.1]
          decide
        have hexch : Exchange buf := .inl hasked.1
        rw [if_pos hasked, if_neg hnot, if_pos hexch]
      · rw [if_neg hasked, Nat.add_zero]
        by_cases hanswer : read_type buf = MSG_TOPOLOGY_RESPONSE
        · have hexch : Exchange buf := .inr hanswer
          rw [if_pos hanswer, if_pos hexch]
        · rw [if_neg hanswer]
          exact Nat.zero_le _
    simp only [decide_eq_true_eq] at hresponse hquery
    rw [List.countP_nil, Nat.zero_add]
    refine (Nat.add_le_add ?_ hquery).trans hboth
    split
    · exact hresponse
    · exact Nat.zero_le _
  | hears i k =>
    obtain hsame | hlost | ⟨frame, hframe, haccepts⟩ := hlearns.hears_cases net i k
    · cases hstep.symm.trans hsame
      exact h
    · cases hstep.symm.trans hlost
      exact h.loses
    · obtain ⟨d, queries, frames, hexec, -, hreacts, -, -, hqueries, hsent⟩ :=
        hlearns.hears net hframe haccepts
      cases hstep.symm.trans hexec
      have hcredit : lan.Covered ifs
          { l.takes i k with
            heard := Function.update l.heard i (l.heard i ++ [read_buffer frame]) } j
          (if j = i ∧ QueriesFor (ifs j) frame then 1 else 0) := h.takes hframe
      exact hcredit.goes hsent hqueries (hreacts.cost haccepts)
  | loses i k =>
    cases hstep
    exact h.loses
  | doubles i k =>
    cases hstep
    refine h.more rfl (l.strange_doubled _ _) ?_
    rw [Nat.add_zero, lan.questions, lan.questions]
    dsimp only
    by_cases hj : j = i
    · subst hj
      rw [Function.update_self, List.countP_append]
      exact Nat.add_le_add_left (hexchange _) _
    · rw [Function.update_of_ne hj]
      exact Nat.le_add_right _ _
  | injects frame =>
    cases hstep
    refine h.more rfl (l.strange_outside _ [frame]) ?_
    rw [Nat.add_zero, lan.questions, List.countP_append]
    exact Nat.add_le_add_left (hexchange _) _

/-- However often the devices announce themselves, and whatever happens to the frames: a device
sends no more topology queries than it has neighbours, and no more responses than three for
each device, if no queries or responses are doubled or come from elsewhere. -/
theorem topology_traffic_bounded (hfresh : l.Fresh ifs) {tr : List (lan_event ι × lan ι)}
    (hrun : Run (Returning (lan.exec net)) l tr) (j : ι) :
    let l' := endState l tr
    l'.requests j ≤ (l'.devices j).nbrs.length + l'.strange ∧
      l'.responses j ≤ (Finset.univ.sum fun i =>
        (l'.devices i).nbrs.countP fun mac => mac ∈ names (ifs j)) + l'.strange ∧
      l'.responses j ≤ 3 * Fintype.card ι + l'.strange := by
  obtain ⟨⟨hlearns, hauthentic⟩, hcovered, hasking⟩ := Run.endState_invariant
    (J := fun l : lan ι => (l.Learns ifs ∧ l.Authentic ifs) ∧ l.Covered ifs j 0 ∧ l.Asking j 0)
    (fun hs hstep => ⟨⟨hs.1.1.step hstep, hs.1.2.step hs.1.1 hstep⟩, hs.2.1.step hs.1.1 hstep,
      hs.2.2.step hs.1.1 hstep⟩) ⟨⟨hfresh.learns, hfresh.authentic⟩, hfresh.covered j⟩ hrun
  have hneighbours (i : ι) := hlearns.neighbours hauthentic i
  have hasked : (endState l tr).asked ifs j = Finset.univ.sum fun i =>
      ((endState l tr).devices i).nbrs.countP fun mac => mac ∈ names (ifs j) := by
    refine Finset.sum_congr rfl fun i _ => ?_
    rw [← (hneighbours i).2.1, List.countP_map]
    rfl
  have hnamed : (Finset.univ.sum fun i =>
      ((endState l tr).devices i).nbrs.countP fun mac => mac ∈ names (ifs j)) ≤
        3 * Fintype.card ι := by
    refine (Finset.sum_le_card_nsmul _ _ 3 fun i _ => named_le (hneighbours i).1 (ifs j)).trans ?_
    rw [smul_eq_mul, Nat.mul_comm]
    exact le_rfl
  unfold lan.Covered at hcovered
  unfold lan.Asking at hasking
  rw [hasked] at hcovered
  rw [← List.length_map Prod.fst, (hneighbours j).2.1] at hasking
  refine ⟨hasking, ?_, ?_⟩
  · omega
  · omega

end Covered

theorem topology_traffic_bounded_two :
    (endState two_devices two_run).requests false = 1 ∧
      (endState two_devices two_run).responses true = 1 ∧
      (endState two_devices two_run).responses true ≤
        3 * Fintype.card Bool + (endState two_devices two_run).strange := by
  have hcounts : (endState two_devices two_run).requests false = 1 ∧
      (endState two_devices two_run).responses true = 1 := by decide +kernel
  obtain ⟨-, -, hbound⟩ := topology_traffic_bounded two_devices_fresh two_run_is_run true
  exact ⟨hcounts.1, hcounts.2, hbound⟩

end easymesh.mesh_agent
