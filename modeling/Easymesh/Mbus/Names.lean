import Easymesh.Mbus.Effects

open Lib Lib.Result easymesh.tlv_parser

namespace easymesh.mbusd

/-- The block holds a name that fits `char name[128]`. -/
def Fits (block : List UInt8) : Prop := ∃ name, cstring block = some name ∧ name.length < 128

/-- All names are stored as strings that fit. -/
structure Stored (b : daemon) : Prop where
  clients : ∀ cli ∈ b.g_clients, Fits cli.name
  groups : ∀ group ∈ b.g_groups, Fits group.group_name
  users : ∀ group ∈ b.g_groups, ∀ user ∈ group.users, Fits user

/-- No two clients and no two groups have the same stored name. -/
structure DistinctNames (b : daemon) : Prop where
  clients : b.user_names.Nodup
  groups : b.group_names.Nodup

instance (b : daemon) : Decidable (DistinctNames b) :=
  decidable_of_iff (b.user_names.Nodup ∧ b.group_names.Nodup)
    ⟨fun h => ⟨h.1, h.2⟩, fun h => ⟨h.clients, h.groups⟩⟩

/-- The message carries no name of 128 bytes or more, for a login or for a new
group, of which the first 127 bytes are taken. -/
def NotCutToTaken (b : daemon) (e : bus_event) (_ : daemon) : Prop :=
  match e with
  | .message _ msg _ =>
    (∀ name ∈ login_name msg, 128 ≤ name.length → some (name.take 127) ∉ b.user_names) ∧
      ∀ name ∈ create_name msg, 128 ≤ name.length → some (name.take 127) ∉ b.group_names
  | _ => True

instance (b : daemon) (b' : daemon) : ∀ e, Decidable (NotCutToTaken b e b')
  | .message _ _ _ => inferInstanceAs (Decidable (_ ∧ _))
  | .accept _ | .close _ | .full _ => inferInstanceAs (Decidable True)

variable {b b' : daemon} {e : bus_event} {username name block : List UInt8} {i : Nat}
  {group group' : group_t} {g_groups g_groups' : List group_t}

section Fitting

theorem fits_of_cut (h : cstring block = some (name.take 127)) : Fits block := by
  refine ⟨name.take 127, h, ?_⟩
  rw [List.length_take]
  omega

theorem Stored.user_names_length (h : Stored b) (hname : some name ∈ b.user_names) :
    name.length < 128 := by
  obtain ⟨cli, hcli, heq⟩ := List.mem_map.mp hname
  obtain ⟨own, hown, hlength⟩ := h.clients cli hcli
  rw [hown] at heq
  cases heq
  exact hlength

theorem Stored.group_names_length (h : Stored b) (hname : some name ∈ b.group_names) :
    name.length < 128 := by
  obtain ⟨group, hgroup, heq⟩ := List.mem_map.mp hname
  obtain ⟨own, hown, hlength⟩ := h.groups group hgroup
  rw [hown] at heq
  cases heq
  exact hlength

/-- A new name is cut to a taken one only when it is cut. -/
theorem cut_notMem_iff {names : List (Option (List UInt8))} (hnew : some name ∉ names) :
    some (name.take 127) ∉ names ↔ (128 ≤ name.length → some (name.take 127) ∉ names) := by
  refine ⟨fun h _ => h, fun h => ?_⟩
  by_cases hlength : 128 ≤ name.length
  · exact h hlength
  · rwa [List.take_of_length_le (by omega)]

end Fitting

section Groups

/-- What holds of all groups holds after one of them is replaced. -/
theorem forall_mem_set {P : group_t → Prop} (hall : ∀ group ∈ g_groups, P group) (hnew : P group') :
    ∀ group ∈ g_groups.set i group', P group := by
  intro group hgroup
  obtain hold | rfl := List.mem_or_eq_of_mem_set hgroup
  · exact hall group hold
  · exact hnew

/-- A change of one group that keeps its name keeps all names. -/
theorem set_group_names (hget : g_groups[i]? = some group)
    (hname : group'.group_name = group.group_name) :
    (g_groups.set i group').map (fun group => cstring group.group_name) =
      g_groups.map fun group => cstring group.group_name := by
  obtain ⟨hlt, rfl⟩ := List.getElem?_eq_some_iff.mp hget
  have hlt' : i < (g_groups.map fun group => cstring group.group_name).length := by
    rwa [List.length_map]
  have hsame : cstring group'.group_name =
      (g_groups.map fun group => cstring group.group_name)[i] := by
    rw [hname, List.getElem_map]
  rw [List.map_set, hsame, List.set_getElem_self]

theorem left_group_names (h : List.Forall₂ (Left username) g_groups g_groups') :
    g_groups'.map (fun group => cstring group.group_name) =
      g_groups.map fun group => cstring group.group_name := by
  induction h with
  | nil => rfl
  | cons hleft _ ih => rw [List.map_cons, List.map_cons, hleft.group_name, ih]

/-- Each group after the leaving comes from one before it. -/
theorem left_mem (h : List.Forall₂ (Left username) g_groups g_groups') (hmem : group' ∈ g_groups') :
    ∃ group ∈ g_groups, Left username group group' := by
  induction h with
  | nil => cases hmem
  | cons hleft _ ih =>
    rcases List.mem_cons.mp hmem with rfl | hmem
    · exact ⟨_, List.mem_cons_self, hleft⟩
    · obtain ⟨group, hgroup, hleft⟩ := ih hmem
      exact ⟨group, List.mem_cons_of_mem _ hgroup, hleft⟩

end Groups

section Step

/-- A step stores names that are cut to fit and copies of the names of clients. -/
theorem Stored.effect (hstored : Stored b) (h : Effect b e b') : Stored b' := by
  cases h with
  | accepted fd => exact ⟨hstored.clients, hstored.groups, hstored.users⟩
  | answered _ _ _ => exact ⟨hstored.clients, hstored.groups, hstored.users⟩
  | logged_in _ _ _ _ _ hcut =>
    refine ⟨?_, hstored.groups, hstored.users⟩
    exact List.forall_mem_append.mpr
      ⟨hstored.clients, List.forall_mem_singleton.mpr (fits_of_cut hcut)⟩
  | created _ _ _ hcut =>
    refine ⟨hstored.clients, ?_, ?_⟩
    · exact List.forall_mem_append.mpr
        ⟨hstored.groups, List.forall_mem_singleton.mpr (fits_of_cut hcut)⟩
    · exact List.forall_mem_append.mpr ⟨hstored.users, List.forall_mem_singleton.mpr nofun⟩
  | joined _ _ hcli hget hname hdata _ =>
    have hmem := List.mem_of_getElem? hget
    have hfits : Fits _ := hstored.clients _ hcli
    rw [Fits, hname, ← hdata] at hfits
    have hgroup := hstored.groups _ hmem
    refine ⟨hstored.clients, ?_, ?_⟩
    · exact forall_mem_set hstored.groups hgroup
    · apply forall_mem_set hstored.users
      exact List.forall_mem_append.mpr ⟨hstored.users _ hmem, List.forall_mem_singleton.mpr hfits⟩
  | left _ _ hcli hget hleft =>
    have hmem := List.mem_of_getElem? hget
    refine ⟨hstored.clients, ?_, ?_⟩
    · exact forall_mem_set hstored.groups (hleft.group_name ▸ hstored.groups _ hmem)
    · apply forall_mem_set hstored.users
      exact fun user huser => hstored.users _ hmem user (hleft.users.subset huser)
  | disconnected _ => exact ⟨hstored.clients, hstored.groups, hstored.users⟩
  | closed _ _ _ hleft _ =>
    refine ⟨fun cli hcli => ?_, fun group hgroup => ?_, fun group hgroup user huser => ?_⟩
    · exact hstored.clients cli (List.mem_of_mem_filter hcli)
    · obtain ⟨old, hold, hone⟩ := left_mem hleft hgroup
      exact hone.group_name ▸ hstored.groups old hold
    · obtain ⟨old, hold, hone⟩ := left_mem hleft hgroup
      exact hstored.users old hold user (hone.users.subset huser)
  | reset fd => exact ⟨hstored.clients, hstored.groups, hstored.users⟩

theorem DistinctNames.kept (h : DistinctNames b) (hclients : b'.user_names.Sublist b.user_names)
    (hgroups : b'.group_names = b.group_names) : DistinctNames b' :=
  ⟨hclients.nodup h.clients, hgroups ▸ h.groups⟩

theorem DistinctNames.add_user_iff (h : DistinctNames b) {cut : Option (List UInt8)}
    (hclients : b'.user_names = b.user_names ++ [cut]) (hgroups : b'.group_names = b.group_names) :
    DistinctNames b' ↔ cut ∉ b.user_names := by
  have hnodup : b'.user_names.Nodup ↔ cut ∉ b.user_names := by
    rw [hclients, ← List.concat_eq_append, List.nodup_concat]
    exact and_iff_left h.clients
  exact ⟨fun h' => hnodup.mp h'.clients, fun hnew => ⟨hnodup.mpr hnew, hgroups ▸ h.groups⟩⟩

theorem DistinctNames.add_group_iff (h : DistinctNames b) {cut : Option (List UInt8)}
    (hclients : b'.user_names = b.user_names) (hgroups : b'.group_names = b.group_names ++ [cut]) :
    DistinctNames b' ↔ cut ∉ b.group_names := by
  have hnodup : b'.group_names.Nodup ↔ cut ∉ b.group_names := by
    rw [hgroups, ← List.concat_eq_append, List.nodup_concat]
    exact and_iff_left h.groups
  exact ⟨fun h' => hnodup.mp h'.groups, fun hnew => ⟨hclients ▸ h.clients, hnodup.mpr hnew⟩⟩

/-- A message that carries neither kind of name is a good step. -/
theorem notCutToTaken_of_none {fd : Nat} {msg : List UInt8} {addr : Ptr}
    (hlogin : login_name msg = none) (hcreate : create_name msg = none) :
    NotCutToTaken b (.message fd msg addr) b' := by
  refine ⟨fun name hname => ?_, fun name hname => ?_⟩
  · rw [hlogin] at hname
    cases hname
  · rw [hcreate] at hname
    cases hname

/-- A step makes two names equal exactly when it cuts a new one to a taken one. -/
theorem Effect.distinct_iff (hstored : Stored b) (hdistinct : DistinctNames b)
    (h : Effect b e b') : DistinctNames b' ↔ NotCutToTaken b e b' := by
  have hrefl : b.user_names.Sublist b.user_names := List.Sublist.refl _
  cases h with
  | accepted fd => exact iff_of_true (hdistinct.kept hrefl rfl) trivial
  | answered hlogin hcreate _ =>
    refine iff_of_true (hdistinct.kept hrefl rfl) ⟨fun name hname hlong => ?_,
      fun name hname hlong => ?_⟩
    · have hlength := hstored.user_names_length (hlogin name hname)
      omega
    · have hlength := hstored.group_names_length (hcreate name hname)
      omega
  | @logged_in fd msg addr name stored hcreate hname hne hfresh hnew hcut =>
    have hgood (b' : daemon) : NotCutToTaken b (.message fd msg addr) b' ↔
        some (name.take 127) ∉ b.user_names := by
      rw [cut_notMem_iff hnew]
      simp [NotCutToTaken, hname, hcreate]
    rw [hgood]
    refine hdistinct.add_user_iff ?_ rfl
    simp [daemon.user_names, daemon.setArg, hcut]
  | @created fd msg addr name stored hlogin hname hnew hcut =>
    have hgood (b' : daemon) : NotCutToTaken b (.message fd msg addr) b' ↔
        some (name.take 127) ∉ b.group_names := by
      rw [cut_notMem_iff hnew]
      simp [NotCutToTaken, hname, hlogin]
    rw [hgood]
    refine hdistinct.add_group_iff rfl ?_
    simp [daemon.group_names, hcut]
  | joined hlogin hcreate _ hget _ _ _ =>
    exact iff_of_true (hdistinct.kept hrefl (set_group_names hget rfl))
      (notCutToTaken_of_none hlogin hcreate)
  | left hlogin hcreate _ hget hleft =>
    have hgroups := set_group_names hget hleft.group_name
    exact iff_of_true (hdistinct.kept hrefl hgroups) (notCutToTaken_of_none hlogin hcreate)
  | disconnected _ => exact iff_of_true (hdistinct.kept hrefl rfl) trivial
  | closed _ _ _ hleft _ =>
    exact iff_of_true (hdistinct.kept (.map _ List.filter_sublist) (left_group_names hleft)) trivial
  | reset fd => exact iff_of_true (hdistinct.kept hrefl rfl) trivial

theorem mbusd_main_stored : Stored mbusd_main := ⟨nofun, nofun, nofun⟩

theorem mbusd_main_distinct : DistinctNames mbusd_main := ⟨List.nodup_nil, List.nodup_nil⟩

/-- In every run of the daemon all stored names are distinct in every state
exactly when no login or new group comes with a name that is cut to a taken one. -/
theorem names_distinct_iff {tr : List (bus_event × daemon)} (hrun : Run Step mbusd_main tr) :
    (∀ x ∈ tr, DistinctNames x.2) ↔ AllSteps NotCutToTaken mbusd_main tr := by
  apply Run.invariant_iff (J := Stored) _ _ mbusd_main_stored mbusd_main_distinct hrun
  · exact fun hstored _ hstep => hstored.effect hstep.effect
  · exact fun hstored hdistinct hstep => hstep.effect.distinct_iff hstored hdistinct

end Step

section Runs

/-- A message whose body is made of some items. -/
def bus_message (command_id : UInt16) (items : List (UInt16 × List UInt8)) : List UInt8 :=
  let body := items.flatMap fun (type, value) =>
    be16 type ++ be16 (UInt16.ofNat value.length) ++ value
  bytesI32 body.length ++ List.replicate 6 0 ++ bytesU16 command_id ++ List.replicate 4 0 ++ body

def login_message (name : List UInt8) : List UInt8 :=
  bus_message CID_LOGIN_REQ_USERLOGIN [(TYPE_USERLOGIN_USERNAME, name)]

def create_message (name : List UInt8) : List UInt8 :=
  bus_message CID_GROUP_CREATE_GROUP [(TYPE_GROUPCREATE_GROUPNAME, name)]

/-- The run of the daemon on some events. -/
def bus_trace (events : List bus_event) : List (bus_event × daemon) :=
  trace (fun b e => (b.exec e).getD b) mbusd_main events

theorem bus_trace_run {events : List bus_event}
    (h : Enabled (fun b e => e.Allowed b ∧ (b.exec e).Returns) (fun b e => (b.exec e).getD b)
      mbusd_main events) : Run Step mbusd_main (bus_trace events) :=
  run_trace_guarded h

theorem two_users_distinct :
    let tr := bus_trace [.accept 5, .message 5 (login_message (cstr ['a'])) 1, .accept 6,
      .message 6 (login_message (cstr ['b'])) 2, .message 6 (create_message (cstr ['a'])) 3]
    Run Step mbusd_main tr ∧ ∀ x ∈ tr, DistinctNames x.2 := by
  intro tr
  have hrun : Run Step mbusd_main tr := bus_trace_run (by decide +kernel)
  exact ⟨hrun, (names_distinct_iff hrun).mpr (by decide +kernel)⟩

/-- Two users and two groups are made of one name of 128 bytes each. -/
theorem long_names_cut_alike :
    let name := List.replicate 128 97 ++ [0]
    let tr := bus_trace [.accept 5, .message 5 (login_message name) 1, .accept 6,
      .message 6 (login_message name) 2, .message 6 (create_message name) 3,
      .message 6 (create_message name) 3]
    Run Step mbusd_main tr ∧ ¬ ∀ x ∈ tr, DistinctNames x.2 := by
  intro name tr
  have hrun : Run Step mbusd_main tr := bus_trace_run (by decide +kernel)
  exact ⟨hrun, by decide +kernel⟩

end Runs

end easymesh.mbusd
