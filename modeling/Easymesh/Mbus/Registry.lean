import Easymesh.Mbus.Links

open Lib Lib.Result

namespace easymesh.mbusd

/-- The names that a message brings in are shorter than the buffers for them. -/
def ShortNames (_ : daemon) (e : bus_event) (_ : daemon) : Prop :=
  match e with
  | .message _ msg _ =>
    (∀ name ∈ login_name msg, name.length < 128) ∧ ∀ name ∈ create_name msg, name.length < 128
  | _ => True

instance (b : daemon) (b' : daemon) : ∀ e, Decidable (ShortNames b e b')
  | .message _ _ _ => inferInstanceAs (Decidable (_ ∧ _))
  | .accept _ | .close _ | .full _ => inferInstanceAs (Decidable True)

/-- A group's members are among the names of clients, each of them once. -/
structure Members (names : List (Option (List UInt8))) (group : group_t) : Prop where
  once : (group.users.map cstring).Nodup
  known : ∀ user ∈ group.users, cstring user ∈ names

/-- What the registries of clients and groups have in common as long as names
are short. -/
structure Consistent (b : daemon) : Prop where
  stored : Stored b
  distinct : DistinctNames b
  addresses : Addresses b
  listed : ArgsListed b
  members : ∀ group ∈ b.g_groups, Members b.user_names group
  io : ∀ cli ∈ b.g_clients, cli.io ≠ none

variable {b b' : daemon} {e : bus_event} {cli other : client_t} {group group' : group_t}
  {name user username : List UInt8} {names names' : List (Option (List UInt8))}

section Lookup

theorem Stored.client_isSome (h : Stored b) : ∀ cli ∈ b.g_clients, (cstring cli.name).isSome := by
  intro cli hcli
  obtain ⟨name, hname, -⟩ := h.clients cli hcli
  rw [hname]
  rfl

theorem Consistent.eq_of_name (h : Consistent b) (hcli : cli ∈ b.g_clients)
    (hother : other ∈ b.g_clients) (hname : cstring cli.name = cstring other.name) : cli = other :=
  List.inj_on_of_nodup_map h.distinct.clients hcli hother hname

/-- A client is found under each block that holds its name. -/
theorem Consistent.user_get_by_name (h : Consistent b) (hcli : cli ∈ b.g_clients)
    (hname : cstring name = cstring cli.name) :
    user_get_by_name b.g_clients name = ok (some cli) := by
  have hsome : (cstring name).isSome := hname ▸ h.stored.client_isSome cli hcli
  obtain ⟨found, hfound⟩ := user_get_by_name_returns h.stored.client_isSome hsome
  obtain ⟨body, hbody⟩ := Option.isSome_iff_exists.mp hsome
  cases found with
  | none =>
    have hmissed := user_get_by_name_none hfound hbody cli hcli
    exact absurd (hname.symm.trans hbody) hmissed
  | some other =>
    obtain ⟨hother, body', hown, hsame⟩ := user_get_by_name_some hfound
    have heq : cstring other.name = cstring cli.name := hown.trans (hsame.symm.trans hname)
    rw [hfound, h.eq_of_name hother hcli heq]

end Lookup

section Members

/-- A group that loses members keeps the rest of them. -/
theorem Members.left (h : Members names group) (hleft : Left username group group') :
    Members names group' :=
  ⟨(hleft.users.map cstring).nodup h.once, fun user huser => h.known user (hleft.users.subset huser)⟩

/-- More clients do no harm to a group. -/
theorem Members.mono (h : Members names group) (hnames : names ⊆ names') : Members names' group :=
  ⟨h.once, fun user huser => hnames (h.known user huser)⟩

theorem Members.joined (h : Members names group) (hknown : cstring user ∈ names)
    (hnew : cstring user ∉ group.users.map cstring) :
    Members names { group with users := group.users ++ [user] } := by
  refine ⟨?_, fun other hother => ?_⟩
  · rw [List.map_append, List.map_singleton, ← List.concat_eq_append, List.nodup_concat]
    exact ⟨hnew, h.once⟩
  · obtain hold | hadded := List.mem_append.mp hother
    · exact h.known other hold
    · cases List.mem_singleton.mp hadded
      exact hknown

/-- Of a client that leaves its groups no membership remains when it is deleted. -/
theorem Members.closed (h : Members b.user_names group) (hsome : (cstring cli.name).isSome)
    (hleft : Left cli.name group group')
    (hclients : b'.g_clients = b.g_clients.filter fun c => c.addr ≠ cli.addr)
    (hown : ∀ c ∈ b.g_clients, c.addr = cli.addr → c = cli) : Members b'.user_names group' := by
  refine ⟨(hleft.users.map cstring).nodup h.once, fun user huser => ?_⟩
  have hkept : cstring user ∈ (group.users.map cstring).erase (cstring cli.name) := by
    rw [← hleft.erased hsome]
    exact List.mem_map_of_mem huser
  have hne : cstring user ≠ cstring cli.name := by
    intro heq
    rw [heq] at hkept
    exact (h.once.not_mem_erase) hkept
  obtain ⟨c, hc, hname⟩ := List.mem_map.mp (h.known user (hleft.users.subset huser))
  have hstays : c ∈ b'.g_clients := by
    rw [hclients]
    refine List.mem_filter.mpr ⟨hc, decide_eq_true fun haddr => ?_⟩
    rw [hown c hc haddr] at hname
    exact hne hname.symm
  exact List.mem_map.mpr ⟨c, hstays, hname⟩

theorem Consistent.members_effect (h : Consistent b) (heffect : Effect b e b') :
    ∀ group ∈ b'.g_groups, Members b'.user_names group := by
  cases heffect with
  | accepted _ | answered _ _ _ | disconnected _ | reset _ => exact h.members
  | logged_in _ _ _ _ _ _ =>
    intro group hgroup
    apply (h.members group hgroup).mono
    exact List.map_subset _ (List.subset_append_left _ _)
  | created _ _ _ _ =>
    exact List.forall_mem_append.mpr
      ⟨h.members, List.forall_mem_singleton.mpr ⟨List.nodup_nil, nofun⟩⟩
  | @joined _ _ _ _ _ _ data _ _ _ hcli hget hname hdata hnew =>
    rw [← hdata] at hname hnew
    have hknown : cstring data ∈ b.user_names := List.mem_map.mpr ⟨_, hcli, hname⟩
    apply forall_mem_set h.members
    exact (h.members _ (List.mem_of_getElem? hget)).joined hknown hnew
  | left _ _ _ hget hleft =>
    apply forall_mem_set h.members
    exact (h.members _ (List.mem_of_getElem? hget)).left hleft
  | @closed _ cli victim _ hcli _ _ hleft hvictim =>
    rw [h.user_get_by_name hcli rfl] at hvictim
    cases hvictim
    intro group hgroup
    obtain ⟨old, hold, hone⟩ := left_mem hleft hgroup
    exact (h.members old hold).closed (h.stored.client_isSome cli hcli) hone rfl
      fun c hc haddr => h.addresses.eq_of_addr hc hcli haddr

end Members

section Step

theorem notCutToTaken_of_short (hshort : ShortNames b e b') : NotCutToTaken b e b' := by
  cases e with
  | message fd msg addr =>
    refine ⟨fun name hname hlong => ?_, fun name hname hlong => ?_⟩
    · have hlength := hshort.1 name hname
      omega
    · have hlength := hshort.2 name hname
      omega
  | accept _ | close _ | full _ => trivial

/-- Each step with short names keeps the registries consistent. -/
theorem Consistent.step (h : Consistent b) (hshort : ShortNames b e b') (hstep : Step b e b') :
    Consistent b' := by
  have heffect := hstep.effect
  refine ⟨h.stored.effect heffect, ?_, h.addresses.effect h.listed heffect, ?_,
    h.members_effect heffect, heffect.io_kept h.io⟩
  · exact (heffect.distinct_iff h.stored h.distinct).mpr (notCutToTaken_of_short hshort)
  · apply h.listed.effect h.addresses hstep.1 _ heffect
    rintro fd rfl cli hcli -
    exact h.user_get_by_name hcli rfl

theorem mbusd_main_consistent : Consistent mbusd_main :=
  ⟨mbusd_main_stored, mbusd_main_distinct, mbusd_main_addresses, nofun, nofun, nofun⟩

end Step

end easymesh.mbusd
