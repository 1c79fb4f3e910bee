import Easymesh.Mbus.Names

open Lib Lib.Result

namespace easymesh.mbusd

/-- An open connection that has an `arg` has that of a client in `g_clients`. -/
def ArgsListed (b : daemon) : Prop :=
  ∀ fd, (b.ios fd).opened = true → (b.ios fd).arg ≠ 0 → ∃ cli ∈ b.g_clients, cli.addr = (b.ios fd).arg

/-- Clients and connections point at each other. -/
structure Linked (b : daemon) : Prop where
  io : ∀ cli ∈ b.g_clients, ∃ fd, cli.io = some fd ∧ (b.ios fd).opened = true ∧
    (b.ios fd).arg = cli.addr
  arg : ArgsListed b

/-- What a step writes for users goes to open connections whose `arg` is a client
that the message is for. -/
def OnlyToUsers (b : daemon) (e : bus_event) (b' : daemon) : Prop :=
  match e with
  | .message _ msg _ =>
    msg_get_command_id msg ≠ ok CID_OTHER_HEARTBEAT →
      ∃ calls, b'.writes = b.writes ++ calls ∧ ∀ call ∈ calls, ∃ cli ∈ b.g_clients,
        Addressed b msg cli ∧ (b.ios call.io).opened = true ∧ (b.ios call.io).arg = cli.addr
  | _ => b'.writes = b.writes

/-- The steps that keep the links: a login that is accepted comes on a connection
without a client, the client of a connection that closes is the one found under
its name, and a connection that is reset has no client. -/
def LinksKept (b : daemon) (e : bus_event) (_ : daemon) : Prop :=
  match e with
  | .accept _ => True
  | .message fd msg _ => ∀ name ∈ login_name msg, some name ∉ b.user_names → (b.ios fd).arg = 0
  | .close fd => ∀ cli ∈ b.g_clients, cli.addr = (b.ios fd).arg →
      user_get_by_name b.g_clients cli.name = ok (some cli)
  | .full fd => (b.ios fd).arg = 0

instance (b : daemon) (b' : daemon) : ∀ e, Decidable (LinksKept b e b')
  | .accept _ => inferInstanceAs (Decidable True)
  | .message _ msg _ => inferInstanceAs (Decidable (∀ name ∈ login_name msg, _))
  | .close _ => inferInstanceAs (Decidable (∀ cli ∈ b.g_clients, _))
  | .full fd => inferInstanceAs (Decidable ((b.ios fd).arg = 0))

/-- Clients have addresses of their own, and connections clients of their own. -/
structure Addresses (b : daemon) : Prop where
  nodup : (b.g_clients.map fun cli => cli.addr).Nodup
  ne_zero : ∀ cli ∈ b.g_clients, cli.addr ≠ 0
  arg_inj : ∀ fd fd', (b.ios fd).opened = true → (b.ios fd').opened = true →
    (b.ios fd).arg ≠ 0 → (b.ios fd).arg = (b.ios fd').arg → fd = fd'

/-- The two daemons agree on all slots but one. -/
def OffSlot (fd : Nat) (b b' : daemon) : Prop := ∀ fd', fd' ≠ fd → b'.ios fd' = b.ios fd'

variable {b b' : daemon} {e : bus_event} {fd : Nat} {cli other : client_t}

section Slots

variable (b : daemon) (fd : Nat)

theorem offSlot_update (slot : io_t) :
    OffSlot fd b { b with ios := Function.update b.ios fd slot } :=
  fun _ hne => Function.update_of_ne hne _ _

theorem update_slot (slot : io_t) : ({ b with ios := Function.update b.ios fd slot }).ios fd = slot :=
  Function.update_self _ _ _

theorem offSlot_reset : OffSlot fd b (b.eloop_reset_io fd) := offSlot_update b fd _

@[simp] theorem reset_arg : ((b.eloop_reset_io fd).ios fd).arg = 0 := by
  rw [daemon.eloop_reset_io, update_slot]

@[simp] theorem reset_opened : ((b.eloop_reset_io fd).ios fd).opened = false := by
  rw [daemon.eloop_reset_io, update_slot]

theorem offSlot_setArg (addr : Ptr) : OffSlot fd b (b.setArg fd addr) := offSlot_update b fd _

@[simp] theorem setArg_arg (addr : Ptr) : ((b.setArg fd addr).ios fd).arg = addr := by
  rw [daemon.setArg, update_slot]

@[simp] theorem setArg_opened (addr : Ptr) :
    ((b.setArg fd addr).ios fd).opened = (b.ios fd).opened := by
  rw [daemon.setArg, update_slot]

end Slots

section Addresses

theorem Addresses.eq_of_addr (h : Addresses b) (hcli : cli ∈ b.g_clients)
    (hother : other ∈ b.g_clients) (haddr : cli.addr = other.addr) : cli = other :=
  List.inj_on_of_nodup_map h.nodup hcli hother haddr

/-- A slot that loses its `arg`, and clients that go, leave addresses as they are. -/
theorem Addresses.blank (h : Addresses b) (hclients : b'.g_clients.Sublist b.g_clients)
    (hoff : OffSlot fd b b') (hblank : (b'.ios fd).arg = 0) : Addresses b' := by
  refine ⟨(hclients.map _).nodup h.nodup, fun cli hcli => h.ne_zero cli (hclients.subset hcli), ?_⟩
  intro fd₁ fd₂ hopen₁ hopen₂ hne heq
  have hne₁ : fd₁ ≠ fd := by
    rintro rfl
    exact hne hblank
  have hne₂ : fd₂ ≠ fd := by
    rintro rfl
    exact hne (heq.trans hblank)
  rw [hoff fd₁ hne₁] at hopen₁ hne heq
  rw [hoff fd₂ hne₂] at hopen₂ heq
  exact h.arg_inj fd₁ fd₂ hopen₁ hopen₂ hne heq

theorem Addresses.login (h : Addresses b) (cli : client_t) (hargs : ArgsListed b) (hne : cli.addr ≠ 0)
    (hfresh : ∀ other ∈ b.g_clients, other.addr ≠ cli.addr)
    (hclients : b'.g_clients = b.g_clients ++ [cli]) (hoff : OffSlot fd b b')
    (harg : (b'.ios fd).arg = cli.addr) : Addresses b' := by
  have hunlisted {fd' : Nat} (hopen : (b.ios fd').opened = true) : (b.ios fd').arg ≠ cli.addr := by
    intro heq
    obtain ⟨other, hother, haddr⟩ := hargs fd' hopen (heq ▸ hne)
    exact hfresh other hother (haddr.trans heq)
  refine ⟨?_, fun other hother => ?_, fun fd₁ fd₂ hopen₁ hopen₂ hne₁ heq => ?_⟩
  · rw [hclients, List.map_append, List.map_singleton, ← List.concat_eq_append, List.nodup_concat]
    refine ⟨fun hmem => ?_, h.nodup⟩
    obtain ⟨other, hother, haddr⟩ := List.mem_map.mp hmem
    exact hfresh other hother haddr
  · rw [hclients] at hother
    rcases List.mem_append.mp hother with hold | hnew
    · exact h.ne_zero other hold
    · cases List.mem_singleton.mp hnew
      exact hne
  · by_cases h₁ : fd₁ = fd
    · by_cases h₂ : fd₂ = fd
      · rw [h₁, h₂]
      · rw [hoff fd₂ h₂] at hopen₂ heq
        rw [h₁, harg] at heq
        exact absurd heq.symm (hunlisted hopen₂)
    · rw [hoff fd₁ h₁] at hopen₁ hne₁ heq
      by_cases h₂ : fd₂ = fd
      · rw [h₂, harg] at heq
        exact absurd heq (hunlisted hopen₁)
      · rw [hoff fd₂ h₂] at hopen₂ heq
        exact h.arg_inj fd₁ fd₂ hopen₁ hopen₂ hne₁ heq

theorem Addresses.effect (h : Addresses b) (hargs : ArgsListed b) (heffect : Effect b e b') :
    Addresses b' := by
  cases heffect with
  | accepted fd =>
    have hoff := offSlot_update b fd { opened := true, arg := 0 }
    exact Addresses.blank h (List.Sublist.refl _) hoff (by rw [update_slot])
  | answered _ _ _ | created _ _ _ _ | joined _ _ _ _ _ _ _ | left _ _ _ _ _ =>
    exact ⟨h.nodup, h.ne_zero, h.arg_inj⟩
  | @logged_in fd _ addr _ stored _ _ hne hfresh _ _ =>
    exact h.login { addr, io := some fd, name := stored } hargs hne hfresh rfl
      (offSlot_setArg _ _ _) (setArg_arg _ _ _)
  | @disconnected fd _ =>
    exact h.blank (List.Sublist.refl _) (offSlot_reset b fd) (reset_arg b fd)
  | closed _ _ _ _ _ =>
    exact h.blank List.filter_sublist (offSlot_reset _ _) (reset_arg _ _)
  | reset fd =>
    exact h.blank (List.Sublist.refl _) (offSlot_reset b fd) (reset_arg b fd)

end Addresses

section Listed

theorem ArgsListed.blank (h : ArgsListed b) (hclients : b'.g_clients = b.g_clients)
    (hoff : OffSlot fd b b') (hblank : (b'.ios fd).arg = 0) : ArgsListed b' := by
  intro fd' hopen hne
  have hother : fd' ≠ fd := by
    rintro rfl
    exact hne hblank
  rw [hoff fd' hother] at hopen hne ⊢
  rw [hclients]
  exact h fd' hopen hne

/-- A closed connection takes its own client away. -/
theorem ArgsListed.closed (h : ArgsListed b) (haddr : Addresses b)
    (hopen : (b.ios fd).opened = true) (harg : cli.addr = (b.ios fd).arg)
    (hclients : b'.g_clients = b.g_clients.filter fun c => c.addr ≠ cli.addr)
    (hoff : OffSlot fd b b') (hblank : (b'.ios fd).arg = 0) : ArgsListed b' := by
  intro fd' hopen' hne'
  have hother : fd' ≠ fd := by
    rintro rfl
    exact hne' hblank
  rw [hoff fd' hother] at hopen' hne' ⊢
  obtain ⟨c, hc, hcaddr⟩ := h fd' hopen' hne'
  have hkept : c.addr ≠ cli.addr := by
    intro heq
    exact hother (haddr.arg_inj fd' fd hopen' hopen hne' (by rw [← hcaddr, heq, harg]))
  refine ⟨c, ?_, hcaddr⟩
  rw [hclients]
  exact List.mem_filter.mpr ⟨hc, decide_eq_true hkept⟩

theorem ArgsListed.login (h : ArgsListed b) (hclients : b'.g_clients = b.g_clients ++ [cli])
    (hoff : OffSlot fd b b') (harg : (b'.ios fd).arg = cli.addr) : ArgsListed b' := by
  intro fd' hopen hne
  rw [hclients]
  by_cases hfd : fd' = fd
  · rw [hfd, harg]
    exact ⟨cli, List.mem_append_right _ (List.mem_singleton_self _), rfl⟩
  · rw [hoff fd' hfd] at hopen hne ⊢
    obtain ⟨other, hother, haddr⟩ := h fd' hopen hne
    exact ⟨other, List.mem_append_left _ hother, haddr⟩

/-- Where a connection that closes takes its own client away, each `arg` stays
that of a client. -/
theorem ArgsListed.effect (h : ArgsListed b) (haddr : Addresses b) (hallowed : e.Allowed b)
    (hown : ∀ fd, e = .close fd → LinksKept b e b') (heffect : Effect b e b') : ArgsListed b' := by
  cases heffect with
  | accepted fd =>
    have hoff := offSlot_update b fd { opened := true, arg := 0 }
    exact ArgsListed.blank h rfl hoff (by rw [update_slot])
  | answered _ _ _ | created _ _ _ _ | joined _ _ _ _ _ _ _ | left _ _ _ _ _ => exact h
  | @logged_in fd _ addr _ stored _ _ _ _ _ _ =>
    exact ArgsListed.login h rfl (offSlot_setArg _ _ _) (setArg_arg _ _ _)
  | @disconnected fd _ =>
    exact h.blank rfl (offSlot_reset b fd) (reset_arg b fd)
  | @closed fd cli victim g_groups hcli harg hne _ hvictim =>
    have hfound := hown fd rfl cli hcli harg
    rw [hfound] at hvictim
    cases hvictim
    exact h.closed haddr hallowed harg rfl (offSlot_reset _ _) (reset_arg _ _)
  | reset fd => exact h.blank rfl (offSlot_reset b fd) (reset_arg b fd)

end Listed

section Linked

/-- A client whose connection is not the slot that changes stays linked. -/
theorem Linked.elsewhere (h : Linked b) (hcli : cli ∈ b.g_clients)
    (hne : (b.ios fd).opened = true → (b.ios fd).arg ≠ cli.addr) (hoff : OffSlot fd b b') :
    ∃ fd', cli.io = some fd' ∧ (b'.ios fd').opened = true ∧ (b'.ios fd').arg = cli.addr := by
  obtain ⟨fd', hio, hopen, harg⟩ := h.io cli hcli
  have hother : fd' ≠ fd := by
    rintro rfl
    exact hne hopen harg
  exact ⟨fd', hio, by rw [hoff fd' hother]; exact hopen, by rw [hoff fd' hother]; exact harg⟩

/-- The client of a connection stays on it as long as it is linked. -/
theorem Linked.slot (h : Linked b') (haddr : Addresses b) (hcli : cli ∈ b'.g_clients)
    (hopen : (b.ios fd).opened = true) (harg : cli.addr = (b.ios fd).arg) (hne : cli.addr ≠ 0)
    (hoff : OffSlot fd b b') : (b'.ios fd).opened = true ∧ (b'.ios fd).arg = cli.addr := by
  obtain ⟨fd', -, hopen', harg'⟩ := h.io cli hcli
  by_cases hfd : fd' = fd
  · exact hfd ▸ ⟨hopen', harg'⟩
  · rw [hoff fd' hfd] at hopen' harg'
    have heq := haddr.arg_inj fd' fd hopen' hopen (harg' ▸ hne) (harg'.trans harg)
    exact absurd heq hfd

/-- A login links its client, and unlinks the one that the connection had. -/
theorem Linked.login_iff (h : Linked b) (haddr : Addresses b) (hopen : (b.ios fd).opened = true)
    (hfresh : ∀ other ∈ b.g_clients, other.addr ≠ cli.addr) (hio : cli.io = some fd)
    (hclients : b'.g_clients = b.g_clients ++ [cli]) (hoff : OffSlot fd b b')
    (hopen' : (b'.ios fd).opened = true) (harg : (b'.ios fd).arg = cli.addr) :
    Linked b' ↔ (b.ios fd).arg = 0 := by
  constructor
  · intro h'
    by_contra hhad
    obtain ⟨old, hold, hlost⟩ := h.arg fd hopen hhad
    have hmem : old ∈ b'.g_clients := hclients ▸ List.mem_append_left _ hold
    have hstays := (h'.slot haddr hmem hopen hlost (haddr.ne_zero old hold) hoff).2
    exact hfresh old hold (hstays.symm.trans harg)
  · intro hfree
    refine ⟨fun other hother => ?_, h.arg.login hclients hoff harg⟩
    rw [hclients] at hother
    cases List.mem_append.mp hother with
    | inl hold =>
      apply h.elsewhere hold _ hoff
      exact fun _ => hfree ▸ (haddr.ne_zero other hold).symm
    | inr hnew =>
      cases List.mem_singleton.mp hnew
      exact ⟨fd, hio, hopen', harg⟩

/-- A connection that closes must take its own client away: another one in its
place is still linked, and leaves this one on a closed connection. -/
theorem Linked.closed_iff (h : Linked b) (haddr : Addresses b) (hopen : (b.ios fd).opened = true)
    (hcli : cli ∈ b.g_clients) (harg : cli.addr = (b.ios fd).arg) (hvictim : other ∈ b.g_clients)
    (hclients : b'.g_clients = b.g_clients.filter fun c => c.addr ≠ other.addr)
    (hoff : OffSlot fd b b') (hclosed : (b'.ios fd).opened = false)
    (hblank : (b'.ios fd).arg = 0) : Linked b' ↔ other = cli := by
  constructor
  · intro h'
    by_contra hdiffers
    have hmem : cli ∈ b'.g_clients := by
      rw [hclients]
      refine List.mem_filter.mpr ⟨hcli, decide_eq_true fun heq => ?_⟩
      exact hdiffers (haddr.eq_of_addr hvictim hcli heq.symm)
    have hstays := (h'.slot haddr hmem hopen harg (haddr.ne_zero cli hcli) hoff).1
    rw [hclosed] at hstays
    cases hstays
  · rintro rfl
    refine ⟨fun c hc => ?_, h.arg.closed haddr hopen harg hclients hoff hblank⟩
    rw [hclients] at hc
    obtain ⟨hold, hkept⟩ := List.mem_filter.mp hc
    apply h.elsewhere hold _ hoff
    exact fun _ heq => of_decide_eq_true hkept (heq.symm.trans harg.symm)

/-- A slot is emptied without harm when no client is on it. -/
theorem Linked.blank_iff (h : Linked b) (haddr : Addresses b) (hopen : (b.ios fd).opened = true)
    (hclients : b'.g_clients = b.g_clients) (hoff : OffSlot fd b b')
    (hclosed : (b'.ios fd).opened = false) (hblank : (b'.ios fd).arg = 0) :
    Linked b' ↔ (b.ios fd).arg = 0 := by
  constructor
  · intro h'
    by_contra harg
    obtain ⟨cli, hcli, hlost⟩ := h.arg fd hopen harg
    have hmem : cli ∈ b'.g_clients := hclients ▸ hcli
    have hstays := (h'.slot haddr hmem hopen hlost (haddr.ne_zero cli hcli) hoff).1
    rw [hclosed] at hstays
    cases hstays
  · intro hfree
    refine ⟨fun cli hcli => ?_, h.arg.blank hclients hoff hblank⟩
    rw [hclients] at hcli
    apply h.elsewhere hcli _ hoff
    exact fun _ => hfree ▸ (haddr.ne_zero cli hcli).symm

/-- A step keeps clients and connections linked exactly when it is of those that do. -/
theorem Effect.linked_iff (haddr : Addresses b) (hlinked : Linked b) (hallowed : e.Allowed b)
    (heffect : Effect b e b') : Linked b' ↔ LinksKept b e b' := by
  cases heffect with
  | accepted fd =>
    have hoff := offSlot_update b fd { opened := true, arg := 0 }
    refine iff_of_true ⟨fun cli hcli => ?_, ?_⟩ trivial
    · refine hlinked.elsewhere hcli (fun hopen => ?_) hoff
      have hclosed : (b.ios fd).opened = false := hallowed
      rw [hclosed] at hopen
      cases hopen
    · exact ArgsListed.blank hlinked.arg rfl hoff (by rw [update_slot])
  | answered hlogin _ _ =>
    refine iff_of_true ⟨hlinked.io, hlinked.arg⟩ fun name hname hnew => ?_
    exact absurd (hlogin name hname) hnew
  | @logged_in fd msg addr name stored _ hname hne hfresh hnew _ =>
    have hopen : (b.ios fd).opened = true := hallowed.1
    apply Iff.trans (b := (b.ios fd).arg = 0)
    · exact @Linked.login_iff b _ fd { addr, io := some fd, name := stored } hlinked haddr hopen
        hfresh rfl rfl (offSlot_setArg _ _ _) (by rw [setArg_opened]; exact hopen)
        (setArg_arg _ _ _)
    · exact ⟨fun hfree _ _ _ => hfree, fun hkept => hkept name hname hnew⟩
  | created hlogin _ _ _ | joined hlogin _ _ _ _ _ _ | left hlogin _ _ _ _ =>
    refine iff_of_true ⟨hlinked.io, hlinked.arg⟩ fun name hname _ => ?_
    rw [hlogin] at hname
    cases hname
  | @disconnected fd harg =>
    have hiff : Linked (b.eloop_reset_io fd) ↔ (b.ios fd).arg = 0 :=
      hlinked.blank_iff haddr hallowed rfl (offSlot_reset b fd) (reset_opened b fd) (reset_arg b fd)
    refine iff_of_true (hiff.mpr harg) fun cli hcli heq => ?_
    exact absurd (heq.trans harg) (haddr.ne_zero cli hcli)
  | @closed fd cli victim g_groups hcli harg hne _ hvictim =>
    apply Iff.trans (b := victim = cli)
    · exact hlinked.closed_iff haddr hallowed hcli harg (user_get_by_name_some hvictim).1 rfl
        (offSlot_reset _ _) (reset_opened _ _) (reset_arg _ _)
    · refine ⟨fun heq c hc hcaddr => ?_, fun hkept => ?_⟩
      · obtain rfl := haddr.eq_of_addr hc hcli (hcaddr.trans harg.symm)
        exact heq ▸ hvictim
      · have hown := hkept cli hcli harg
        rw [hvictim] at hown
        cases hown
        rfl
  | reset fd =>
    exact hlinked.blank_iff haddr hallowed rfl (offSlot_reset b fd) (reset_opened b fd)
      (reset_arg b fd)

/-- Between linked clients and connections, what is passed on to a user goes to
the connection of that user. -/
theorem Effect.onlyToUsers (hlinked : Linked b) (heffect : Effect b e b') : OnlyToUsers b e b' := by
  cases heffect with
  | accepted _ | disconnected _ | closed _ _ _ _ _ | reset _ => rfl
  | logged_in _ _ _ _ _ _ | created _ _ _ _ | joined _ _ _ _ _ _ _ | left _ _ _ _ _ =>
    exact fun _ => ⟨[], (List.append_nil _).symm, nofun⟩
  | answered _ _ hcalls =>
    refine fun hid => ⟨_, rfl, fun call hcall => ?_⟩
    obtain ⟨cli, hcli, haddressed, hio, -, -⟩ := hcalls hid call hcall
    obtain ⟨fd', hio', hopen, harg⟩ := hlinked.io cli hcli
    rw [hio] at hio'
    cases hio'
    exact ⟨cli, hcli, haddressed, hopen, harg⟩

theorem mbusd_main_addresses : Addresses mbusd_main := ⟨List.nodup_nil, nofun, nofun⟩

theorem mbusd_main_linked : Linked mbusd_main := ⟨nofun, nofun⟩

/-- In every run of the daemon, clients and connections point at each other in
every state, and every message for a user goes to a connection of that user,
exactly when all steps keep the links. -/
theorem links_kept_iff {tr : List (bus_event × daemon)} (hrun : Run Step mbusd_main tr) :
    (∀ x ∈ tr, Linked x.2) ∧ AllSteps OnlyToUsers mbusd_main tr ↔
      AllSteps LinksKept mbusd_main tr := by
  have hlinks : (∀ x ∈ tr, Linked x.2) ↔ AllSteps LinksKept mbusd_main tr := by
    apply Run.invariant_iff (J := Addresses) _ _ mbusd_main_addresses mbusd_main_linked hrun
    · exact fun haddr hlinked hstep => haddr.effect hlinked.arg hstep.effect
    · exact fun haddr hlinked hstep => hstep.effect.linked_iff haddr hlinked hstep.1
  refine ⟨fun hall => hlinks.mp hall.1, fun hkept => ?_⟩
  have hall := hlinks.mpr hkept
  exact ⟨hall, hrun.allSteps_of_states (fun hlinked hstep => hstep.effect.onlyToUsers hlinked)
    mbusd_main_linked hall⟩

end Linked

section Runs

theorem login_close_linked :
    let tr := bus_trace [.accept 5, .message 5 (login_message (cstr ['a'])) 1, .accept 6,
      .message 6 (login_message (cstr ['b'])) 2, .close 5, .accept 5, .full 5]
    Run Step mbusd_main tr ∧ (∀ x ∈ tr, Linked x.2) ∧ AllSteps OnlyToUsers mbusd_main tr := by
  intro tr
  have hrun : Run Step mbusd_main tr := bus_trace_run (by decide +kernel)
  exact ⟨hrun, (links_kept_iff hrun).mpr (by decide +kernel)⟩

/-- The buffer of a connection that logged in fills up: its client is left with
the slot of a closed connection. -/
theorem full_buffer_breaks_link :
    let tr := bus_trace [.accept 5, .message 5 (login_message (cstr ['a'])) 1, .full 5]
    Run Step mbusd_main tr ∧
      ¬ ((∀ x ∈ tr, Linked x.2) ∧ AllSteps OnlyToUsers mbusd_main tr) := by
  intro tr
  have hrun : Run Step mbusd_main tr := bus_trace_run (by decide +kernel)
  refine ⟨hrun, fun ⟨hlinked, _⟩ => ?_⟩
  have hlast := hlinked _ (List.mem_cons_of_mem _ (List.mem_cons_of_mem _
    (List.mem_singleton_self _)))
  obtain ⟨fd', hio, hopen, -⟩ := hlast.io
    { addr := 1, io := some 5, name := cstr ['a'] ++ List.replicate 126 0 } (by decide +kernel)
  cases hio
  revert hopen
  decide +kernel

end Runs

end easymesh.mbusd
