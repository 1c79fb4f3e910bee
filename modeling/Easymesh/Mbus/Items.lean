import Easymesh.Mbus.Delivery

open Lib Lib.Result

namespace easymesh.mbusd

/-- What a handler does with an item of a message, which is `none` when the
message has none of its type. The value of an item without bytes is `NULL`. -/
inductive item_use where
  /-- `pstItem->value` or `pstItem->length` -/
  | member (value : Option (List UInt8))
  /-- `strcmp` of the value with a stored name. -/
  | compare (value name : List UInt8)
  /-- `value[0]` -/
  | first (value : List UInt8)
  /-- `%s` in a call of `snprintf` -/
  | copy (value : List UInt8)
  /-- `%s` in a call of `printf` -/
  | print (value : List UInt8)
  deriving DecidableEq, Repr

/-- The item is there, and what is read of its value is in it; `%s` reads up to a NUL. -/
def item_use.Inside : item_use → Prop
  | member value => value.isSome
  | compare value name => (strcmp_eq value name).Returns
  | first value => value ≠ []
  | copy value | print value => (0 : UInt8) ∈ value

instance (u : item_use) : Decidable u.Inside := by
  cases u <;> unfold item_use.Inside <;> infer_instance

/-- The comparisons of a loop that looks for a name among those stored. -/
def compared (value : List UInt8) : List (List UInt8) → List item_use
  | [] => []
  | name :: names =>
    .compare value name :: if strcmp_eq value name = ok false then compared value names else []

/-- The loop finds no name. -/
def Missed (value : List UInt8) (names : List (List UInt8)) : Prop :=
  ∀ name ∈ names, strcmp_eq value name = ok false

instance (value : List UInt8) (names : List (List UInt8)) : Decidable (Missed value names) :=
  inferInstanceAs (Decidable (∀ _ ∈ _, _))

section Uses

variable (b : daemon) (msg : List UInt8) (fd : Nat)

/-- The item that a handler goes on with, if any. -/
def found_item (type : UInt16) : Option (List UInt8) := (msg_item msg type).getD none

def client_blocks : List (List UInt8) := b.g_clients.map client_t.name

def group_blocks : List (List UInt8) := b.g_groups.map group_t.group_name

/-- A name that is stored when it is none of those there. -/
def new_name_uses (type : UInt16) (names : List (List UInt8)) : List item_use :=
  match found_item msg type with
  | none => []
  | some name =>
    .member (some name) :: compared name names ++ if Missed name names then [.copy name] else []

def login_request_uses : List item_use :=
  new_name_uses msg TYPE_USERLOGIN_USERNAME (client_blocks b)

def create_group_uses : List item_use :=
  new_name_uses msg TYPE_GROUPCREATE_GROUPNAME (group_blocks b)

/-- `join_group` looks for the group once more, and prints the name when the
user is in the group. -/
def join_group_uses : List item_use :=
  if (b.ios fd).arg = 0 then []
  else
    match found_item msg TYPE_GROUPJOIN_GROUPNAME with
    | none => []
    | some name =>
      .member (some name) :: compared name (group_blocks b) ++
        match search_group b.g_groups name, b.client (b.ios fd).arg with
        | ok (some (_, group)), ok cli =>
          compared name (group_blocks b) ++
            match search_item_in_group group cli.name with
            | ok (some _) => [.print name]
            | _ => []
        | _, _ => []

/-- The text is printed with `%s` too. -/
def group_msg_uses : List item_use :=
  if (b.ios fd).arg = 0 then []
  else
    match found_item msg TYPE_GROUPMSG_SENDER_NAME, found_item msg TYPE_GROUPMSG_GROUP_NAME,
      found_item msg TYPE_GROUPMSG_GROUP_MSG with
    | some _, some name, some text =>
      [.member (some name), .member (some text), .print name, .print text, .first name] ++
        if readU8 name 0 = ok 0 then []
        else
          compared name (group_blocks b) ++
            if Missed name (group_blocks b) then [.print name] else []
    | _, _, _ => []

/-- The receiver's item is used as it was found. -/
def private_msg_uses : List item_use :=
  if (b.ios fd).arg = 0 then []
  else
    match found_item msg TYPE_PRIVATEMSG_SENDER_NAME,
      found_item msg TYPE_PRIVATEMSG_PRIVATE_MSG with
    | some _, some _ =>
      let receiver := found_item msg TYPE_PRIVATEMSG_RECEIVER_NAME
      .member receiver ::
        match receiver with
        | none => []
        | some name =>
          compared name (client_blocks b) ++
            if Missed name (client_blocks b) then [.print name] else []
    | _, _ => []

/-- What `handle_msg` does with the items of a message. -/
def item_uses : List item_use :=
  match msg_get_command_id msg with
  | ok id =>
    if id = CID_LOGIN_REQ_USERLOGIN then login_request_uses b msg
    else if id = CID_GROUP_CREATE_GROUP then create_group_uses b msg
    else if id = CID_GROUP_JOIN_GROUP then join_group_uses b msg fd
    else if id = CID_GROUP_MSG then group_msg_uses b msg fd
    else if id = CID_PRIVATE_MSG then private_msg_uses b msg fd
    else []
  | _ => []

end Uses

/-- The items that the handler of a command needs. -/
def items_needed (id : UInt16) : List UInt16 :=
  if id = CID_LOGIN_REQ_USERLOGIN then [TYPE_USERLOGIN_USERNAME]
  else if id = CID_GROUP_CREATE_GROUP then [TYPE_GROUPCREATE_GROUPNAME]
  else if id = CID_GROUP_JOIN_GROUP then [TYPE_GROUPJOIN_GROUPNAME]
  else if id = CID_GROUP_MSG then
    [TYPE_GROUPMSG_SENDER_NAME, TYPE_GROUPMSG_GROUP_NAME, TYPE_GROUPMSG_GROUP_MSG]
  else if id = CID_PRIVATE_MSG then
    [TYPE_PRIVATEMSG_SENDER_NAME, TYPE_PRIVATEMSG_RECEIVER_NAME, TYPE_PRIVATEMSG_PRIVATE_MSG]
  else []

/-- Every use of an item is inside it, and a message that lacks an item its
handler needs is dropped. -/
structure ItemsUsedSafely (b : daemon) (msg : List UInt8) (fd : Nat) : Prop where
  inside : ∀ u ∈ item_uses b msg fd, u.Inside
  dropped : ∀ id, msg_get_command_id msg = ok id → ∀ type ∈ items_needed id,
    msg_item msg type = ok none → ∀ addr, handle_msg b msg fd addr = ok b

/-- The value of the item has a NUL in it, when there is such an item. -/
def Terminated (msg : List UInt8) (type : UInt16) : Prop :=
  ∀ value ∈ found_item msg type, (0 : UInt8) ∈ value

/-- A login and a new group have terminated names. The name of a group to join is
terminated, or it is not the beginning of a group's name. A group message has a
terminated group name and a terminated text. A private message has a receiver,
and its name is terminated. -/
structure ItemsFit (b : daemon) (msg : List UInt8) (fd : Nat) : Prop where
  login : msg_get_command_id msg = ok CID_LOGIN_REQ_USERLOGIN →
    Terminated msg TYPE_USERLOGIN_USERNAME
  create : msg_get_command_id msg = ok CID_GROUP_CREATE_GROUP →
    Terminated msg TYPE_GROUPCREATE_GROUPNAME
  join : msg_get_command_id msg = ok CID_GROUP_JOIN_GROUP → (b.ios fd).arg ≠ 0 →
    ∀ name ∈ found_item msg TYPE_GROUPJOIN_GROUPNAME,
      (0 : UInt8) ∈ name ∨ ∀ block ∈ group_blocks b, ¬ name <+: block
  group_msg : msg_get_command_id msg = ok CID_GROUP_MSG → (b.ios fd).arg ≠ 0 →
    (∀ type ∈ items_needed CID_GROUP_MSG, (found_item msg type).isSome) →
    Terminated msg TYPE_GROUPMSG_GROUP_NAME ∧ Terminated msg TYPE_GROUPMSG_GROUP_MSG
  private_msg : msg_get_command_id msg = ok CID_PRIVATE_MSG → (b.ios fd).arg ≠ 0 →
    (found_item msg TYPE_PRIVATEMSG_SENDER_NAME).isSome →
    (found_item msg TYPE_PRIVATEMSG_PRIVATE_MSG).isSome →
    (found_item msg TYPE_PRIVATEMSG_RECEIVER_NAME).isSome ∧
      Terminated msg TYPE_PRIVATEMSG_RECEIVER_NAME

variable {b b' : daemon} {msg value name : List UInt8} {names : List (List UInt8)} {fd : Nat}
  {addr : Ptr} {type : UInt16} {u : item_use}

section Compared

theorem compared_inside_of_terminated (hnames : ∀ name ∈ names, (cstring name).isSome)
    (hvalue : (0 : UInt8) ∈ value) : ∀ u ∈ compared value names, u.Inside := by
  obtain ⟨body, hbody⟩ := Option.isSome_iff_exists.mp (cstring_isSome_iff.mpr hvalue)
  induction names with
  | nil => exact nofun
  | cons name names ih =>
    obtain ⟨hname, hrest⟩ := List.forall_mem_cons.mp hnames
    obtain ⟨own, hown⟩ := Option.isSome_iff_exists.mp hname
    refine List.forall_mem_cons.mpr ⟨⟨_, strcmp_eq_of_cstring hbody hown⟩, ?_⟩
    split
    · exact ih hrest
    · exact nofun

/-- A value without a NUL is equal to no name, so the loop goes on to the end or
leaves the value. -/
theorem compared_inside_of_unterminated (hnames : ∀ name ∈ names, (cstring name).isSome)
    (hfree : (0 : UInt8) ∉ value) (h : ∀ u ∈ compared value names, u.Inside) :
    Missed value names := by
  induction names with
  | nil => exact nofun
  | cons name names ih =>
    obtain ⟨_, hrest⟩ := List.forall_mem_cons.mp hnames
    obtain ⟨⟨same, hsame⟩, htail⟩ := List.forall_mem_cons.mp h
    cases same with
    | true =>
      obtain ⟨body, hbody, -⟩ := strcmp_eq_ok_true_iff.mp hsame
      exact absurd (cstring_isSome_iff.mp (Option.isSome_of_eq_some hbody)) hfree
    | false =>
      rw [if_pos hsame] at htail
      exact List.forall_mem_cons.mpr ⟨hsame, ih hrest htail⟩

theorem Missed.compared_inside (h : Missed value names) : ∀ u ∈ compared value names, u.Inside := by
  induction names with
  | nil => exact nofun
  | cons name names ih =>
    obtain ⟨hname, hrest⟩ := List.forall_mem_cons.mp h
    refine List.forall_mem_cons.mpr ⟨⟨false, hname⟩, ?_⟩
    rw [if_pos hname]
    exact ih hrest

theorem missed_iff_of_unterminated (hnames : ∀ name ∈ names, (cstring name).isSome)
    (hfree : (0 : UInt8) ∉ value) : Missed value names ↔ ∀ name ∈ names, ¬ value <+: name := by
  apply forall₂_congr
  intro name hname
  rw [← strcmp_eq_unterminated hfree (hnames name hname)]
  constructor
  · exact fun h => ⟨false, h⟩
  · rintro ⟨same, hsame⟩
    cases same with
    | false => exact hsame
    | true =>
      obtain ⟨body, hbody, -⟩ := strcmp_eq_ok_true_iff.mp hsame
      exact absurd (cstring_isSome_iff.mp (Option.isSome_of_eq_some hbody)) hfree

/-- A name that is looked up, and read to its end when it is not found, has one. -/
theorem looked_up_inside_iff (hnames : ∀ name ∈ names, (cstring name).isSome)
    (hu : u.Inside ↔ (0 : UInt8) ∈ value) :
    (∀ u' ∈ compared value names ++ if Missed value names then [u] else [], u'.Inside) ↔
      (0 : UInt8) ∈ value := by
  constructor
  · intro h
    obtain ⟨hcompared, hlast⟩ := List.forall_mem_append.mp h
    by_contra hfree
    have hmissed := compared_inside_of_unterminated hnames hfree hcompared
    rw [if_pos hmissed] at hlast
    exact hfree (hu.mp (hlast u List.mem_cons_self))
  · intro hvalue
    refine List.forall_mem_append.mpr ⟨compared_inside_of_terminated hnames hvalue, ?_⟩
    split
    · exact List.forall_mem_singleton.mpr (hu.mpr hvalue)
    · exact nofun

end Compared

section Handlers

theorem Stored.client_blocks (h : Stored b) : ∀ name ∈ client_blocks b, (cstring name).isSome := by
  intro name hname
  obtain ⟨cli, hcli, rfl⟩ := List.mem_map.mp hname
  exact h.client_isSome cli hcli

theorem Stored.group_blocks (h : Stored b) : ∀ name ∈ group_blocks b, (cstring name).isSome := by
  intro name hname
  obtain ⟨group, hgroup, rfl⟩ := List.mem_map.mp hname
  obtain ⟨body, hbody, -⟩ := h.groups group hgroup
  rw [hbody]
  rfl

theorem new_name_uses_inside_iff (hnames : ∀ name ∈ names, (cstring name).isSome) :
    (∀ u ∈ new_name_uses msg type names, u.Inside) ↔ Terminated msg type := by
  unfold new_name_uses Terminated
  cases found_item msg type with
  | none => exact iff_of_true nofun nofun
  | some name =>
    have hinside : (item_use.copy name).Inside ↔ (0 : UInt8) ∈ name := Iff.rfl
    simp only [List.cons_append, List.forall_mem_cons, looked_up_inside_iff hnames hinside,
      Option.mem_def, Option.some.injEq, forall_eq']
    exact and_iff_right rfl

theorem join_group_uses_inside_iff (h : Stored b) :
    (∀ u ∈ join_group_uses b msg fd, u.Inside) ↔ ((b.ios fd).arg ≠ 0 →
      ∀ name ∈ found_item msg TYPE_GROUPJOIN_GROUPNAME,
        (0 : UInt8) ∈ name ∨ ∀ block ∈ group_blocks b, ¬ name <+: block) := by
  unfold join_group_uses
  split
  · next harg => exact iff_of_true nofun fun hne => absurd harg hne
  next harg =>
  rw [imp_iff_right harg]
  cases found_item msg TYPE_GROUPJOIN_GROUPNAME with
  | none => exact iff_of_true nofun nofun
  | some name =>
    simp only [List.cons_append, List.forall_mem_cons, List.forall_mem_append, Option.mem_def,
      Option.some.injEq, forall_eq']
    constructor
    · rintro ⟨-, hcompared, -⟩
      by_contra hnot
      obtain ⟨hfree, hprefix⟩ := not_or.mp hnot
      have hmissed := compared_inside_of_unterminated h.group_blocks hfree hcompared
      exact hprefix ((missed_iff_of_unterminated h.group_blocks hfree).mp hmissed)
    · intro hname
      have hcompared : ∀ u ∈ compared name (group_blocks b), u.Inside := by
        by_cases hzero : (0 : UInt8) ∈ name
        · exact compared_inside_of_terminated h.group_blocks hzero
        · have hprefix := hname.resolve_left hzero
          exact ((missed_iff_of_unterminated h.group_blocks hzero).mpr hprefix).compared_inside
      refine ⟨rfl, hcompared, ?_⟩
      split
      · next i group cli hsearch _ =>
        -- only a terminated name is found
        obtain ⟨-, body, hbody, -⟩ := search_group_some hsearch
        refine List.forall_mem_append.mpr ⟨hcompared, ?_⟩
        split
        · exact List.forall_mem_singleton.mpr
            (cstring_isSome_iff.mp (Option.isSome_of_eq_some hbody))
        · exact nofun
      · exact nofun

theorem group_msg_uses_inside_iff (h : Stored b) :
    (∀ u ∈ group_msg_uses b msg fd, u.Inside) ↔ ((b.ios fd).arg ≠ 0 →
      (∀ type ∈ items_needed CID_GROUP_MSG, (found_item msg type).isSome) →
      Terminated msg TYPE_GROUPMSG_GROUP_NAME ∧ Terminated msg TYPE_GROUPMSG_GROUP_MSG) := by
  have hneeded : items_needed CID_GROUP_MSG =
      [TYPE_GROUPMSG_SENDER_NAME, TYPE_GROUPMSG_GROUP_NAME, TYPE_GROUPMSG_GROUP_MSG] := by decide
  rw [hneeded]
  unfold group_msg_uses Terminated
  split
  · next harg => exact iff_of_true nofun fun hne => absurd harg hne
  next harg =>
  rw [imp_iff_right harg]
  split
  · next sender name text hsender hname htext =>
    have hall : ∀ type ∈ [TYPE_GROUPMSG_SENDER_NAME, TYPE_GROUPMSG_GROUP_NAME,
        TYPE_GROUPMSG_GROUP_MSG], (found_item msg type).isSome := by
      simp [hsender, hname, htext]
    rw [imp_iff_right hall, hname, htext]
    simp only [Option.mem_def, Option.some.injEq, forall_eq']
    constructor
    · intro h
      exact ⟨h (.print name) (by simp), h (.print text) (by simp)⟩
    · rintro ⟨hzero, htext⟩
      have hne : name ≠ [] := List.ne_nil_of_mem hzero
      refine List.forall_mem_append.mpr ⟨by simp [item_use.Inside, hzero, htext, hne], ?_⟩
      split
      · exact nofun
      · exact (looked_up_inside_iff h.group_blocks Iff.rfl).mpr hzero
  · next hlacks =>
    refine iff_of_true nofun fun hall => ?_
    simp only [List.forall_mem_cons, Option.isSome_iff_exists] at hall
    obtain ⟨⟨sender, hsender⟩, ⟨name, hname⟩, ⟨text, htext⟩, -⟩ := hall
    exact absurd htext (hlacks sender name text hsender hname)

theorem private_msg_uses_inside_iff (h : Stored b) :
    (∀ u ∈ private_msg_uses b msg fd, u.Inside) ↔ ((b.ios fd).arg ≠ 0 →
      (found_item msg TYPE_PRIVATEMSG_SENDER_NAME).isSome →
      (found_item msg TYPE_PRIVATEMSG_PRIVATE_MSG).isSome →
      (found_item msg TYPE_PRIVATEMSG_RECEIVER_NAME).isSome ∧
        Terminated msg TYPE_PRIVATEMSG_RECEIVER_NAME) := by
  unfold private_msg_uses Terminated
  split
  · next harg => exact iff_of_true nofun fun hne => absurd harg hne
  next harg =>
  rw [imp_iff_right harg]
  split
  · next hsender htext =>
    rw [imp_iff_right (Option.isSome_of_eq_some hsender),
      imp_iff_right (Option.isSome_of_eq_some htext)]
    cases found_item msg TYPE_PRIVATEMSG_RECEIVER_NAME with
    | none => simp [item_use.Inside]
    | some name =>
      have hinside : (item_use.print name).Inside ↔ (0 : UInt8) ∈ name := Iff.rfl
      simp only [List.forall_mem_cons, looked_up_inside_iff h.client_blocks hinside,
        Option.mem_def, Option.some.injEq, forall_eq']
      exact Iff.rfl
  · next hlacks =>
    refine iff_of_true nofun fun hsender htext => ?_
    obtain ⟨sender, hsender⟩ := Option.isSome_iff_exists.mp hsender
    obtain ⟨text, htext⟩ := Option.isSome_iff_exists.mp htext
    exact absurd htext (hlacks sender text hsender)

theorem item_uses_inside_iff (h : Stored b) :
    (∀ u ∈ item_uses b msg fd, u.Inside) ↔ ItemsFit b msg fd := by
  constructor
  · intro hinside
    refine ⟨fun hid => ?_, fun hid => ?_, fun hid => ?_, fun hid => ?_, fun hid => ?_⟩ <;>
      rw [item_uses, hid] at hinside
    · exact (new_name_uses_inside_iff h.client_blocks).mp hinside
    · exact (new_name_uses_inside_iff h.group_blocks).mp hinside
    · exact (join_group_uses_inside_iff h).mp hinside
    · exact (group_msg_uses_inside_iff h).mp hinside
    · exact (private_msg_uses_inside_iff h).mp hinside
  · intro hfit
    unfold item_uses
    split
    · next id hid =>
      split_ifs with hlogin hcreate hjoin hgroup hprivate
      · exact (new_name_uses_inside_iff h.client_blocks).mpr (hfit.login (hlogin ▸ hid))
      · exact (new_name_uses_inside_iff h.group_blocks).mpr (hfit.create (hcreate ▸ hid))
      · exact (join_group_uses_inside_iff h).mpr (hfit.join (hjoin ▸ hid))
      · exact (group_msg_uses_inside_iff h).mpr (hfit.group_msg (hgroup ▸ hid))
      · exact (private_msg_uses_inside_iff h).mpr (hfit.private_msg (hprivate ▸ hid))
      · exact nofun
    · exact nofun

end Handlers

section Returned

variable {α : Type} {block : α → List UInt8} {xs : List α}

/-- A loop that returns has compared inside the value. -/
theorem compared_inside_of_lookup
    (h : (lookup (fun x => strcmp_eq value (block x)) xs).Returns) :
    ∀ u ∈ compared value (xs.map block), u.Inside := by
  induction xs with
  | nil => exact nofun
  | cons x xs ih =>
    obtain ⟨r, h⟩ := h
    obtain ⟨same, hsame, h⟩ := bind_eq_ok_iff.mp h
    refine List.forall_mem_cons.mpr ⟨⟨same, hsame⟩, ?_⟩
    split
    · next hfalse =>
      obtain rfl := ok.inj (hsame.symm.trans hfalse)
      obtain ⟨rest, hrest, -⟩ := map_eq_ok_iff.mp h
      exact ih ⟨rest, hrest⟩
    · exact nofun

theorem user_get_by_name_compared {found : Option client_t}
    (h : user_get_by_name b.g_clients name = ok found) :
    ∀ u ∈ compared name (client_blocks b), u.Inside := by
  obtain ⟨r, hlookup, -⟩ := map_eq_ok_iff.mp h
  simp only [strcmp_eq_comm _ name] at hlookup
  exact compared_inside_of_lookup ⟨r, hlookup⟩

theorem search_group_compared {found : Option (Nat × group_t)}
    (h : search_group b.g_groups name = ok found) :
    ∀ u ∈ compared name (group_blocks b), u.Inside :=
  compared_inside_of_lookup ⟨found, h⟩

theorem Missed.user_get_by_name (h : Missed name (client_blocks b)) :
    user_get_by_name b.g_clients name = ok none := by
  have hlookup : lookup (fun cli : client_t => strcmp_eq cli.name name) b.g_clients = ok none := by
    apply lookup_eq_none_iff.mpr
    intro cli hcli
    rw [strcmp_eq_comm]
    exact h cli.name (List.mem_map_of_mem hcli)
  rw [mbusd.user_get_by_name, hlookup]
  rfl

theorem Missed.search_group (h : Missed name (group_blocks b)) :
    search_group b.g_groups name = ok none :=
  lookup_eq_none_iff.mpr fun group hgroup => h group.group_name (List.mem_map_of_mem hgroup)

theorem found_item_of_ok {found : Option (List UInt8)} (h : msg_item msg type = ok found) :
    found_item msg type = found := by
  rw [found_item, h, getD_ok]

/-- The memory of the values bounds what a handler that returns has done with
them, up to what it prints. -/
def InsideOrPrinted (u : item_use) : Prop := u.Inside ∨ ∃ value, u = .print value

theorem handle_login_request_inside (h : handle_login_request b msg fd addr = ok b') :
    ∀ u ∈ login_request_uses b msg, u.Inside := by
  obtain ⟨item, hitem, h⟩ := bind_eq_ok_iff.mp h
  unfold login_request_uses new_name_uses
  rw [found_item_of_ok hitem]
  cases item with
  | none => exact nofun
  | some name =>
    obtain ⟨found, hfound, h⟩ := bind_eq_ok_iff.mp h
    refine List.forall_mem_append.mpr
      ⟨List.forall_mem_cons.mpr ⟨rfl, user_get_by_name_compared hfound⟩, ?_⟩
    split
    · next hmissed =>
      obtain rfl := ok.inj (hfound.symm.trans hmissed.user_get_by_name)
      obtain ⟨g_clients, hmake, -⟩ := bind_eq_ok_iff.mp h
      obtain ⟨body, stored, hbody, -, -⟩ := user_create_stores hmake
      exact List.forall_mem_singleton.mpr
        (cstring_isSome_iff.mp (Option.isSome_of_eq_some hbody))
    · exact nofun

theorem handle_create_group_inside (h : handle_create_group b msg = ok b') :
    ∀ u ∈ create_group_uses b msg, u.Inside := by
  obtain ⟨item, hitem, h⟩ := bind_eq_ok_iff.mp h
  unfold create_group_uses new_name_uses
  rw [found_item_of_ok hitem]
  cases item with
  | none => exact nofun
  | some name =>
    obtain ⟨found, hfound, h⟩ := bind_eq_ok_iff.mp h
    refine List.forall_mem_append.mpr
      ⟨List.forall_mem_cons.mpr ⟨rfl, search_group_compared hfound⟩, ?_⟩
    split
    · next hmissed =>
      obtain rfl := ok.inj (hfound.symm.trans hmissed.search_group)
      obtain ⟨g_groups, hmake, -⟩ := bind_eq_ok_iff.mp h
      obtain ⟨body, stored, hbody, -, -⟩ := group_create_stores hmake
      exact List.forall_mem_singleton.mpr
        (cstring_isSome_iff.mp (Option.isSome_of_eq_some hbody))
    · exact nofun

theorem handle_join_group_inside (h : handle_join_group b msg fd = ok b') :
    ∀ u ∈ join_group_uses b msg fd, InsideOrPrinted u := by
  unfold handle_join_group at h
  unfold join_group_uses
  split at h
  · next harg =>
    rw [if_pos harg]
    exact nofun
  next harg =>
  rw [if_neg harg]
  obtain ⟨item, hitem, h⟩ := bind_eq_ok_iff.mp h
  rw [found_item_of_ok hitem]
  cases item with
  | none => exact nofun
  | some name =>
    obtain ⟨found, hfound, -⟩ := bind_eq_ok_iff.mp h
    have hcompared : ∀ u ∈ compared name (group_blocks b), InsideOrPrinted u :=
      fun u hu => .inl (search_group_compared hfound u hu)
    refine List.forall_mem_append.mpr ⟨List.forall_mem_cons.mpr ⟨.inl rfl, hcompared⟩, ?_⟩
    split
    · refine List.forall_mem_append.mpr ⟨hcompared, ?_⟩
      split
      · exact List.forall_mem_singleton.mpr (.inr ⟨name, rfl⟩)
      · exact nofun
    · exact nofun

theorem handle_group_msg_inside (h : handle_group_msg b msg fd = ok b') :
    ∀ u ∈ group_msg_uses b msg fd, InsideOrPrinted u := by
  unfold handle_group_msg at h
  unfold group_msg_uses
  split at h
  · next harg =>
    rw [if_pos harg]
    exact nofun
  next harg =>
  rw [if_neg harg]
  obtain ⟨sender, hsender, h⟩ := bind_eq_ok_iff.mp h
  obtain ⟨group_name, hgroup_name, h⟩ := bind_eq_ok_iff.mp h
  obtain ⟨group_msg, hgroup_msg, h⟩ := bind_eq_ok_iff.mp h
  rw [found_item_of_ok hsender, found_item_of_ok hgroup_name, found_item_of_ok hgroup_msg]
  cases sender with
  | none => exact nofun
  | some sender =>
    cases group_name with
    | none => exact nofun
    | some name =>
      cases group_msg with
      | none => exact nofun
      | some text =>
        obtain ⟨first, hfirst, h⟩ := bind_eq_ok_iff.mp h
        have hne : name ≠ [] := by
          rintro rfl
          cases hfirst
        refine List.forall_mem_append.mpr ⟨?_, ?_⟩
        · simp [InsideOrPrinted, item_use.Inside, hne]
        · split
          · exact nofun
          · next hzero =>
            rw [if_neg fun (hnul : first = 0) => hzero (hnul ▸ hfirst)] at h
            obtain ⟨found, hfound, -⟩ := bind_eq_ok_iff.mp h
            refine List.forall_mem_append.mpr
              ⟨fun u hu => .inl (search_group_compared hfound u hu), ?_⟩
            split
            · exact List.forall_mem_singleton.mpr (.inr ⟨name, rfl⟩)
            · exact nofun

theorem handle_private_msg_inside (h : handle_private_msg b msg fd = ok b') :
    ∀ u ∈ private_msg_uses b msg fd, InsideOrPrinted u := by
  unfold handle_private_msg at h
  unfold private_msg_uses
  split at h
  · next harg =>
    rw [if_pos harg]
    exact nofun
  next harg =>
  rw [if_neg harg]
  obtain ⟨sender, hsender, h⟩ := bind_eq_ok_iff.mp h
  obtain ⟨receiver, hreceiver, h⟩ := bind_eq_ok_iff.mp h
  obtain ⟨private_msg, hprivate_msg, h⟩ := bind_eq_ok_iff.mp h
  rw [found_item_of_ok hsender, found_item_of_ok hreceiver, found_item_of_ok hprivate_msg]
  split
  · cases receiver with
    | none => cases h
    | some name =>
      obtain ⟨found, hfound, -⟩ := bind_eq_ok_iff.mp h
      refine List.forall_mem_cons.mpr ⟨.inl rfl, List.forall_mem_append.mpr
        ⟨fun u hu => .inl (user_get_by_name_compared hfound u hu), ?_⟩⟩
      split
      · exact List.forall_mem_singleton.mpr (.inr ⟨name, rfl⟩)
      · exact nofun
  · exact nofun

/-- A handler that returns has left no item but by printing it. -/
theorem handle_msg_inside (h : handle_msg b msg fd addr = ok b') :
    ∀ u ∈ item_uses b msg fd, InsideOrPrinted u := by
  obtain ⟨id, hid, h⟩ := bind_eq_ok_iff.mp h
  rw [item_uses, hid]
  dsimp only
  split_ifs with hlogin hcreate hjoin hgroup hprivate
  · subst hlogin
    exact fun u hu => .inl (handle_login_request_inside h u hu)
  · subst hcreate
    exact fun u hu => .inl (handle_create_group_inside h u hu)
  · subst hjoin
    exact handle_join_group_inside h
  · subst hgroup
    exact handle_group_msg_inside h
  · subst hprivate
    exact handle_private_msg_inside h
  · exact nofun

end Returned

section Dropped

/-- One item stands for the parse of the body. -/
theorem msg_item_eq_found {found : Option (List UInt8)} (h : msg_item msg type = ok found)
    (other : UInt16) : msg_item msg other = ok (found_item msg other) := by
  obtain ⟨root, hroot, -⟩ := map_eq_ok_iff.mp h
  obtain ⟨found, hfound⟩ := (msg_root_returns ⟨root, hroot⟩).2 other
  rw [found_item, hfound, getD_ok]

theorem handle_group_msg_lacking (h : msg_item msg type = ok none)
    (hneeded : type ∈ [TYPE_GROUPMSG_SENDER_NAME, TYPE_GROUPMSG_GROUP_NAME,
      TYPE_GROUPMSG_GROUP_MSG]) : handle_group_msg b msg fd = ok b := by
  have hfound : found_item msg type = none := by rw [found_item, h, getD_ok]
  unfold handle_group_msg
  split
  · rfl
  simp only [msg_item_eq_found h, ok_bind]
  split
  · next hsender hname htext =>
    simp only [List.mem_cons, List.not_mem_nil, or_false] at hneeded
    obtain rfl | rfl | rfl := hneeded
    · exact absurd (hfound.symm.trans hsender) nofun
    · exact absurd (hfound.symm.trans hname) nofun
    · exact absurd (hfound.symm.trans htext) nofun
  · rfl

theorem handle_private_msg_lacking (h : msg_item msg type = ok none)
    (hneeded : type ∈ [TYPE_PRIVATEMSG_SENDER_NAME, TYPE_PRIVATEMSG_RECEIVER_NAME,
      TYPE_PRIVATEMSG_PRIVATE_MSG])
    (hreceiver : (b.ios fd).arg ≠ 0 → (found_item msg TYPE_PRIVATEMSG_SENDER_NAME).isSome →
      (found_item msg TYPE_PRIVATEMSG_PRIVATE_MSG).isSome →
      (found_item msg TYPE_PRIVATEMSG_RECEIVER_NAME).isSome) :
    handle_private_msg b msg fd = ok b := by
  have hfound : found_item msg type = none := by rw [found_item, h, getD_ok]
  unfold handle_private_msg
  split
  · rfl
  next harg =>
  simp only [msg_item_eq_found h, ok_bind]
  split
  · next hsender htext =>
    simp only [List.mem_cons, List.not_mem_nil, or_false] at hneeded
    obtain rfl | rfl | rfl := hneeded
    · exact absurd (hfound.symm.trans hsender) nofun
    · have hsome := hreceiver harg (Option.isSome_of_eq_some hsender) (Option.isSome_of_eq_some htext)
      rw [hfound] at hsome
      cases hsome
    · exact absurd (hfound.symm.trans htext) nofun
  · rfl

theorem handle_msg_lacking {id : UInt16} (hid : msg_get_command_id msg = ok id)
    (hneeded : type ∈ items_needed id) (h : msg_item msg type = ok none)
    (hreceiver : id = CID_PRIVATE_MSG → (b.ios fd).arg ≠ 0 →
      (found_item msg TYPE_PRIVATEMSG_SENDER_NAME).isSome →
      (found_item msg TYPE_PRIVATEMSG_PRIVATE_MSG).isSome →
      (found_item msg TYPE_PRIVATEMSG_RECEIVER_NAME).isSome) :
    handle_msg b msg fd addr = ok b := by
  rw [handle_msg, hid, ok_bind]
  unfold items_needed at hneeded
  split_ifs at hneeded with hlogin hcreate hjoin hgroup hprivate
  · obtain rfl := List.mem_singleton.mp hneeded
    rw [hlogin]
    have hnone : handle_login_request b msg fd addr = ok b := by
      rw [handle_login_request, h]
      rfl
    exact hnone
  · obtain rfl := List.mem_singleton.mp hneeded
    rw [hcreate]
    have hnone : handle_create_group b msg = ok b := by
      rw [handle_create_group, h]
      rfl
    exact hnone
  · obtain rfl := List.mem_singleton.mp hneeded
    rw [hjoin]
    have hnone : handle_join_group b msg fd = ok b := by
      unfold handle_join_group
      split
      · rfl
      · rw [h]
        rfl
    exact hnone
  · rw [hgroup]
    exact handle_group_msg_lacking h hneeded
  · rw [hprivate]
    exact handle_private_msg_lacking h hneeded (hreceiver hprivate)
  · cases hneeded

end Dropped

section Runs

/-- A private message from a client, with the items given. -/
def private_message (items : List (UInt16 × List UInt8)) : List UInt8 :=
  bus_message CID_PRIVATE_MSG items

end Runs

end easymesh.mbusd
