import Easymesh.Mbus.State

open Lib Lib.Result

namespace easymesh.mbusd

section Lookup

variable {α : Type} {same : α → Result Bool} {xs : List α}

theorem lookup_eq_none_iff : lookup same xs = ok none ↔ ∀ x ∈ xs, same x = ok false := by
  induction xs with
  | nil => simp [lookup]
  | cons x xs ih =>
    rw [lookup, List.forall_mem_cons, ← ih]
    cases hx : same x with
    | ok found => cases found <;> simp [map_eq_ok_iff]
    | fail => simp
    | div => simp

theorem lookup_eq_some_iff {i : Nat} {y : α} :
    lookup same xs = ok (some (i, y)) ↔
      ∃ before rest, xs = before ++ y :: rest ∧ before.length = i ∧ same y = ok true ∧
        ∀ x ∈ before, same x = ok false := by
  induction xs generalizing i with
  | nil => simp [lookup]
  | cons x xs ih =>
    rw [lookup]
    constructor
    · intro h
      obtain ⟨found, hx, h⟩ := bind_eq_ok_iff.mp h
      cases found with
      | true =>
        cases h
        exact ⟨[], xs, rfl, rfl, hx, nofun⟩
      | false =>
        obtain ⟨r, hrest, hr⟩ := map_eq_ok_iff.mp h
        obtain ⟨⟨j, z⟩, rfl, hpair⟩ := Option.map_eq_some_iff.mp hr
        cases hpair
        obtain ⟨before, rest, rfl, rfl, hy, hbefore⟩ := ih.mp hrest
        exact ⟨x :: before, rest, rfl, rfl, hy, List.forall_mem_cons.mpr ⟨hx, hbefore⟩⟩
    · rintro ⟨before, rest, hxs, rfl, hy, hbefore⟩
      cases before with
      | nil =>
        cases hxs
        rw [hy]
        rfl
      | cons x' before =>
        obtain ⟨rfl, rfl⟩ := List.cons.inj hxs
        obtain ⟨hx, hbefore⟩ := List.forall_mem_cons.mp hbefore
        rw [hx, ok_bind, if_neg Bool.false_ne_true, ih.mpr ⟨before, rest, rfl, rfl, hy, hbefore⟩]
        rfl

theorem lookup_returns (h : ∀ x ∈ xs, (same x).Returns) : (lookup same xs).Returns := by
  induction xs with
  | nil => exact returns_ok none
  | cons x xs ih =>
    obtain ⟨⟨found, hx⟩, hrest⟩ := List.forall_mem_cons.mp h
    obtain ⟨r, hr⟩ := ih hrest
    rw [lookup, hx, ok_bind]
    cases found with
    | true => exact returns_ok _
    | false =>
      rw [if_neg Bool.false_ne_true, hr]
      exact returns_ok _

end Lookup

variable {g_clients : List client_t} {g_groups g_groups' : List group_t} {cli : client_t}
  {group group' : group_t} {name username groupname body : List UInt8} {i : Nat}

section Users

theorem user_get_by_name_some (h : user_get_by_name g_clients name = ok (some cli)) :
    cli ∈ g_clients ∧ ∃ body, cstring cli.name = some body ∧ cstring name = some body := by
  obtain ⟨r, hlookup, hr⟩ := map_eq_ok_iff.mp h
  obtain ⟨⟨i, found⟩, rfl, rfl⟩ := Option.map_eq_some_iff.mp hr
  obtain ⟨before, rest, rfl, -, hsame, -⟩ := lookup_eq_some_iff.mp hlookup
  exact ⟨by simp, strcmp_eq_ok_true_iff.mp hsame⟩

theorem user_get_by_name_none (h : user_get_by_name g_clients name = ok none)
    (hname : cstring name = some body) : ∀ cli ∈ g_clients, cstring cli.name ≠ some body := by
  obtain ⟨r, hlookup, hr⟩ := map_eq_ok_iff.mp h
  obtain rfl : r = none := Option.map_eq_none_iff.mp hr
  intro cli hcli
  exact cstring_ne_of_strcmp (lookup_eq_none_iff.mp hlookup cli hcli) hname

/-- A client is not missed under its own name. -/
theorem user_get_by_name_own (hcli : cli ∈ g_clients) :
    user_get_by_name g_clients cli.name ≠ ok none := by
  intro h
  obtain ⟨r, hlookup, hr⟩ := map_eq_ok_iff.mp h
  obtain rfl : r = none := Option.map_eq_none_iff.mp hr
  exact strcmp_eq_self cli.name (lookup_eq_none_iff.mp hlookup cli hcli)

theorem user_get_by_name_returns (hstored : ∀ cli ∈ g_clients, (cstring cli.name).isSome)
    (hname : (cstring name).isSome) : (user_get_by_name g_clients name).Returns := by
  obtain ⟨body, hbody⟩ := Option.isSome_iff_exists.mp hname
  have hall : ∀ cli ∈ g_clients, (strcmp_eq cli.name name).Returns := by
    intro cli hcli
    obtain ⟨own, hown⟩ := Option.isSome_iff_exists.mp (hstored cli hcli)
    exact ⟨_, strcmp_eq_of_cstring hown hbody⟩
  obtain ⟨r, hr⟩ := lookup_returns hall
  exact ⟨_, by rw [user_get_by_name, hr]; rfl⟩

/-- A name is stored in a zeroed `char name[128]`, cut to what fits. -/
theorem snprintf_name {stored : List UInt8}
    (h : snprintf_s (List.replicate 128 0) name = ok stored) :
    ∃ body, cstring name = some body ∧ cstring stored = some (body.take 127) := by
  obtain ⟨body, hbody, -⟩ := snprintf_s_spec (by simp) h
  refine ⟨body, hbody, ?_⟩
  rw [snprintf_s_cstring (by simp) h, hbody, List.length_replicate]
  rfl

theorem user_create_stores {addr : Ptr} {g_clients' : List client_t}
    (h : user_create g_clients addr name = ok g_clients') :
    ∃ body stored, cstring name = some body ∧ cstring stored = some (body.take 127) ∧
      g_clients' = g_clients ++ [{ addr, io := none, name := stored }] := by
  obtain ⟨stored, hwrite, h⟩ := bind_eq_ok_iff.mp h
  cases h
  obtain ⟨body, hbody, hstored⟩ := snprintf_name hwrite
  exact ⟨body, stored, hbody, hstored, rfl⟩

end Users

section Groups

theorem search_group_some (h : search_group g_groups groupname = ok (some (i, group))) :
    g_groups[i]? = some group ∧
      ∃ body, cstring groupname = some body ∧ cstring group.group_name = some body := by
  obtain ⟨before, rest, rfl, rfl, hsame, -⟩ := lookup_eq_some_iff.mp h
  exact ⟨by simp, strcmp_eq_ok_true_iff.mp hsame⟩

theorem search_group_none (h : search_group g_groups groupname = ok none)
    (hname : cstring groupname = some body) :
    ∀ group ∈ g_groups, cstring group.group_name ≠ some body := by
  intro group hgroup heq
  have hsame := lookup_eq_none_iff.mp h group hgroup
  rw [strcmp_eq_ok_true_iff.mpr ⟨body, hname, heq⟩] at hsame
  cases hsame

theorem group_create_stores (h : group_create g_groups name = ok g_groups') :
    ∃ body stored, cstring name = some body ∧ cstring stored = some (body.take 127) ∧
      g_groups' = g_groups ++ [{ group_name := stored, users := [] }] := by
  obtain ⟨stored, hwrite, h⟩ := bind_eq_ok_iff.mp h
  cases h
  obtain ⟨body, hbody, hstored⟩ := snprintf_name hwrite
  exact ⟨body, stored, hbody, hstored, rfl⟩

theorem search_item_in_group_some (h : search_item_in_group group username = ok (some i)) :
    ∃ before user rest, group.users = before ++ user :: rest ∧ before.length = i ∧
      (∃ body, cstring user = some body ∧ cstring username = some body) ∧
      cstring username ∉ before.map cstring := by
  obtain ⟨r, hlookup, hr⟩ := map_eq_ok_iff.mp h
  obtain ⟨⟨j, user⟩, rfl, rfl⟩ := Option.map_eq_some_iff.mp hr
  obtain ⟨before, rest, husers, hlength, hsame, hbefore⟩ := lookup_eq_some_iff.mp hlookup
  obtain ⟨body, huser, hname⟩ := strcmp_eq_ok_true_iff.mp hsame
  refine ⟨before, user, rest, husers, hlength, ⟨body, huser, hname⟩, ?_⟩
  rw [hname]
  intro hmem
  obtain ⟨other, hother, heq⟩ := List.mem_map.mp hmem
  exact cstring_ne_of_strcmp (hbefore other hother) hname heq

theorem search_item_in_group_none (h : search_item_in_group group username = ok none)
    (hname : cstring username = some body) : some body ∉ group.users.map cstring := by
  obtain ⟨r, hlookup, hr⟩ := map_eq_ok_iff.mp h
  obtain rfl : r = none := Option.map_eq_none_iff.mp hr
  intro hmem
  obtain ⟨user, huser, heq⟩ := List.mem_map.mp hmem
  exact cstring_ne_of_strcmp (lookup_eq_none_iff.mp hlookup user huser) hname heq

/-- The group found has the user already or gets it as one member more, at its end. -/
theorem join_group_found (hsearch : search_group g_groups groupname = ok (some (i, group)))
    (h : join_group g_groups username groupname = ok g_groups') :
    (g_groups' = g_groups ∧ cstring username ∈ group.users.map cstring) ∨
      ∃ data body, cstring username = some body ∧ cstring data = some body ∧
        some body ∉ group.users.map cstring ∧
        g_groups' = g_groups.set i { group with users := group.users ++ [data] } := by
  unfold join_group at h
  rw [hsearch, ok_bind] at h
  obtain ⟨node, hnode, h⟩ := bind_eq_ok_iff.mp h
  cases node with
  | some k =>
    cases h
    obtain ⟨before, user, rest, husers, -, ⟨body, huser, hname⟩, -⟩ := search_item_in_group_some hnode
    refine .inl ⟨rfl, List.mem_map.mpr ⟨user, ?_, huser.trans hname.symm⟩⟩
    rw [husers]
    exact List.mem_append_right _ List.mem_cons_self
  | none =>
    obtain ⟨n, hn, h⟩ := bind_eq_ok_iff.mp h
    obtain ⟨data, hwrite, h⟩ := bind_eq_ok_iff.mp h
    cases h
    obtain ⟨body, hbody, rfl⟩ := strlen_eq_ok_iff.mp hn
    refine .inr ⟨data, body, hbody, ?_, search_item_in_group_none hnode hbody, rfl⟩
    rw [snprintf_s_cstring (by simp) hwrite, hbody]
    simp

/-- What `leave_group` may do to a group: it takes the user's first entry out. -/
structure Left (username : List UInt8) (group group' : group_t) : Prop where
  group_name : group'.group_name = group.group_name
  users : group'.users.Sublist group.users
  erased : (cstring username).isSome →
    group'.users.map cstring = (group.users.map cstring).erase (cstring username)

theorem leave_group_left (h : leave_group username group = ok group') :
    Left username group group' := by
  obtain ⟨node, hnode, h⟩ := bind_eq_ok_iff.mp h
  cases node with
  | none =>
    cases h
    refine ⟨rfl, List.Sublist.refl _, fun hsome => ?_⟩
    obtain ⟨body, hbody⟩ := Option.isSome_iff_exists.mp hsome
    rw [hbody, List.erase_of_not_mem (search_item_in_group_none hnode hbody)]
  | some i =>
    cases h
    refine ⟨rfl, List.eraseIdx_sublist _ _, fun _ => ?_⟩
    obtain ⟨before, user, rest, husers, rfl, ⟨body, huser, hname⟩, hbefore⟩ :=
      search_item_in_group_some hnode
    rw [husers, List.eraseIdx_append_of_length_le le_rfl, Nat.sub_self, List.map_append,
      List.map_append, List.erase_append_right _ hbefore, List.map_cons, huser, hname,
      List.erase_cons_head]
    rfl

theorem leave_group_by_name_cases
    (h : leave_group_by_name g_groups username groupname = ok g_groups') :
    (g_groups' = g_groups ∧ search_group g_groups groupname = ok none) ∨
      ∃ i group group', search_group g_groups groupname = ok (some (i, group)) ∧
        Left username group group' ∧ g_groups' = g_groups.set i group' := by
  obtain ⟨found, hsearch, h⟩ := bind_eq_ok_iff.mp h
  cases found with
  | none =>
    cases h
    exact .inl ⟨rfl, hsearch⟩
  | some p =>
    obtain ⟨i, group⟩ := p
    obtain ⟨group', hleave, h⟩ := bind_eq_ok_iff.mp h
    cases h
    exact .inr ⟨i, group, group', hsearch, leave_group_left hleave, rfl⟩

theorem leave_all_group_left (h : leave_all_group username g_groups = ok g_groups') :
    List.Forall₂ (Left username) g_groups g_groups' := by
  induction g_groups generalizing g_groups' with
  | nil =>
    cases h
    exact .nil
  | cons group g_groups ih =>
    obtain ⟨group', hleave, h⟩ := bind_eq_ok_iff.mp h
    obtain ⟨rest, hrest, h⟩ := bind_eq_ok_iff.mp h
    cases h
    exact .cons (leave_group_left hleave) (ih hrest)

end Groups

end easymesh.mbusd
