/-
# Calls and starts at the same time

The system of any number of administrative calls and starting servers over one database,
and what each of them guarantees to the others.  `Later` is what anyone may do to the
tables, apart from who did it; `Sound` is what the tables and the history have in common
at all times.  Every task is shown to keep to `Later` statement by statement, and what it
then returns is true of the tables.
-/

import GoFoundation.Administration.Bootstrap
import GoFoundation.Users.ReadBack

namespace GoFoundation.Administration

open Library Postgres Grpc Users Server Rbac

/-! ## The system -/

/-- What runs next to each other. -/
inductive Task
  | rpc (rpc : Rpc)
  | ensureAdmin (start : Start)

/-- What a task returns. -/
inductive Outcome
  | answered (answer : Answer)
  | started (err : Option String)

/-- The program of a task. -/
def program (P : Protobuf) (config : Config) (i : Nat) : Task → Program Shared Outcome
  | .rpc rpc => (serve P config i rpc).bind fun answer => .done (.answered answer)
  | .ensureAdmin start => (ensureAdmin i config.tables start).bind fun err => .done (.started err)

/-- No two users violate a unique constraint. -/
def Unclashing (users : List User) : Prop :=
  users.Pairwise fun first second => second.clashes first = false

/-- A database before any of this happens. -/
structure Origin where
  contents : Contents
  consistent : contents.Consistent
  unclashing : Unclashing contents.users

/-- The system over a database. -/
def system (P : Protobuf) (config : Config) (origin : Origin) :
    System (Pool Shared Task Outcome) (Action Task Empty) :=
  threads (fun s => s = ⟨origin.contents, []⟩) (program P config) fun _ event => nomatch event

/-! ## What the history says -/

/-- The permission that a change of the row needs. -/
def requires : Pair → String
  | .userRole _ _ => "roles:assign"
  | .rolePermission _ _ => "roles:manage"

/-- The row is there, according to the history: it was written so last, or not written and
there before. -/
def recalled (origin : Contents) (log : List Event) (pair : Pair) : Bool :=
  ((log.filterMap Event.write).lookup pair).getD (origin.has pair)

/-- The event is one that may follow upon the older ones. -/
def Event.Follows (origin : Contents) (older : List Event) : Event → Prop
  | allowed _ actor permission contents =>
      hasPermission contents.tables actor permission = some true ∧
        contents.tables.permissions = origin.tables.permissions ∧
        ∀ pair, contents.has pair = recalled origin older pair
  | changed call actor method pair _ =>
      policies.lookup method = some (requires pair) ∧
        (∃ contents, .allowed call actor (requires pair) contents ∈ older) ∧
        ∀ event ∈ older, event.changer ≠ some call
  | ensured _ _ role => ∃ row ∈ origin.roles, row.id = role ∧ row.name = "super_admin"

/-- Each event follows upon the older ones. -/
def Justified (origin : Contents) : List Event → Prop
  | [] => True
  | event :: older => event.Follows origin older ∧ Justified origin older

/-- The tables and the history at any time. -/
structure Sound (origin : Contents) (s : Shared) : Prop where
  consistent : s.contents.Consistent
  unclashing : Unclashing s.contents.users
  users : origin.users <+: s.contents.users
  roles : s.contents.roles = origin.roles
  permissions : s.contents.tables.permissions = origin.tables.permissions
  has : ∀ pair, s.contents.has pair = recalled origin s.log pair
  justified : Justified origin s.log

/-- The state at a later time, when the events in between are of a kind. -/
structure Later (origin : Contents) (kind : Event → Prop) (s t : Shared) : Prop where
  users : s.contents.users <+: t.contents.users
  roles : t.contents.roles = s.contents.roles
  permissions : t.contents.tables.permissions = s.contents.tables.permissions
  log : ∃ newer, t.log = newer ++ s.log ∧ ∀ event ∈ newer, kind event
  sound : Sound origin s → Sound origin t

/-- The task is what brought the event about, for a user on the table. -/
def Event.CausedBy (tables : CaseTables) (users : List User) : Task → Event → Prop
  | .rpc rpc, allowed _ actor permission _ =>
      policies.lookup rpc.request.method = some permission ∧
        ∃ user ∈ users, user.enabled = true ∧ actor = (identityOf rpc.claimed user).userID ∧
          UUID.parse actor = some user.id
  | .rpc rpc, changed _ actor method pair present =>
      (∃ call, rpc.request = .change call ∧ method = changeMethod call ∧
        call.target = some (pair, present)) ∧
        ∃ user ∈ users, user.enabled = true ∧ actor = (identityOf rpc.claimed user).userID ∧
          UUID.parse actor = some user.id
  | .ensureAdmin start, ensured _ id _ =>
      ∃ user ∈ users, user.id = id ∧ user.email = start.address tables
  | .rpc _, ensured _ _ _ => False
  | .ensureAdmin _, allowed _ _ _ _ | .ensureAdmin _, changed _ _ _ _ _ => False

/-- What a task may rely on: the others have other numbers. -/
def Rely (origin : Contents) (i : Nat) : Shared → Shared → Prop :=
  Later origin fun event => event.call ≠ i

/-- What a task guarantees. -/
def Guarantee (tables : CaseTables) (origin : Contents) (i : Nat) (task : Task) (s t : Shared) :
    Prop :=
  Later origin (fun event => event.call = i ∧ event.CausedBy tables t.contents.users task) s t

/-- The history does not know the number. -/
def Fresh (i : Nat) (s : Shared) : Prop := ∀ event ∈ s.log, event.call ≠ i

/-! ## Basic facts -/

section Later

variable {origin : Contents} {kind kind' : Event → Prop} {s t u : Shared} {i : Nat}
  {tables : CaseTables} {task : Task}

theorem Later.refl (origin : Contents) (kind : Event → Prop) (s : Shared) :
    Later origin kind s s :=
  ⟨List.prefix_rfl, rfl, rfl, ⟨[], rfl, fun _ h => absurd h List.not_mem_nil⟩, id⟩

theorem Later.trans (hfirst : Later origin kind s t) (hsecond : Later origin kind t u) :
    Later origin kind s u := by
  obtain ⟨newer, hlog, hnewer⟩ := hfirst.log
  obtain ⟨newest, hlog', hnewest⟩ := hsecond.log
  refine ⟨hfirst.users.trans hsecond.users, hsecond.roles.trans hfirst.roles,
    hsecond.permissions.trans hfirst.permissions, ⟨newest ++ newer, ?_, ?_⟩,
    fun h => hsecond.sound (hfirst.sound h)⟩
  · rw [hlog', hlog, List.append_assoc]
  · intro event hevent
    exact (List.mem_append.mp hevent).elim (hnewest event) (hnewer event)

theorem Later.imp (himp : ∀ event, kind event → kind' event) (h : Later origin kind s t) :
    Later origin kind' s t := by
  obtain ⟨newer, hlog, hnewer⟩ := h.log
  exact { h with log := ⟨newer, hlog, fun event hevent => himp event (hnewer event hevent)⟩ }

theorem Later.mem_log (h : Later origin kind s t) {event : Event} (hevent : event ∈ s.log) :
    event ∈ t.log := by
  obtain ⟨newer, hlog, -⟩ := h.log
  rw [hlog]
  exact List.mem_append_right _ hevent

theorem Later.mem_users (h : Later origin kind s t) {user : User}
    (huser : user ∈ s.contents.users) : user ∈ t.contents.users := h.users.subset huser

/-- The events of a task are those it had, while the others move. -/
theorem Rely.mem_log_iff (h : Rely origin i s t) {event : Event} (hcall : event.call = i) :
    event ∈ t.log ↔ event ∈ s.log := by
  obtain ⟨newer, hlog, hnewer⟩ := Later.log h
  rw [hlog, List.mem_append]
  constructor
  · rintro (hnew | hold)
    · exact absurd hcall (hnewer event hnew)
    · exact hold
  · exact Or.inr

theorem Event.call_of_changer {event : Event} (h : event.changer = some i) : event.call = i := by
  cases event with
  | allowed | ensured => cases h
  | changed => exact Option.some.inj h

/-- A task has changed a row. -/
def Changed (i : Nat) (s : Shared) : Prop := ∃ event ∈ s.log, event.changer = some i

theorem Rely.changed_iff (h : Rely origin i s t) : Changed i t ↔ Changed i s := by
  constructor
  · rintro ⟨event, hevent, hchanger⟩
    exact ⟨event, (h.mem_log_iff (Event.call_of_changer hchanger)).mp hevent, hchanger⟩
  · rintro ⟨event, hevent, hchanger⟩
    exact ⟨event, (h.mem_log_iff (Event.call_of_changer hchanger)).mpr hevent, hchanger⟩

theorem Fresh.rely (hrely : Rely origin i s t) (h : Fresh i s) : Fresh i t := by
  intro event hevent hcall
  exact h event ((hrely.mem_log_iff hcall).mp hevent) hcall

theorem Fresh.not_changed (h : Fresh i s) : ¬ Changed i s := by
  rintro ⟨event, hevent, hchanger⟩
  exact h event hevent (Event.call_of_changer hchanger)

theorem Guarantee.refl (s : Shared) : Guarantee tables origin i task s s := Later.refl _ _ s

theorem Guarantee.rely {j : Nat} (hne : i ≠ j) (h : Guarantee tables origin i task s t) :
    Rely origin j s t :=
  Later.imp (fun _ hevent heq => hne (hevent.1.symm.trans heq)) h

/-- More users on the table do not change who brought an event about. -/
theorem Event.CausedBy.mono {event : Event} {users users' : List User}
    (hsub : ∀ user ∈ users, user ∈ users') (h : event.CausedBy tables users task) :
    event.CausedBy tables users' task := by
  cases task with
  | rpc rpc =>
      cases event with
      | allowed call actor permission contents =>
          obtain ⟨hpolicy, user, huser, hrest⟩ := h
          exact ⟨hpolicy, user, hsub user huser, hrest⟩
      | changed call actor method pair present =>
          obtain ⟨hrequest, user, huser, hrest⟩ := h
          exact ⟨hrequest, user, hsub user huser, hrest⟩
      | ensured call user role => exact h
  | ensureAdmin start =>
      cases event with
      | ensured call id role =>
          obtain ⟨user, huser, hrest⟩ := h
          exact ⟨user, hsub user huser, hrest⟩
      | allowed | changed => exact h

end Later

/-! ## Statements on the users -/

section Users

variable {origin contents : Contents} {s : Shared} {users : List User} {row : User}

theorem unclashing_append (hunclashing : Unclashing users)
    (hrow : ∀ other ∈ users, row.clashes other = false) : Unclashing (users ++ [row]) := by
  refine List.pairwise_append.mpr ⟨hunclashing, List.pairwise_singleton _ _, ?_⟩
  intro other hother last hlast
  rw [List.mem_singleton.mp hlast]
  exact hrow other hother

theorem id_ne_of_clashes {other : User} (h : row.clashes other = false) : other.id ≠ row.id := by
  intro heq
  simp [User.clashes, heq] at h

/-- No two users have one email. -/
theorem Unclashing.eq_of_email (hunclashing : Unclashing users) {first second : User}
    (hfirst : first ∈ users) (hsecond : second ∈ users) (hemail : first.email = second.email) :
    first = second := by
  have hemails : (users.map User.email).Nodup := by
    refine List.pairwise_map.mpr (hunclashing.imp ?_)
    intro a b hclash heq
    simp [User.clashes, heq] at hclash
  exact Table.eq_of_key_eq hemails hfirst hsecond hemail

theorem consistent_setUsers (hcontents : contents.Consistent)
    (hids : (users.map User.id).Nodup) (hsub : ∀ user ∈ contents.users, user ∈ users) :
    ({ contents with users := users } : Contents).Consistent := by
  refine { hcontents with users := hids, userRoles_known := ?_ }
  intro pair hpair
  have hknown := hcontents.userRoles_known pair hpair
  rw [Contents.knowsUserRole, Bool.and_eq_true, List.any_eq_true] at hknown ⊢
  obtain ⟨⟨user, huser, hid⟩, hrole⟩ := hknown
  exact ⟨⟨user, hsub user huser, hid⟩, hrole⟩

/-- A user is added. -/
theorem later_addUser {kind : Event → Prop}
    (hrow : ∀ other ∈ s.contents.users, row.clashes other = false) :
    Later origin kind s
      { s with contents := { s.contents with users := s.contents.users ++ [row] } } := by
  refine ⟨List.prefix_append _ _, rfl, rfl, ⟨[], rfl, fun _ h => absurd h List.not_mem_nil⟩, ?_⟩
  intro hsound
  refine { hsound with
    consistent := ?_
    unclashing := unclashing_append hsound.unclashing hrow
    users := hsound.users.trans (List.prefix_append _ _) }
  apply consistent_setUsers hsound.consistent
  · apply Table.nodup_map_append hsound.consistent.users
    exact fun other hother => id_ne_of_clashes (hrow other hother)
  · exact fun user huser => List.mem_append_left _ huser

end Users

/-! ## Statements on the assignments -/

section Assignments

variable {origin : Contents} {s : Shared}

theorem recalled_cons_of_write_none {log : List Event} {event : Event} (h : event.write = none)
    (pair : Pair) : recalled origin (event :: log) pair = recalled origin log pair := by
  rw [recalled, List.filterMap_cons_none h, recalled]

theorem recalled_cons {log : List Event} {event : Event} {target : Pair} {present : Bool}
    (h : event.write = some (target, present)) (pair : Pair) :
    recalled origin (event :: log) pair = if pair = target then present else recalled origin log pair := by
  rw [recalled, List.filterMap_cons_some h, List.lookup_cons]
  by_cases heq : pair = target
  · rw [if_pos heq, beq_iff_eq.mpr heq]
    rfl
  · rw [if_neg heq, beq_false_of_ne heq]
    rfl

theorem recalled_changed {log : List Event} {call : Nat} {actor method : String} {target : Pair}
    {present : Bool} (pair : Pair) :
    recalled origin (.changed call actor method target present :: log) pair =
      if pair = target then present else recalled origin log pair := recalled_cons rfl pair

theorem recalled_ensured {log : List Event} {call : Nat} {user role : UUID} (pair : Pair) :
    recalled origin (.ensured call user role :: log) pair =
      if pair = .userRole user role then true else recalled origin log pair := recalled_cons rfl pair

/-- A call is let pass. -/
theorem later_allowed {kind : Event → Prop} {i : Nat} {actor permission : String}
    (hallowed : hasPermission s.contents.tables actor permission = some true)
    (hkind : kind (.allowed i actor permission s.contents)) :
    Later origin kind s { s with log := .allowed i actor permission s.contents :: s.log } := by
  refine ⟨List.prefix_rfl, rfl, rfl, ⟨[_], rfl, ?_⟩, ?_⟩
  · intro event hevent
    rw [List.mem_singleton.mp hevent]
    exact hkind
  · intro hsound
    refine { hsound with has := ?_, justified := ⟨⟨hallowed, hsound.permissions, hsound.has⟩,
      hsound.justified⟩ }
    intro pair
    rw [recalled_cons_of_write_none rfl]
    exact hsound.has pair

/-- A handler changes a row, in a call that was let pass and changed nothing before. -/
theorem later_changed {kind : Event → Prop} {i : Nat} {actor method : String} {pair : Pair}
    {present : Bool} {contents : Contents}
    (hchanges : Contents.Changes s.contents contents pair present)
    (hpolicy : policies.lookup method = some (requires pair))
    (hallowed : ∃ contents, .allowed i actor (requires pair) contents ∈ s.log)
    (hfirst : ¬ Changed i s) (hkind : kind (.changed i actor method pair present)) :
    Later origin kind s ⟨contents, .changed i actor method pair present :: s.log⟩ := by
  refine ⟨?_, hchanges.roles, hchanges.permissions, ⟨[_], rfl, ?_⟩, ?_⟩
  · rw [hchanges.users]
  · intro event hevent
    rw [List.mem_singleton.mp hevent]
    exact hkind
  · intro hsound
    refine ⟨hchanges.consistent hsound.consistent, ?_, ?_, ?_, ?_, ?_, ?_⟩
    · rw [hchanges.users]
      exact hsound.unclashing
    · rw [hchanges.users]
      exact hsound.users
    · rw [hchanges.roles]
      exact hsound.roles
    · rw [hchanges.permissions]
      exact hsound.permissions
    · intro other
      rw [recalled_changed, hchanges.has, hsound.has]
    · refine ⟨⟨hpolicy, hallowed, ?_⟩, hsound.justified⟩
      exact fun event hevent hchanger => hfirst ⟨event, hevent, hchanger⟩

theorem recalled_ensured_append {log : List Event} {i : Nat} (pairs : List (UUID × UUID))
    (pair : Pair) :
    recalled origin ((pairs.map fun selected => .ensured i selected.1 selected.2) ++ log) pair =
      (recalled origin log pair ||
        pairs.any fun selected => pair = .userRole selected.1 selected.2) := by
  induction pairs with
  | nil => simp
  | cons selected rest ih =>
      rw [List.map_cons, List.cons_append, recalled_ensured, ih, List.any_cons]
      by_cases heq : pair = .userRole selected.1 selected.2
      · simp [heq]
      · simp [heq]

theorem justified_ensured_append {log : List Event} {i : Nat} {pairs : List (UUID × UUID)}
    (hpairs : ∀ pair ∈ pairs, ∃ role ∈ origin.roles, role.id = pair.2 ∧ role.name = "super_admin")
    (hlog : Justified origin log) :
    Justified origin ((pairs.map fun selected => .ensured i selected.1 selected.2) ++ log) := by
  induction pairs with
  | nil => exact hlog
  | cons selected rest ih =>
      exact ⟨hpairs selected List.mem_cons_self,
        ih fun pair hpair => hpairs pair (List.mem_cons_of_mem _ hpair)⟩

/-- The role is given to whoever has the email. -/
theorem later_ensured {kind : Event → Prop} {i : Nat} {email : String} {contents : Contents}
    (hpromotes : Promotes s.contents contents (superAdmins s.contents email))
    (hkind : ∀ pair ∈ superAdmins s.contents email, kind (.ensured i pair.1 pair.2)) :
    Later origin kind s
      ⟨contents, ((superAdmins s.contents email).map fun pair => .ensured i pair.1 pair.2) ++
        s.log⟩ := by
  refine ⟨?_, hpromotes.roles, hpromotes.permissions, ⟨_, rfl, ?_⟩, ?_⟩
  · rw [hpromotes.users]
  · intro event hevent
    obtain ⟨pair, hpair, rfl⟩ := List.mem_map.mp hevent
    exact hkind pair hpair
  · intro hsound
    refine ⟨hpromotes.consistent hsound.consistent, ?_, ?_, ?_, ?_, ?_, ?_⟩
    · rw [hpromotes.users]
      exact hsound.unclashing
    · rw [hpromotes.users]
      exact hsound.users
    · rw [hpromotes.roles]
      exact hsound.roles
    · rw [hpromotes.permissions]
      exact hsound.permissions
    · intro pair
      rw [recalled_ensured_append, hpromotes.has, hsound.has]
    · refine justified_ensured_append ?_ hsound.justified
      intro pair hpair
      obtain ⟨user, -, -, role, hrole, hname, rfl⟩ := mem_superAdmins.mp hpair
      rw [hsound.roles] at hrole
      exact ⟨role, hrole, rfl, hname⟩

end Assignments

end GoFoundation.Administration
