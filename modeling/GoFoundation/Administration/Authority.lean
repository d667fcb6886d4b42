/-
# Where authority comes from

What holds in every state that calls and starts can reach together, however their
statements interleave.  Each row of the two relations is as the history left it, and each
change in the history was made by a call that had been let pass, in a state in which its
actor held the permission for it.  A check may be outdated by the time of the change, so
the state of the check is an earlier one; but it is one in which the same holds, and so on
back to the rows that were there at the beginning or that a start put there.
-/

import GoFoundation.Administration.Conduct

namespace GoFoundation.Administration

open Library Postgres Grpc Users Server Rbac

/-! ## Reachable states -/

section Reachable

variable {P : Protobuf} {config : Config} {origin : Origin} {pool : Pool Shared Task Outcome}

theorem sound_of_reachable (hreach : (system P config origin).Reachable pool) :
    Sound origin.contents pool.shared := by
  refine (compatible P config origin).invariant
    (I := fun _ s => Sound origin.contents s) ?_ (fun _ h => h) ?_ ?_ hreach
  · rintro s rfl
    exact
      { consistent := origin.consistent
        unclashing := origin.unclashing
        users := List.prefix_rfl
        roles := rfl
        permissions := rfl
        has := fun _ => rfl
        justified := trivial }
  · exact fun _ hmove h => Later.sound hmove h
  · exact fun hmove h => (hmove 0).sound h

/-- Each event belongs to a task that brought it about. -/
theorem caused_of_reachable (hreach : (system P config origin).Reachable pool) :
    ∀ event ∈ pool.shared.log, ∃ task, pool.task event.call = some task ∧
      event.CausedBy config.tables pool.shared.contents.users task := by
  refine (compatible P config origin).invariant
    (I := fun tasks s => ∀ event ∈ s.log, ∃ task, tasks event.call = some task ∧
      event.CausedBy config.tables s.contents.users task) ?_ ?_ ?_ ?_ hreach
  · rintro s rfl event hevent
    cases hevent
  · intro tasks tasks' s hkeep h event hevent
    obtain ⟨task, htask, hcaused⟩ := h event hevent
    exact ⟨task, hkeep _ _ htask, hcaused⟩
  · intro tasks i task s t htask hmove h event hevent
    obtain ⟨newer, hlog, hnewer⟩ := Later.log hmove
    rw [hlog] at hevent
    rcases List.mem_append.mp hevent with hnew | hold
    · obtain ⟨hcall, hcaused⟩ := hnewer event hnew
      rw [hcall]
      exact ⟨task, htask, hcaused⟩
    · obtain ⟨task', htask', hcaused⟩ := h event hold
      exact ⟨task', htask', hcaused.mono fun user huser => Later.mem_users hmove huser⟩
  · intro tasks s t hmove h event hevent
    -- An event that no task may have added has been there before.
    have hold : event ∈ s.log := ((hmove event.call).mem_log_iff rfl).mp hevent
    obtain ⟨task, htask, hcaused⟩ := h event hold
    exact ⟨task, htask, hcaused.mono fun user huser => (hmove 0).mem_users huser⟩

theorem returned_of_reachable (hreach : (system P config origin).Reachable pool) {i : Nat}
    {task : Task} {outcome : Outcome} (hdone : pool.threads i = some (task, .done outcome)) :
    Returned config.tables i task outcome pool.shared :=
  (compatible P config origin).post_of_done hreach hdone

end Reachable

/-! ## Histories -/

section Histories

variable {origin : Contents} {log newer older : List Event} {event : Event}

theorem Justified.of_append (h : Justified origin (newer ++ older)) : Justified origin older := by
  induction newer with
  | nil => exact h
  | cons event newer ih => exact ih h.2

theorem Justified.of_suffix (h : Justified origin log) (hsuffix : older <:+ log) :
    Justified origin older := by
  obtain ⟨newer, rfl⟩ := hsuffix
  exact h.of_append

theorem Justified.follows (h : Justified origin (newer ++ event :: older)) :
    event.Follows origin older := h.of_append.1

/-- A change that follows has its reason in an earlier state: there a role of the actor
carried the permission. -/
theorem reason_of_follows {call : Nat} {actor method : String} {pair : Pair} {present : Bool}
    (hlog : Justified origin older)
    (hfollows : (Event.changed call actor method pair present).Follows origin older) :
    ∃ between before contents user permission, UUID.parse actor = some user ∧
      older = between ++ .allowed call actor (requires pair) contents :: before ∧
      contents.Grants user permission ∧ permission.name = requires pair ∧
      contents.tables.permissions = origin.tables.permissions ∧
      ∀ other, contents.has other = recalled origin before other := by
  obtain ⟨-, ⟨contents, hmem⟩, -⟩ := hfollows
  obtain ⟨between, before, rfl⟩ := List.append_of_mem hmem
  obtain ⟨hpermission, hpermissions, hrecall⟩ := hlog.follows
  obtain ⟨user, hparse, permission, hgrants, hname⟩ := hasPermission_iff.mp hpermission
  exact ⟨between, before, contents, user, permission, hparse, rfl, hgrants, hname, hpermissions,
    hrecall⟩

/-- The two rows on which such a change rested. -/
theorem rows_of_follows {call : Nat} {actor method : String} {pair : Pair} {present : Bool}
    (hlog : Justified origin older)
    (hfollows : (Event.changed call actor method pair present).Follows origin older) :
    ∃ before, before <:+ older ∧ ∃ user role, UUID.parse actor = some user ∧
      ∃ permission ∈ origin.tables.permissions, permission.name = requires pair ∧
        recalled origin before (.userRole user role) = true ∧
        recalled origin before (.rolePermission role permission.id) = true := by
  obtain ⟨between, before, contents, user, permission, hparse, rfl, ⟨hpermission, role, hrole,
    hcarried⟩, hname, hpermissions, hrecall⟩ := reason_of_follows hlog hfollows
  refine ⟨before, (List.suffix_cons _ _).trans (List.suffix_append _ _), user, role, hparse,
    permission, ?_, hname, ?_, ?_⟩
  · rw [← hpermissions]
    exact hpermission
  · rw [← hrecall]
    exact hrole
  · rw [← hrecall]
    exact hcarried

end Histories

/-! ## One run -/

/-- Ada may assign roles by the role `super_admin`, and nobody manages them. -/
def sampleOrigin : Origin where
  contents :=
    { users := [⟨.ofNat 1, "Ada", "ada@example.org", "", true, "local", "", 0, 0⟩,
        ⟨.ofNat 2, "Bob", "bob@example.org", "", true, "local", "", 0, 0⟩]
      roles := [⟨.ofNat 5, "super_admin", ""⟩, ⟨.ofNat 7, "viewer", ""⟩]
      tables :=
        { userRoles := [(.ofNat 1, .ofNat 5)]
          rolePermissions := [(.ofNat 5, .ofNat 6)]
          permissions := [⟨.ofNat 6, "roles:assign", "roles", "assign", ""⟩,
            ⟨.ofNat 8, "roles:manage", "roles", "manage", ""⟩] } }
  consistent :=
    { users := by decide
      roles := by decide
      roleNames := by decide
      permissions := by decide
      permissionNames := by decide
      userRoles := by decide
      rolePermissions := by decide
      userRoles_known := by decide
      rolePermissions_known := by decide }
  unclashing := by
    refine List.Pairwise.cons ?_ (List.pairwise_singleton _ _)
    decide

/-- A call of Ada, about a user's role `super_admin`. -/
def sampleRpc (call : String → String → Rbac.Call) (user : Nat) : Task :=
  .rpc
    { claimed := ⟨(UUID.ofNat 1).text, "", "", "local", ""⟩
      request := .change (call (UUID.ofNat user).text (UUID.ofNat 5).text)
      invalid := none
      intercepted := none
      hash := sampleHash
      fails := fun _ => false }

/-- Grace is to be the administrator. -/
def sampleStart : Start where
  email := " Grace@Example.org"
  password := "correct horse"
  name := ""
  hash := sampleHash
  id := .ofNat 3
  now := 0
  insertFails := false
  grantFails := false

/-- Ada gives her role to Bob and takes it from herself in two calls.  Both are let pass
before either changes anything; then a server starts. -/
def sampleActions : List (Action Task Empty) :=
  [.start 0 (sampleRpc .assignRole 2), .start 1 (sampleRpc .removeRole 1), .exec 0, .exec 0,
    .exec 1, .exec 1, .exec 1, .exec 0, .start 2 (.ensureAdmin sampleStart), .exec 2, .exec 2]

/-- The code outside the repository in the run. -/
def Config.sample : Config := ⟨.sample, fun _ => true⟩

/-- The start has ended without an error. -/
def endedStart : Option (Task × Program Shared Outcome) → Bool
  | some (.ensureAdmin start, .done (.started none)) =>
      start.address Config.sample.tables = "grace@example.org" && start.password ≠ ""
  | _ => false

/-- A call that the handler of assignments served has ended without an error. -/
def endedCall : Option (Task × Program Shared Outcome) → Bool
  | some (.rpc ⟨_, .change _, _, none, _, _⟩, .done (.answered (.ok .empty))) => true
  | _ => false

/-- What is read off the state that the run leaves. -/
def sampleTest (pool : Pool Shared Task Outcome) : Bool :=
  pool.shared.contents.has (.userRole (.ofNat 2) (.ofNat 5)) &&
    !pool.shared.contents.has (.userRole (.ofNat 1) (.ofNat 5)) &&
    pool.shared.contents.has (.userRole (.ofNat 3) (.ofNat 5)) && endedStart (pool.threads 2) &&
    endedCall (pool.threads 1)

theorem sampleActions_reach :
    ∃ pool, (system .sample .sample sampleOrigin).Reachable pool ∧ sampleTest pool = true := by
  have hinit : (system .sample .sample sampleOrigin).init
      ⟨⟨sampleOrigin.contents, []⟩, fun _ => none⟩ := ⟨rfl, fun _ => rfl⟩
  exact System.Reachable.of_run_any sampleActions hinit (by decide +kernel)

/-! ## Every change was authorised -/

/-- Why a call changed a row: it asked for this change, on behalf of a user who is enabled,
and was let pass before in a state that gave this user the permission. -/
structure Authorised (origin : Contents) (pool : Pool Shared Task Outcome) (older : List Event)
    (call : Nat) (actor : String) (pair : Pair) (present : Bool) : Prop where
  request : ∃ rpc target, pool.task call = some (.rpc rpc) ∧ rpc.request = .change target ∧
    target.target = some (pair, present) ∧
    ∃ user ∈ pool.shared.contents.users, user.enabled = true ∧
      actor = (identityOf rpc.claimed user).userID ∧ UUID.parse actor = some user.id
  checked : ∃ between before contents user permission, UUID.parse actor = some user ∧
    older = between ++ .allowed call actor (requires pair) contents :: before ∧
    contents.Grants user permission ∧ permission.name = requires pair ∧
    ∀ other, contents.has other = recalled origin before other
  /-- A call changes one row once. -/
  once : ∀ event ∈ older, event.changer ≠ some call

/-- In every reachable state a row is there exactly if it was written so last, and every
write was authorised, or is that of a start for the user it is configured with. -/
theorem changes_are_authorised (P : Protobuf) (config : Config) (origin : Origin)
    (pool : Pool Shared Task Outcome) (hreach : (system P config origin).Reachable pool) :
    (∀ pair, pool.shared.contents.has pair = recalled origin.contents pool.shared.log pair) ∧
      (∀ newer older call actor method pair present,
        pool.shared.log = newer ++ .changed call actor method pair present :: older →
          Authorised origin.contents pool older call actor pair present) ∧
      ∀ call id role, .ensured call id role ∈ pool.shared.log →
        ∃ start, pool.task call = some (.ensureAdmin start) ∧
          (∃ user ∈ pool.shared.contents.users, user.id = id ∧
            user.email = start.address config.tables) ∧
          ∃ row ∈ origin.contents.roles, row.id = role ∧ row.name = "super_admin" := by
  have hsound := sound_of_reachable hreach
  have hcaused := caused_of_reachable hreach
  refine ⟨hsound.has, ?_, ?_⟩
  · intro newer older call actor method pair present hlog
    have hjustified := hsound.justified
    rw [hlog] at hjustified
    have hfollows := hjustified.follows
    obtain ⟨between, before, contents, user, permission, hparse, holder, hgrants, hname, -,
      hrecall⟩ := reason_of_follows hjustified.of_append.2 hfollows
    refine ⟨?_, ⟨between, before, contents, user, permission, hparse, holder, hgrants, hname,
      hrecall⟩, hfollows.2.2⟩
    have hmem : .changed call actor method pair present ∈ pool.shared.log := by
      rw [hlog]
      exact List.mem_append_right _ List.mem_cons_self
    obtain ⟨task, htask, hcause⟩ := hcaused _ hmem
    cases task with
    | ensureAdmin start => exact hcause.elim
    | rpc rpc =>
        obtain ⟨⟨target, hrequest, -, htarget⟩, huser⟩ := hcause
        exact ⟨rpc, target, htask, hrequest, htarget, huser⟩
  · intro call id role hmem
    obtain ⟨task, htask, hcause⟩ := hcaused _ hmem
    obtain ⟨newer, older, hlog⟩ := List.append_of_mem hmem
    have hjustified := hsound.justified
    rw [hlog] at hjustified
    cases task with
    | rpc rpc => exact hcause.elim
    | ensureAdmin start => exact ⟨start, htask, hcause, hjustified.follows⟩

/-- Ada's second call ends before the first one changes anything, and both count. -/
theorem changes_are_authorised_sampleActions :
    ∃ pool, (system .sample .sample sampleOrigin).Reachable pool ∧
      recalled sampleOrigin.contents pool.shared.log (.userRole (.ofNat 2) (.ofNat 5)) = true ∧
      recalled sampleOrigin.contents pool.shared.log (.userRole (.ofNat 1) (.ofNat 5)) = false := by
  obtain ⟨pool, hreach, htest⟩ := sampleActions_reach
  simp only [sampleTest, Bool.and_eq_true, Bool.not_eq_true'] at htest
  have hhas := (changes_are_authorised .sample .sample sampleOrigin pool hreach).1
  exact ⟨pool, hreach, (hhas _).symm.trans htest.1.1.1.1,
    (hhas _).symm.trans htest.1.1.1.2⟩

/-! ## Chains of authority -/

/-- How a row came about: it was there at the beginning, a start put it there, or somebody
did whose own role, and the permission that this role carried, came about in turn. -/
inductive Traced (origin : Contents) (log : List Event) : Pair → Prop
  | original {pair : Pair} (hhas : origin.has pair = true) : Traced origin log pair
  | started {call : Nat} {user role : UUID} (hmem : .ensured call user role ∈ log) :
      Traced origin log (.userRole user role)
  | assigned {call : Nat} {actor method : String} {pair : Pair} {user role : UUID}
      {permission : Permission} (hmem : .changed call actor method pair true ∈ log)
      (hparse : UUID.parse actor = some user)
      (hpermission : permission ∈ origin.tables.permissions)
      (hname : permission.name = requires pair)
      (hrole : Traced origin log (.userRole user role))
      (hcarried : Traced origin log (.rolePermission role permission.id)) :
      Traced origin log pair

section Chains

variable {origin : Contents} {log older : List Event} {pair : Pair}

theorem Traced.mono (hsub : older <:+ log) (h : Traced origin older pair) :
    Traced origin log pair := by
  induction h with
  | original hhas => exact .original hhas
  | started hmem => exact .started (hsub.subset hmem)
  | assigned hmem hparse hpermission hname _ _ ihrole ihcarried =>
      exact .assigned (hsub.subset hmem) hparse hpermission hname ihrole ihcarried

end Chains

/-- Rows that protect each other: to be allowed to change one of them, somebody would need a
role, or this role a permission, by a row that is among them and is not there. -/
def Barrier (origin : Contents) (rows : Pair → Prop) : Prop :=
  ∀ pair, rows pair → ∀ user role, ∀ permission ∈ origin.tables.permissions,
    permission.name = requires pair →
      (rows (.userRole user role) ∧ origin.has (.userRole user role) = false) ∨
        (rows (.rolePermission role permission.id) ∧
          origin.has (.rolePermission role permission.id) = false)

/-- No earlier history has anything about such rows. -/
theorem recalled_of_barrier {origin : Contents} {log : List Event} {rows : Pair → Prop}
    (hbarrier : Barrier origin rows)
    (hstarts : ∀ call user role, .ensured call user role ∈ log → ¬ rows (.userRole user role))
    (hlog : Justified origin log) :
    ∀ older, older <:+ log → ∀ pair, rows pair → recalled origin older pair = origin.has pair := by
  induction log with
  | nil =>
      intro older hsuffix pair _
      rw [List.suffix_nil.mp hsuffix]
      rfl
  | cons event log ih =>
      have ih' := ih (fun call user role hmem =>
        hstarts call user role (List.mem_cons_of_mem _ hmem)) hlog.2
      intro older hsuffix pair hpair
      rcases List.suffix_cons_iff.mp hsuffix with rfl | hsuffix
      · have hbefore := ih' log List.suffix_rfl pair hpair
        cases event with
        | allowed call actor permission contents =>
            rw [recalled_cons_of_write_none rfl]
            exact hbefore
        | ensured call user role =>
            rw [recalled_ensured, if_neg]
            · exact hbefore
            · rintro rfl
              exact hstarts call user role List.mem_cons_self hpair
        | changed call actor method target present =>
            rw [recalled_changed, if_neg]
            · exact hbefore
            · -- Whoever made this change had it from a row that was not there.
              rintro rfl
              obtain ⟨before, hsub, user, role, -, permission, hpermission, hname, hrole,
                hcarried⟩ := rows_of_follows hlog.2 hlog.1
              rcases hbarrier pair hpair user role permission hpermission hname with
                ⟨hrow, hnone⟩ | ⟨hrow, hnone⟩
              · rw [ih' before hsub _ hrow, hnone] at hrole
                cases hrole
              · rw [ih' before hsub _ hrow, hnone] at hcarried
                cases hcarried
      · exact ih' older hsuffix pair hpair

/-- Rows that protect each other stay as they are, whatever the others do, unless a start
touches them. -/
theorem barrier_holds (P : Protobuf) (config : Config) (origin : Origin)
    (pool : Pool Shared Task Outcome) (hreach : (system P config origin).Reachable pool)
    (rows : Pair → Prop) (hbarrier : Barrier origin.contents rows)
    (hstarts : ∀ call user role, .ensured call user role ∈ pool.shared.log →
      ¬ rows (.userRole user role)) :
    ∀ pair, rows pair → pool.shared.contents.has pair = origin.contents.has pair := by
  intro pair hpair
  have hsound := sound_of_reachable hreach
  rw [hsound.has]
  exact recalled_of_barrier hbarrier hstarts hsound.justified _ List.suffix_rfl pair hpair

/-- Where no role carries `roles:manage`, no role ever carries another permission than at
the beginning, whoever is given which role. -/
theorem barrier_rolePermissions {origin : Contents}
    (hnone : ∀ role, ∀ permission ∈ origin.tables.permissions, permission.name = "roles:manage" →
      origin.has (.rolePermission role permission.id) = false) :
    Barrier origin fun pair => ∃ role permission, pair = .rolePermission role permission := by
  rintro pair ⟨role, id, rfl⟩ user role' permission hpermission hname
  exact Or.inr ⟨⟨role', permission.id, rfl⟩, hnone role' permission hpermission hname⟩

/-- Where nobody holds `roles:assign` or `roles:manage`, nothing changes. -/
theorem barrier_all {origin : Contents}
    (hnobody : ∀ user permission, origin.Grants user permission →
      permission.name ≠ "roles:assign" ∧ permission.name ≠ "roles:manage") :
    Barrier origin fun _ => True := by
  intro pair _ user role permission hpermission hname
  by_cases hrole : origin.has (.userRole user role) = true
  · right
    refine ⟨trivial, ?_⟩
    by_contra hcarried
    rw [Bool.not_eq_false] at hcarried
    obtain ⟨hassign, hmanage⟩ := hnobody user permission ⟨hpermission, role, hrole, hcarried⟩
    cases pair with
    | userRole => exact hassign hname
    | rolePermission => exact hmanage hname
  · left
    exact ⟨trivial, Bool.eq_false_iff.mpr hrole⟩

/-- Ada may assign any role, but she cannot give hers another permission. -/
theorem barrier_holds_sampleActions :
    ∃ pool, (system .sample .sample sampleOrigin).Reachable pool ∧
      pool.shared.contents.has (.rolePermission (.ofNat 5) (.ofNat 8)) = false := by
  obtain ⟨pool, hreach, -⟩ := sampleActions_reach
  have hbarrier : Barrier sampleOrigin.contents fun pair =>
      ∃ role permission, pair = .rolePermission role permission := by
    apply barrier_rolePermissions
    intro role permission hpermission hname
    have hid : permission.id = .ofNat 8 := by
      revert hname
      revert permission
      decide
    rw [hid, ← Bool.not_eq_true, Contents.has_rolePermission]
    intro hmem
    have hother := (Prod.mk.inj (List.mem_singleton.mp hmem)).2
    revert hother
    decide
  refine ⟨pool, hreach, ?_⟩
  rw [barrier_holds .sample .sample sampleOrigin pool hreach _ hbarrier
    (by rintro _ _ _ _ ⟨_, _, heq⟩; cases heq) _ ⟨_, _, rfl⟩]
  decide

/-! ## Starts -/

/-- The role was removed again by a call, after a start gave it. -/
def RemovedAfter (log : List Event) (call : Nat) (user role : UUID) : Prop :=
  ∃ newer older remover actor method, log = newer ++ .ensured call user role :: older ∧
    .changed remover actor method (.userRole user role) false ∈ newer

/-- What a history with such an event says of the row. -/
theorem recalled_after_ensured {origin : Contents} {newer older : List Event} {call : Nat}
    {user role : UUID} (hrecall : recalled origin (newer ++ .ensured call user role :: older)
      (.userRole user role) = false) :
    ∃ remover actor method, .changed remover actor method (.userRole user role) false ∈ newer := by
  induction newer with
  | nil =>
      rw [List.nil_append, recalled_ensured,
        if_pos rfl] at hrecall
      cases hrecall
  | cons event newer ih =>
      have hbefore : recalled origin (newer ++ .ensured call user role :: older)
          (.userRole user role) = false →
          ∃ remover actor method,
            .changed remover actor method (.userRole user role) false ∈ event :: newer := by
        intro h
        obtain ⟨remover, actor, method, hmem⟩ := ih h
        exact ⟨remover, actor, method, List.mem_cons_of_mem _ hmem⟩
      rw [List.cons_append] at hrecall
      cases event with
      | allowed call' actor permission contents =>
          rw [recalled_cons_of_write_none rfl] at hrecall
          exact hbefore hrecall
      | ensured call' user' role' =>
          rw [recalled_ensured] at hrecall
          split at hrecall
          · cases hrecall
          · exact hbefore hrecall
      | changed call' actor method target present =>
          rw [recalled_changed] at hrecall
          split at hrecall
          · next heq =>
              subst heq hrecall
              exact ⟨call', actor, method, List.mem_cons_self⟩
          · exact hbefore hrecall

/-- A start that ends without an error leaves exactly one user with the configured email,
from then on; whatever else runs, this user has the role `super_admin` unless a call has
removed it since, and the users of the beginning are what they were. -/
theorem bootstrap_enrols (P : Protobuf) (config : Config) (origin : Origin)
    (pool : Pool Shared Task Outcome) (hreach : (system P config origin).Reachable pool)
    (i : Nat) (start : Start) (hconfigured : ¬ start.Idle config.tables)
    (hdone : pool.threads i = some (.ensureAdmin start, .done (.started none))) :
    ∃ user ∈ pool.shared.contents.users, user.email = start.address config.tables ∧
      (∀ other ∈ pool.shared.contents.users, other.email = start.address config.tables →
        other = user) ∧
      (∀ role ∈ origin.contents.roles, role.name = "super_admin" →
        pool.shared.contents.has (.userRole user.id role.id) = true ∨
          RemovedAfter pool.shared.log i user.id role.id) ∧
      ∀ old ∈ origin.contents.users, old ∈ pool.shared.contents.users ∧
        (old.email = start.address config.tables → user = old) := by
  have hsound := sound_of_reachable hreach
  obtain ⟨user, huser, hemail, hroles⟩ := returned_of_reachable hreach hdone rfl hconfigured
  have hunique : ∀ other ∈ pool.shared.contents.users,
      other.email = start.address config.tables → other = user :=
    fun other hother hother' =>
      hsound.unclashing.eq_of_email hother huser (hother'.trans hemail.symm)
  refine ⟨user, huser, hemail, hunique, ?_, ?_⟩
  · intro role hrole hname
    rw [← hsound.roles] at hrole
    obtain ⟨newer, older, hlog⟩ := List.append_of_mem (hroles role hrole hname)
    cases hhas : pool.shared.contents.has (.userRole user.id role.id) with
    | true => exact Or.inl rfl
    | false =>
        right
        rw [hsound.has, hlog] at hhas
        obtain ⟨remover, actor, method, hmem⟩ := recalled_after_ensured hhas
        exact ⟨newer, older, remover, actor, method, hlog, hmem⟩
  · intro old hold
    have hkept := hsound.users.subset hold
    exact ⟨hkept, fun hold' => (hunique old hkept hold').symm⟩

/-- Grace is the administrator. -/
theorem bootstrap_enrols_sampleActions :
    ∃ pool, (system .sample .sample sampleOrigin).Reachable pool ∧
      ∃ user ∈ pool.shared.contents.users, user.email = "grace@example.org" := by
  obtain ⟨pool, hreach, htest⟩ := sampleActions_reach
  simp only [sampleTest, Bool.and_eq_true] at htest
  have hended := htest.1.2
  unfold endedStart at hended
  split at hended
  · next start hthread =>
      simp only [Bool.and_eq_true, decide_eq_true_eq] at hended
      have hbusy : ¬ start.Idle Config.sample.tables := by
        rintro (hempty | hempty)
        · rw [hended.1] at hempty
          revert hempty
          decide
        · exact hended.2 hempty
      obtain ⟨user, huser, hemail, -⟩ := bootstrap_enrols .sample .sample sampleOrigin pool hreach 2
        start hbusy hthread
      exact ⟨pool, hreach, user, huser, hemail.trans hended.1⟩
  · cases hended

/-! ## Answers -/

end GoFoundation.Administration
