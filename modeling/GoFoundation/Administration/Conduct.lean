/-
# What each task does in company

Statement by statement, every call and every start changes the shared state only as it
guarantees, while the others change it only as it relies on, and what it returns is true
from then on.  A read may be outdated by the next statement; what the proofs carry from one
statement to the next are facts that nobody can undo: a user on the table, an event in the
history, and that the task itself has not changed a row yet.
-/

import GoFoundation.Administration.System

namespace GoFoundation.Administration

open Library Postgres Grpc Users Server Rbac

/-! ## What is true of an answer -/

/-- The message shows the user. -/
structure Shows (message : UserMessage) (user : User) : Prop where
  id : message.id = user.id.text
  name : message.name = user.name
  email : message.email = user.email
  enabled : message.enabled = user.enabled

/-- What a call answered: success exactly if it has changed its row, users that are on the
table, and all the roles and permissions. -/
structure Truthful (i : Nat) (rpc : Rpc) (answer : Answer) (s : Shared) : Prop where
  changed : Changed i s ↔
    rpc.intercepted = none ∧ (∃ call, rpc.request = .change call) ∧ answer = .ok .empty
  user : rpc.intercepted = none → ∀ message, answer = .ok (.user message) →
    ∃ user ∈ s.contents.users, Shows message user
  roles : rpc.intercepted = none → ∀ roles, answer = .ok (.roles roles) →
    roles.Perm s.contents.roles
  permissions : rpc.intercepted = none → ∀ permissions, answer = .ok (.permissions permissions) →
    permissions.Perm s.contents.tables.permissions
  me : rpc.intercepted = none → ∀ response, answer = .ok (.me response) →
    ∃ user ∈ s.contents.users,
      response.id = user.id.text ∧ response.name = user.name ∧ response.email = user.email

/-- What is true once a start has ended: without an error, the configured user is there and
was given the role. -/
def Enrolled (tables : CaseTables) (i : Nat) (start : Start) (err : Option String) (s : Shared) :
    Prop :=
  err = none → ¬ start.Idle tables →
    ∃ user ∈ s.contents.users, user.email = start.address tables ∧
      ∀ role ∈ s.contents.roles, role.name = "super_admin" →
        .ensured i user.id role.id ∈ s.log

/-- The identity is the one that the verifier's belongs to. -/
def Identified (rpc : Rpc) (identity : Identity) (s : Shared) : Prop :=
  ∃ user ∈ s.contents.users, user.enabled = true ∧
    identity.userID = (identityOf rpc.claimed user).userID ∧
    UUID.parse identity.userID = some user.id

section Stable

variable {origin : Contents} {i : Nat} {rpc : Rpc} {answer : Answer} {s t : Shared}

theorem Truthful.rely (hrely : Rely origin i s t) (h : Truthful i rpc answer s) :
    Truthful i rpc answer t where
  changed := hrely.changed_iff.trans h.changed
  user hnone message hanswer := by
    obtain ⟨user, huser, hshows⟩ := h.user hnone message hanswer
    exact ⟨user, hrely.mem_users huser, hshows⟩
  roles hnone roles hanswer := by
    rw [Later.roles hrely]
    exact h.roles hnone roles hanswer
  permissions hnone permissions hanswer := by
    rw [Later.permissions hrely]
    exact h.permissions hnone permissions hanswer
  me hnone response hanswer := by
    obtain ⟨user, huser, hshows⟩ := h.me hnone response hanswer
    exact ⟨user, hrely.mem_users huser, hshows⟩

theorem Truthful.error {err : Option GoError} (h : ¬ Changed i s) :
    Truthful i rpc (.error err) s where
  changed := ⟨fun hchanged => absurd hchanged h, fun hok => by cases hok.2.2⟩
  user _ _ hanswer := by cases hanswer
  roles _ _ hanswer := by cases hanswer
  permissions _ _ hanswer := by cases hanswer
  me _ _ hanswer := by cases hanswer

theorem Identified.rely {identity : Identity} (hrely : Rely origin i s t)
    (h : Identified rpc identity s) : Identified rpc identity t := by
  obtain ⟨user, huser, hrest⟩ := h
  exact ⟨user, hrely.mem_users huser, hrest⟩

theorem Enrolled.rely {tables : CaseTables} {start : Start} {err : Option String}
    (hrely : Rely origin i s t) (h : Enrolled tables i start err s) :
    Enrolled tables i start err t := by
  intro hnone hidle
  obtain ⟨user, huser, hemail, hroles⟩ := h hnone hidle
  refine ⟨user, hrely.mem_users huser, hemail, ?_⟩
  rw [Later.roles hrely]
  exact fun role hrole hname => hrely.mem_log (hroles role hrole hname)

end Stable

/-! ## Handlers -/

theorem create_eq_ok_iff_append {users users' : List User} {user : Entity}
    (hcreate : create users user = .ok users') :
    ∃ row, toRow user = some row ∧ users' = users ++ [row] ∧
      ∀ other ∈ users, row.clashes other = false := by
  unfold create at hcreate
  split at hcreate
  · cases hcreate
  · next row hrow =>
      split at hcreate
      · cases hcreate
      · next hclash =>
          cases hcreate
          refine ⟨row, hrow, rfl, ?_⟩
          intro other hother
          by_contra hrow'
          rw [Bool.not_eq_false] at hrow'
          exact hclash (List.any_eq_true.mpr ⟨other, hother, hrow'⟩)

section Handlers

variable {P : Protobuf} {config : Config} {origin : Contents} {i : Nat} {rpc : Rpc}
  {s : Shared} {identity : Identity}

/-- `CreateUser` leaves the table alone, or adds the user that it shows. -/
theorem createUser_cases (config : Config) (hash : String → Except String String) (fails : Bool)
    (request : CreateUserRequest) (id : UUID) (now : Int) (contents : Contents) :
    (∃ err, createUser P config hash fails request id now contents = (contents, .error err)) ∨
      ∃ message row, (∀ other ∈ contents.users, row.clashes other = false) ∧ Shows message row ∧
        createUser P config hash fails request id now contents =
          ({ contents with users := contents.users ++ [row] }, .ok (.user message)) := by
  cases hcreate : UserHandler.createUser P config.tables hash (insertUser fails contents.users)
      request id now with
  | error err =>
      left
      exact ⟨err, by rw [createUser, hcreate]⟩
  | ok result =>
      right
      obtain ⟨message, users⟩ := result
      have hcreate' := hcreate
      unfold UserHandler.createUser at hcreate'
      split at hcreate'
      · next user stored hservice =>
          cases hcreate'
          obtain ⟨built, passwordHash, hnew, rfl, hstore⟩ := Service.create_eq_ok hservice
          unfold insertUser at hstore
          split at hstore
          · cases hstore
          · obtain ⟨row, hrow, rfl, hclash⟩ := create_eq_ok_iff_append hstore
            have hentity := entity_of_toRow hnew hrow
            refine ⟨_, row, hclash, ?_, by rw [createUser, hcreate]⟩
            exact
              { id := (congrArg Entity.id hentity).symm
                name := (congrArg Entity.name hentity).symm
                email := (congrArg Entity.email hentity).symm
                enabled := (congrArg Entity.enabled hentity).symm }
      · cases hcreate'

/-- `GetUser` answers with a user on the table. -/
theorem getUser_eq_ok {fails : Bool} {id : String} {contents : Contents} {reply : Reply}
    (h : getUser P config fails id contents = .ok reply) :
    ∃ message, reply = .user message ∧ ∃ user ∈ contents.users, Shows message user := by
  unfold getUser at h
  split at h
  · cases h
  · cases hget : UserHandler.getUser P config.parses contents.users id with
    | error err =>
        rw [hget] at h
        cases h
    | ok message =>
        rw [hget] at h
        cases h
        refine ⟨message, rfl, ?_⟩
        unfold UserHandler.getUser Service.get at hget
        split at hget
        · next user huser =>
            cases hget
            split at huser
            · split at huser
              · next found hfound =>
                  cases huser
                  unfold getByID at hfound
                  split at hfound
                  · exact ⟨found, (lookup_eq_found hfound).1, rfl, rfl, rfl, rfl⟩
                  · cases hfound
              · cases huser
              · cases huser
            · cases huser
        · cases hget

/-- What the program guarantees as part of the call, while it relies on the others, and the
answer is true afterwards. -/
abbrev Serves (config : Config) (origin : Contents) (i : Nat) (rpc : Rpc)
    (program : Program Shared Answer) (s : Shared) : Prop :=
  program.Meets (Rely origin i) (Guarantee config.tables origin i (.rpc rpc)) (Truthful i rpc) s

theorem serves_done {answer : Answer} (h : Truthful i rpc answer s) :
    Serves config origin i rpc (.done answer) s := fun _ hrely => h.rely hrely

theorem serves_error {err : Option GoError} (h : ¬ Changed i s) :
    Serves config origin i rpc (.done (.error err)) s := serves_done (.error h)

/-- The task has not changed a row while the others moved. -/
theorem not_changed_of_rely {t : Shared} (hrely : Rely origin i s t) (h : ¬ Changed i s) :
    ¬ Changed i t := mt hrely.changed_iff.mp h

theorem serves_select_bind {α : Type} {read : Shared → α} {next : α → Program Shared Answer}
    (h : ∀ t, Rely origin i s t → Serves config origin i rpc (next (read t)) t) :
    Serves config origin i rpc ((Program.select read).bind next) s :=
  Program.meets_select_bind Guarantee.refl h

theorem serves_me (h : ¬ Changed i s) :
    Serves config origin i rpc (me P rpc.fails identity) s := by
  refine serves_select_bind fun t hrely => ?_
  have ht := not_changed_of_rely hrely h
  cases hfound : (if rpc.fails .first = true then Lookup.failed
    else getByID t.contents.users identity.userID) with
  | notFound => exact serves_error ht
  | failed => exact serves_error ht
  | found user =>
      have huser : user ∈ t.contents.users := by
        split at hfound
        · cases hfound
        · unfold getByID at hfound
          split at hfound
          · exact (lookup_eq_found hfound).1
          · cases hfound
      refine serves_select_bind fun u hrely' => ?_
      have hu := not_changed_of_rely hrely' ht
      cases (if rpc.fails .second = true then none else userRoles u.contents user.id.text) with
      | none => exact serves_error hu
      | some roles =>
          refine serves_select_bind fun v hrely'' => ?_
          have hv := not_changed_of_rely hrely'' hu
          cases (if rpc.fails .third = true then none
            else userPermissions v.contents.tables user.id.text) with
          | none => exact serves_error hv
          | some permissions =>
              refine serves_done
                { changed := ⟨fun hchanged => absurd hchanged hv, fun hok => by cases hok.2.2⟩
                  user := fun _ _ hanswer => by cases hanswer
                  roles := fun _ _ hanswer => by cases hanswer
                  permissions := fun _ _ hanswer => by cases hanswer
                  me := ?_ }
              intro _ response hanswer
              cases hanswer
              exact ⟨user, hrely''.mem_users (hrely'.mem_users huser), rfl, rfl, rfl⟩

/-- A handler with one statement that reads. -/
theorem serves_reading {read : Contents → Answer}
    (htrue : ∀ t, ¬ Changed i t → Truthful i rpc (read t.contents) t) (h : ¬ Changed i s) :
    Serves config origin i rpc (executing fun contents => (contents, read contents)) s := by
  refine Program.meets_atomically fun t hrely => ⟨Guarantee.refl t, fun u hrely' => ?_⟩
  exact (htrue t (not_changed_of_rely hrely h)).rely hrely'

theorem serves_createUser {request : CreateUserRequest} {id : UUID} {now : Int} (h : ¬ Changed i s) :
    Serves config origin i rpc
      (executing (createUser P config rpc.hash (rpc.fails .first) request id now)) s := by
  refine Program.meets_atomically fun t hrely => ?_
  have ht := not_changed_of_rely hrely h
  rcases createUser_cases (P := P) config rpc.hash (rpc.fails .first) request id now
      t.contents with ⟨err, heq⟩ | ⟨message, row, hclash, hshows, heq⟩
  · rw [heq]
    exact ⟨Guarantee.refl t, fun u hrely' => (Truthful.error ht).rely hrely'⟩
  · rw [heq]
    refine ⟨later_addUser hclash, fun u hrely' => Truthful.rely hrely' ?_⟩
    exact
      { changed := ⟨fun hchanged => absurd hchanged ht, fun hok => by cases hok.2.2⟩
        user := fun _ shown hanswer => by
          cases hanswer
          exact ⟨row, List.mem_append_right _ (List.mem_singleton_self row), hshows⟩
        roles := fun _ _ hanswer => by cases hanswer
        permissions := fun _ _ hanswer => by cases hanswer
        me := fun _ _ hanswer => by cases hanswer }

/-- A handler that changes assignments, on contents that it changes or leaves alone. -/
theorem change_cases (fails : Bool) (call : Rbac.Call) (contents : Contents) :
    (∃ err, RBACHandler.change P fails call contents = (contents, .error err) ∧
        Attempt.write contents ⟨call, fails⟩ = none) ∨
      ∃ contents' pair present, call.target = some (pair, present) ∧
        Contents.Changes contents contents' pair present ∧
        RBACHandler.change P fails call contents = (contents', .ok .empty) ∧
        Attempt.write contents ⟨call, fails⟩ = some (pair, present) := by
  have hrespond : ∀ reason message,
      RBACHandler.change P fails call contents =
        RBACHandler.respond P reason message ⟨call, fails⟩ contents →
      (∃ err, RBACHandler.change P fails call contents = (contents, .error err) ∧
          Attempt.write contents ⟨call, fails⟩ = none) ∨
        ∃ contents' pair present, call.target = some (pair, present) ∧
          Contents.Changes contents contents' pair present ∧
          RBACHandler.change P fails call contents = (contents', .ok .empty) ∧
          Attempt.write contents ⟨call, fails⟩ = some (pair, present) := by
    intro reason message hchange
    rw [hchange, RBACHandler.respond, Attempt.write]
    cases hexec : Attempt.exec contents ⟨call, fails⟩ with
    | none => exact Or.inl ⟨_, rfl, rfl⟩
    | some contents' =>
        have hcall : call.exec contents = some contents' := by
          unfold Attempt.exec at hexec
          split at hexec
          · cases hexec
          · exact hexec
        obtain ⟨pair, present, htarget, hchanges⟩ := Call.exec_changes hcall
        exact Or.inr ⟨contents', pair, present, htarget, hchanges, rfl, htarget⟩
  cases call with
  | assignRole userID roleID => exact hrespond _ _ rfl
  | removeRole userID roleID => exact hrespond _ _ rfl
  | assignPermissionToRole roleID permissionID => exact hrespond _ _ rfl
  | removePermissionFromRole roleID permissionID => exact hrespond _ _ rfl

/-- The policy asks for the permission that the row needs. -/
theorem lookup_changeMethod {call : Rbac.Call} {pair : Pair} {present : Bool}
    (htarget : call.target = some (pair, present)) :
    policies.lookup (changeMethod call) = some (requires pair) := by
  cases call <;>
    (simp only [Call.target, Option.bind_eq_bind, Option.bind_eq_some_iff, Option.some.injEq,
      Prod.mk.injEq] at htarget
     obtain ⟨_, -, _, -, rfl, -⟩ := htarget
     rfl)

/-- The call was let pass for its method, unless the method needs no permission. -/
def LetPass (i : Nat) (rpc : Rpc) (identity : Identity) (s : Shared) : Prop :=
  ∀ permission, policies.lookup rpc.request.method = some permission →
    ∃ contents, .allowed i identity.userID permission contents ∈ s.log

theorem serves_changing {call : Rbac.Call} (hrequest : rpc.request = .change call)
    (hnone : rpc.intercepted = none) (hidentified : Identified rpc identity s)
    (hpass : LetPass i rpc identity s) (h : ¬ Changed i s) :
    Serves config origin i rpc (changing P i identity.userID (rpc.fails .first) call) s := by
  refine Program.meets_atomically fun t hrely => ?_
  have ht := not_changed_of_rely hrely h
  rcases change_cases (P := P) (rpc.fails .first) call t.contents with
    ⟨err, heq, hwrite⟩ | ⟨contents', pair, present, htarget, hchanges, heq, hwrite⟩
  · rw [heq, hwrite]
    exact ⟨Guarantee.refl t, fun u hrely' => (Truthful.error ht).rely hrely'⟩
  · rw [heq, hwrite]
    have hpolicy := lookup_changeMethod htarget
    have hallowed : ∃ contents, .allowed i identity.userID (requires pair) contents ∈ t.log := by
      obtain ⟨contents, hmem⟩ := hpass (requires pair) (by rw [hrequest]; exact hpolicy)
      exact ⟨contents, hrely.mem_log hmem⟩
    obtain ⟨user, huser, henabled, hid, hparse⟩ := hidentified.rely hrely
    refine ⟨later_changed hchanges hpolicy hallowed ht ⟨rfl, ?_⟩, fun u hrely' => ?_⟩
    · refine ⟨⟨call, hrequest, rfl, htarget⟩, user, ?_, henabled, hid, hparse⟩
      rw [hchanges.users]
      exact huser
    · refine Truthful.rely hrely' ?_
      exact
        { changed := ⟨fun _ => ⟨hnone, ⟨call, hrequest⟩, rfl⟩,
            fun _ => ⟨_, List.mem_cons_self, rfl⟩⟩
          user := fun _ _ hanswer => by cases hanswer
          roles := fun _ _ hanswer => by cases hanswer
          permissions := fun _ _ hanswer => by cases hanswer
          me := fun _ _ hanswer => by cases hanswer }

theorem serves_handle (hnone : rpc.intercepted = none) (hidentified : Identified rpc identity s)
    (hpass : LetPass i rpc identity s) (h : ¬ Changed i s) :
    Serves config origin i rpc (handle P config i rpc identity) s := by
  unfold handle
  cases hrequest : rpc.request with
  | createUser request id now => exact serves_createUser h
  | change call => exact serves_changing hrequest hnone hidentified hpass h
  | me => exact serves_me h
  | getUser id =>
      refine serves_reading ?_ h
      intro t ht
      cases hget : getUser P config (rpc.fails .first) id t.contents with
      | error err => exact .error ht
      | ok reply =>
          obtain ⟨message, rfl, hshown⟩ := getUser_eq_ok hget
          exact
            { changed := ⟨fun hchanged => absurd hchanged ht, fun hok => by cases hok.2.2⟩
              user := fun _ shown hanswer => by
                cases hanswer
                exact hshown
              roles := fun _ _ hanswer => by cases hanswer
              permissions := fun _ _ hanswer => by cases hanswer
              me := fun _ _ hanswer => by cases hanswer }
  | listRoles =>
      refine serves_reading ?_ h
      intro t ht
      unfold RBACHandler.listRoles
      split
      · exact .error ht
      · exact
          { changed := ⟨fun hchanged => absurd hchanged ht, fun hok => by cases hok.2.2⟩
            user := fun _ _ hanswer => by cases hanswer
            roles := fun _ roles hanswer => by
              cases hanswer
              exact List.perm_insertionSort _ _
            permissions := fun _ _ hanswer => by cases hanswer
            me := fun _ _ hanswer => by cases hanswer }
  | listPermissions =>
      refine serves_reading ?_ h
      intro t ht
      unfold RBACHandler.listPermissions
      split
      · exact .error ht
      · exact
          { changed := ⟨fun hchanged => absurd hchanged ht, fun hok => by cases hok.2.2⟩
            user := fun _ _ hanswer => by cases hanswer
            roles := fun _ _ hanswer => by cases hanswer
            permissions := fun _ permissions hanswer => by
              cases hanswer
              exact List.perm_insertionSort _ _
            me := fun _ _ hanswer => by cases hanswer }

/-! ## Calls and starts -/

theorem serves_execute (hidentified : Identified rpc identity s)
    (hpass : LetPass i rpc identity s) (h : ¬ Changed i s) :
    Serves config origin i rpc (execute P config i rpc identity) s := by
  unfold execute
  cases hintercepted : rpc.intercepted with
  | none => exact serves_handle hintercepted hidentified hpass h
  | some answer =>
      have hsome : rpc.intercepted ≠ none := by
        rw [hintercepted]
        exact Option.some_ne_none answer
      exact serves_done
        { changed := ⟨fun hchanged => absurd hchanged h, fun hok => absurd hok.1 hsome⟩
          user := fun hnone => absurd hnone hsome
          roles := fun hnone => absurd hnone hsome
          permissions := fun hnone => absurd hnone hsome
          me := fun hnone => absurd hnone hsome }

theorem serves_authorized (hidentified : Identified rpc identity s) (h : ¬ Changed i s) :
    Serves config origin i rpc (authorized P config i rpc identity) s := by
  unfold authorized
  cases hpolicy : policies.lookup rpc.request.method with
  | none =>
      refine serves_execute hidentified ?_ h
      intro permission hlookup
      rw [hpolicy] at hlookup
      cases hlookup
  | some permission =>
      intro t hrely
      have ht := not_changed_of_rely hrely h
      have hidentified' := hidentified.rely hrely
      cases hallowed : (if rpc.fails .authorization = true then none
        else hasPermission t.contents.tables identity.userID permission) with
      | none =>
          simp only [hallowed]
          exact ⟨Guarantee.refl t, serves_error ht⟩
      | some allowed =>
          cases allowed with
          | false =>
              simp only [hallowed]
              exact ⟨Guarantee.refl t, serves_error ht⟩
          | true =>
              simp only [hallowed, if_true]
              have hpermission : hasPermission t.contents.tables identity.userID permission =
                  some true := by
                split at hallowed
                · cases hallowed
                · exact hallowed
              obtain ⟨user, huser, henabled, hid, hparse⟩ := hidentified'
              refine ⟨later_allowed hpermission
                ⟨rfl, hpolicy, user, huser, henabled, hid, hparse⟩, ?_⟩
              refine serves_execute ⟨user, huser, henabled, hid, hparse⟩ ?_ ?_
              · intro permission' hlookup
                rw [hpolicy, Option.some.injEq] at hlookup
                subst hlookup
                exact ⟨_, List.mem_cons_self⟩
              · rintro ⟨event, hevent, hchanger⟩
                rcases List.mem_cons.mp hevent with rfl | hold
                · cases hchanger
                · exact ht ⟨event, hold, hchanger⟩

/-- A call, from the first statement on. -/
theorem serves_serve (h : Fresh i s) : Serves config origin i rpc (serve P config i rpc) s := by
  refine serves_select_bind fun t hrely => ?_
  have ht := not_changed_of_rely hrely h.not_changed
  cases hfound : (if rpc.fails .identity = true then Lookup.failed
    else lookupIdentity t.contents.users rpc.claimed) with
  | notFound => exact serves_error ht
  | failed => exact serves_error ht
  | found user =>
      have hlookup : lookupIdentity t.contents.users rpc.claimed = .found user := by
        split at hfound
        · cases hfound
        · exact hfound
      obtain ⟨huser, hparse⟩ := parse_identityOf hlookup
      simp only [resolve]
      cases henabled : user.enabled with
      | false => exact serves_error ht
      | true =>
          simp only [if_true]
          cases rpc.invalid with
          | some err => exact serves_error ht
          | none => exact serves_authorized ⟨user, huser, henabled, rfl, hparse⟩ ht

end Handlers

section Starts

variable {origin : Contents} {tables : CaseTables} {i : Nat} {start : Start} {s : Shared}

/-- Somebody has the configured email. -/
def Known (tables : CaseTables) (start : Start) (s : Shared) : Prop :=
  ∃ user ∈ s.contents.users, user.email = start.address tables

theorem Known.rely {t : Shared} (hrely : Rely origin i s t) (h : Known tables start s) :
    Known tables start t := by
  obtain ⟨user, huser, hemail⟩ := h
  exact ⟨user, hrely.mem_users huser, hemail⟩

/-- After the first statement somebody has the email. -/
theorem meets_insertion (passwordHash : String) :
    (insertion tables start passwordHash).Meets (Rely origin i)
      (Guarantee tables origin i (.ensureAdmin start))
      (fun inserted s => inserted = true → Known tables start s) s := by
  refine Program.meets_atomically fun t _ => ?_
  cases hinsert : (if start.insertFails = true then none
    else insertAdmin t.contents.users (start.entity tables passwordHash)) with
  | none =>
      exact ⟨Guarantee.refl t, fun u _ htrue => by cases htrue⟩
  | some users =>
      have hadmin : insertAdmin t.contents.users (start.entity tables passwordHash) =
          some users := by
        split at hinsert
        · cases hinsert
        · exact hinsert
      obtain ⟨row, hrow, hcases⟩ := insertAdmin_cases hadmin
      have hemail := email_of_toRow_entity hrow
      rcases hcases with ⟨rfl, other, hother, hother'⟩ | ⟨rfl, hclash⟩
      · refine ⟨Guarantee.refl t, fun u hrely' _ => Known.rely hrely' ?_⟩
        exact ⟨other, hother, hother'.trans hemail⟩
      · refine ⟨later_addUser hclash, fun u hrely' _ => Known.rely hrely' ?_⟩
        exact ⟨row, List.mem_append_right _ (List.mem_singleton_self row), hemail⟩

/-- After the second statement whoever has the email was given the role. -/
theorem meets_promotion (h : Known tables start s) :
    (promotion i tables start).Meets (Rely origin i)
      (Guarantee tables origin i (.ensureAdmin start))
      (fun granted s => granted = true → Enrolled tables i start none s) s := by
  refine Program.meets_atomically fun t hrely => ?_
  obtain ⟨user, huser, hemail⟩ := h.rely hrely
  cases hgrant : (if start.grantFails = true then none
    else grantSuperAdmin t.contents (start.address tables)) with
  | none =>
      exact ⟨Guarantee.refl t, fun u _ htrue => by cases htrue⟩
  | some contents =>
      have hpromotes : Promotes t.contents contents
          (superAdmins t.contents (start.address tables)) := by
        split at hgrant
        · cases hgrant
        · exact grantSuperAdmin_promotes hgrant
      constructor
      · refine later_ensured hpromotes ?_
        intro pair hpair
        obtain ⟨other, hother, hemail', role, -, -, rfl⟩ := mem_superAdmins.mp hpair
        refine ⟨rfl, other, ?_, rfl, hemail'⟩
        rw [hpromotes.users]
        exact hother
      · intro u hrely' _
        refine Enrolled.rely hrely' fun _ _ => ⟨user, ?_, hemail, ?_⟩
        · rw [hpromotes.users]
          exact huser
        · intro role hrole hname
          rw [hpromotes.roles] at hrole
          refine List.mem_append_left _ (List.mem_map.mpr ⟨(user.id, role.id), ?_, rfl⟩)
          exact mem_superAdmins.mpr ⟨user, huser, hemail, role, hrole, hname, rfl⟩

theorem meets_failed (text : String) :
    (Program.done (some text)).Meets (Rely origin i)
      (Guarantee tables origin i (.ensureAdmin start)) (Enrolled tables i start) s :=
  fun _ _ hnone => by cases hnone

/-- A start, from the first statement on. -/
theorem meets_ensureAdmin :
    (ensureAdmin i tables start).Meets (Rely origin i)
      (Guarantee tables origin i (.ensureAdmin start)) (Enrolled tables i start) s := by
  have hrefl : ∀ t, Rely origin i t t := Later.refl _ _
  unfold ensureAdmin
  split
  · next hidle => exact fun t _ _ hbusy => absurd hidle hbusy
  · split
    · exact meets_failed _
    · refine Program.meets_bind hrefl ((meets_insertion _).imp ?_)
      intro inserted t hknown
      cases inserted with
      | false => exact meets_failed _
      | true =>
          refine Program.meets_bind hrefl ((meets_promotion (hknown rfl)).imp ?_)
          intro granted u henrolled
          cases granted with
          | false => exact meets_failed _
          | true => exact fun v hrely => (henrolled rfl).rely hrely

end Starts

/-! ## The system -/

/-- What is true of what a task returned. -/
def Returned (tables : CaseTables) (i : Nat) (task : Task) (outcome : Outcome) (s : Shared) :
    Prop :=
  match task, outcome with
  | .rpc rpc, .answered answer => Truthful i rpc answer s
  | .ensureAdmin start, .started err => Enrolled tables i start err s
  | .rpc _, .started _ | .ensureAdmin _, .answered _ => False

/-- The tasks fit together. -/
theorem compatible (P : Protobuf) (config : Config) (origin : Origin) :
    Compatible (fun s => s = ⟨origin.contents, []⟩) (program P config)
      (fun (_ : Shared) (event : Empty) => nomatch event) (Rely origin.contents)
      (Guarantee config.tables origin.contents) Fresh (Returned config.tables) where
  refl _ s := Later.refl _ _ s
  trans := Later.trans
  others hne h := h.rely hne
  env {_ _ event} := nomatch event
  init_fresh _ s hinit := by
    subst hinit
    exact fun event hevent => absurd hevent List.not_mem_nil
  rely_fresh hrely h := h.rely hrely
  meets i task s hfresh := by
    cases task with
    | rpc rpc =>
        refine Program.meets_bind (fun s => Later.refl _ _ s)
          ((serves_serve (P := P) hfresh).imp ?_)
        exact fun answer s htrue t hrely => htrue.rely hrely
    | ensureAdmin start =>
        refine Program.meets_bind (fun s => Later.refl _ _ s) (meets_ensureAdmin.imp ?_)
        exact fun err s henrolled t hrely => henrolled.rely hrely

end GoFoundation.Administration
