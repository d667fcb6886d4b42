/-
# The two user repositories

The in-memory repository of the tests beside the one on PostgreSQL.  Both implement
`user.Repository`, each in its own way: the one visits a Go map, whose order is
another one each time and which the environment chooses here, the other one leaves
comparison, order, limit and cursor to the database.

They agree where emails that differ in case only do not meet, and for a list where at
most one user is on it.
-/

import Mathlib.Data.List.Infix
import GoFoundation.Users.Authentication
import GoFoundation.Users.Entity
import GoFoundation.Users.Listing

namespace GoFoundation.Users

open Postgres Pagination Library

/-- `user.ListFilter`, with any `int` for a limit. -/
structure Filter where
  limit : Int
  search : String
  afterCreatedAt : Option Int
  afterID : String
  deriving DecidableEq, Repr

/-- What a call that reads returns: a user, `user.ErrNotFound`, another error, or the
users of a list. -/
inductive Answer
  | found (user : Entity)
  | notFound
  | failed
  | users (result : List Entity)
  deriving DecidableEq, Repr

/-! ## In memory -/

namespace Memory

/-- `memory.UserRepository.Create`, given the order in which it visits the map.  The map
has one user for each id. -/
def create (tables : CaseTables) (visit entries : List Entity) (user : Entity) :
    Except CreateError (List Entity) :=
  if visit.any fun other => tables.equalFold other.email user.email then .error .emailExists
  else .ok (entries.filter (fun other => other.id ≠ user.id) ++ [user])

/-- The first user that meets the condition. -/
def find (visit : List Entity) (cond : Entity → Bool) : Answer :=
  match visit.find? cond with
  | some user => .found user
  | none => .notFound

/-- `memory.UserRepository.GetByID`: the key of the map is the id as it was written. -/
def getByID (entries : List Entity) (id : String) : Answer := find entries fun user => user.id = id

/-- `memory.UserRepository.GetByEmail`. -/
def getByEmail (tables : CaseTables) (visit : List Entity) (email : String) : Answer :=
  find visit fun user => tables.equalFold user.email email

/-- The condition of `memory.UserRepository.List` on the search. -/
def matchesSearch (tables : CaseTables) (search : String) (user : Entity) : Bool :=
  search = "" ||
    (tables.lower search).toList <:+: (tables.lower (user.name ++ " " ++ user.email)).toList

/-- The loop of `memory.UserRepository.List`. -/
def collect (limit : Int) (cond : Entity → Bool) : List Entity → List Entity → List Entity
  | out, [] => out
  | out, user :: rest =>
      if cond user then
        if limit ≤ (out ++ [user]).length then out ++ [user]
        else collect limit cond (out ++ [user]) rest
      else collect limit cond out rest

/-- `memory.UserRepository.List`. -/
def list (tables : CaseTables) (visit : List Entity) (filter : Filter) : List Entity :=
  collect filter.limit (matchesSearch tables filter.search) [] visit

end Memory

/-! ## On PostgreSQL -/

/-- `UserRepository.List`, where the database refuses a negative limit and a zero
character; `none` is an error. -/
def listFiltered (lower : String → String) (users : List User) (filter : Filter) :
    Option (List User) :=
  if filter.limit < 0 then none
  else (checkText filter.search).bind fun search =>
    listUsers lower users ⟨filter.limit.toNat, search, filter.afterCreatedAt, filter.afterID⟩

/-! ## Calls -/

/-- The results of `Create` calls, one after the other, and the users afterwards. -/
def creates {σ : Type} (create : Nat → σ → Entity → Except CreateError σ) :
    Nat → σ → List Entity → List (Option CreateError) × σ
  | _, entries, [] => ([], entries)
  | k, entries, user :: rest =>
      match create k entries user with
      | .error err => (some err :: (creates create (k + 1) entries rest).1,
          (creates create (k + 1) entries rest).2)
      | .ok entries' => (none :: (creates create (k + 1) entries' rest).1,
          (creates create (k + 1) entries' rest).2)

/-- A call that reads.  An email is asked for as `Login` asks for it. -/
inductive Query
  | getByID (id : String)
  | getByEmail (email : String)
  | list (filter : Filter)
  deriving DecidableEq, Repr

/-- The answer from memory. -/
def Memory.answer (tables : CaseTables) (visit entries : List Entity) : Query → Answer
  | .getByID id => Memory.getByID entries id
  | .getByEmail email => Memory.getByEmail tables visit (tables.normalise email)
  | .list filter => .users (Memory.list tables visit filter)

/-- The result of a lookup, read from the row. -/
def Lookup.answer : Lookup → Answer
  | .found user => .found user.entity
  | .notFound => .notFound
  | .failed => .failed

/-- The answer from the database. -/
def answer (tables : CaseTables) (lower : String → String) (users : List User) : Query → Answer
  | .getByID id => (Users.getByID users id).answer
  | .getByEmail email => (Users.getByEmail users (tables.normalise email)).answer
  | .list filter => (listFiltered lower users filter).elim .failed fun rows =>
      .users (rows.map User.entity)

/-- The orders in which the calls may visit the map: that of the `k`-th call is any
order of the users in it. -/
def Visits (order : Nat → List Entity → List Entity) : Prop :=
  ∀ k entries, (order k entries).Perm entries

/-- The calls in memory, from the `k`-th on. -/
def Memory.creates (tables : CaseTables) (order : Nat → List Entity → List Entity) :
    Nat → List Entity → List Entity → List (Option CreateError) × List Entity :=
  Users.creates fun k entries => Memory.create tables (order k entries) entries

/-- The calls on the database. -/
def stored : Nat → List User → List Entity → List (Option CreateError) × List User :=
  creates fun _ => create

/-- The two repositories cannot be told apart by the calls and the query, whatever the
order of the map. -/
def Agree (tables : CaseTables) (lower : String → String) (calls : List Entity) (query : Query) :
    Prop :=
  ∀ order, Visits order →
    (Memory.creates tables order 0 [] calls).1 = (stored 0 [] calls).1 ∧
      Memory.answer tables (order calls.length (Memory.creates tables order 0 [] calls).2)
        (Memory.creates tables order 0 [] calls).2 query =
          answer tables lower (stored 0 [] calls).2 query

/-! ## Creating -/

/-- Emails of the calls that differ in case only do not differ. -/
def Unambiguous (tables : CaseTables) (calls : List Entity) : Prop :=
  ∀ first ∈ calls, ∀ second ∈ calls, tables.equalFold first.email second.email = true →
    first.email = second.email

/-- No two users have emails that differ in case only. -/
def Apart (tables : CaseTables) (users : List User) : Prop :=
  ∀ first ∈ users, ∀ second ∈ users, tables.equalFold first.email second.email = true →
    first = second

/-- Take the user in, unless its email is taken. -/
def enrol (users : List Entity) (user : Entity) : List Entity :=
  if ∃ other ∈ users, other.email = user.email then users else users ++ [user]

/-- The calls whose email is not that of an earlier one. -/
def firsts (calls : List Entity) : List Entity := calls.foldl enrol []

/-- Their rows. -/
def registered (calls : List Entity) : List User := (firsts calls).filterMap toRow

section Create

variable {tables : CaseTables} {entries calls rest : List Entity} {users : List User}
  {user : Entity} {row : User} {order : Nat → List Entity → List Entity}

theorem Memory.create_eq (hvisits : Visits order) (k : Nat)
    (hnew : ∀ other ∈ entries, other.id ≠ user.id) :
    Memory.create tables (order k entries) entries user =
      if ∃ other ∈ entries, tables.equalFold other.email user.email = true then
        .error .emailExists
      else .ok (entries ++ [user]) := by
  have hany : ((order k entries).any fun other => tables.equalFold other.email user.email) = true ↔
      ∃ other ∈ entries, tables.equalFold other.email user.email = true := by
    rw [List.any_eq_true]
    simp only [(hvisits k entries).mem_iff]
  have hkeep : (entries.filter fun other => other.id ≠ user.id) = entries := by
    rw [List.filter_eq_self]
    exact fun other hother => decide_eq_true (hnew other hother)
  rw [Memory.create, hkeep]
  by_cases hclash : ∃ other ∈ entries, tables.equalFold other.email user.email = true
  · rw [if_pos hclash, if_pos (hany.mpr hclash)]
  · rw [if_neg hclash, if_neg fun h => hclash (hany.mp h)]

theorem create_eq (hrow : toRow user = some row) (hsubject : row.externalSubject = "")
    (hnew : ∀ other ∈ users, other.id ≠ row.id) :
    create users user =
      if ∃ other ∈ users, other.email = row.email then .error .emailExists
      else .ok (users ++ [row]) := by
  have hany : (users.any fun other => row.clashes other) = true ↔
      ∃ other ∈ users, other.email = row.email := by
    rw [List.any_eq_true]
    apply exists_congr
    intro other
    apply and_congr_right
    intro hother
    have hid : row.id ≠ other.id := (hnew other hother).symm
    have hclash : row.clashes other = true ↔ row.email = other.email := by
      simp [User.clashes, hid, hsubject]
    exact hclash.trans eq_comm
  rw [create, hrow]
  by_cases hclash : ∃ other ∈ users, other.email = row.email
  · rw [if_pos hclash]
    exact if_pos (hany.mpr hclash)
  · rw [if_neg hclash]
    exact if_neg fun h => hclash (hany.mp h)

theorem Built.externalSubject (hbuilt : Built tables user) : user.externalSubject = "" := by
  obtain ⟨name, email, hnew⟩ := hbuilt.new
  rw [newUser_eq_ok hnew]

/-- Ids that are apart stay apart, whether the next user is stored or not. -/
theorem ids_of_cons (hids : ((entries ++ user :: rest).map Entity.id).Nodup) :
    (∀ other ∈ entries, other.id ≠ user.id) ∧ ((entries ++ rest).map Entity.id).Nodup ∧
      ((entries ++ [user] ++ rest).map Entity.id).Nodup := by
  refine ⟨?_, hids.sublist ?_, by rwa [List.append_assoc]⟩
  · intro other hother heq
    rw [List.map_append, List.nodup_append, List.map_cons] at hids
    exact hids.2.2 _ (List.mem_map_of_mem hother) _ List.mem_cons_self heq
  · exact ((List.Sublist.refl entries).append (List.sublist_cons_self user rest)).map _

/-- What the two repositories do with a new user, when they hold the same users: the
one asks for an email that folds with it, the other one for the same email. -/
theorem create_pair (hvisits : Visits order) (k : Nat) (hbuilt : Built tables user)
    (hnew : ∀ other ∈ users.map User.entity, other.id ≠ user.id) (hrow : toRow user = some row)
    (hentity : row.entity = user) :
    Memory.create tables (order k (users.map User.entity)) (users.map User.entity) user =
        (if ∃ other ∈ users, tables.equalFold other.email user.email = true then
          .error .emailExists
        else .ok ((users ++ [row]).map User.entity)) ∧
      create users user =
        if ∃ other ∈ users, other.email = user.email then .error .emailExists
        else .ok (users ++ [row]) := by
  have hsubject : row.externalSubject = "" := by
    rw [← hbuilt.externalSubject, ← hentity]
    rfl
  have hids : ∀ other ∈ users, other.id ≠ row.id := by
    intro other hother heq
    apply hnew other.entity (List.mem_map_of_mem hother)
    rw [← hentity]
    exact congrArg UUID.text heq
  apply And.intro
  · rw [Memory.create_eq hvisits k hnew, List.map_append, List.map_singleton, hentity]
    simp only [List.mem_map, exists_exists_and_eq_and]
    rfl
  · rw [create_eq hrow hsubject hids]
    have hemail : row.email = user.email := by
      rw [← hentity]
      rfl
    simp only [hemail]

/-- Where emails that fold together are equal, and every user fits, the calls have the
same results. -/
theorem results_eq (users : List User) (hvisits : Visits order)
    (hbuilt : ∀ user ∈ calls, Built tables user)
    (hfits : ∀ user ∈ calls, Fits user) (hunambiguous : Unambiguous tables calls) (k : Nat)
    (husers : ∀ row ∈ users, row.entity ∈ calls) (hrest : ∀ user ∈ rest, user ∈ calls)
    (hids : ((users.map User.entity ++ rest).map Entity.id).Nodup) :
    (Memory.creates tables order k (users.map User.entity) rest).1 = (stored k users rest).1 := by
  induction rest generalizing k users with
  | nil => rfl
  | cons user rest ih =>
      obtain ⟨hnew, hskip, hadd⟩ := ids_of_cons hids
      have huser := hrest user List.mem_cons_self
      have hrest' : ∀ user ∈ rest, user ∈ calls :=
        fun other hother => hrest other (List.mem_cons_of_mem _ hother)
      obtain ⟨row, hrow, hentity⟩ : ∃ row, toRow user = some row ∧ row.entity = user :=
        (toRow_of_built (hbuilt user huser)).elim And.right fun h => absurd (hfits user huser) h.1
      obtain ⟨hmemory, hstored⟩ := create_pair hvisits k (hbuilt user huser) hnew hrow hentity
      have hclash : (∃ other ∈ users, tables.equalFold other.email user.email = true) ↔
          ∃ other ∈ users, other.email = user.email := by
        apply exists_congr
        intro other
        apply and_congr_right
        intro hother
        apply Iff.intro
        · exact hunambiguous other.entity (husers other hother) user huser
        · intro heq
          rw [heq]
          exact tables.equalFold_refl _
      simp only [Memory.creates, stored, creates, hmemory, hstored]
      by_cases hexists : ∃ other ∈ users, other.email = user.email
      · simp only [if_pos (hclash.mpr hexists), if_pos hexists]
        exact congrArg _ (ih _ (k + 1) husers hrest' hskip)
      · simp only [if_neg (fun h => hexists (hclash.mp h)), if_neg hexists]
        have husers' : ∀ other ∈ users ++ [row], other.entity ∈ calls := by
          intro other hother
          rcases List.mem_append.mp hother with hold | hlast
          · exact husers other hold
          · rw [List.mem_singleton.mp hlast, hentity]
            exact huser
        rw [← hentity, ← List.map_singleton, ← List.map_append] at hadd
        exact congrArg _ (ih _ (k + 1) husers' hrest' hadd)

/-- What is known of the rows once the calls have had the same results. -/
structure Stored (tables : CaseTables) (before : List User) (rest : List Entity)
    (users : List User) : Prop where
  entities : users.map User.entity = rest.foldl enrol (before.map User.entity)
  rows : ∀ row ∈ users, toRow row.entity = some row
  ids : (users.map User.id).Nodup
  apart : Apart tables users
  keeps : ∀ row ∈ before, row ∈ users
  fits : ∀ user ∈ rest, Fits user
  covers : ∀ user ∈ rest, ∃ other ∈ users, other.email = user.email

/-- One more user in front, whom both repositories refuse. -/
theorem Stored.refused {result : List User} (h : Stored tables users rest result)
    (hfits : Fits user) (htaken : ∃ other ∈ users, other.email = user.email) :
    Stored tables users (user :: rest) result := by
  obtain ⟨other, hother, hemail⟩ := htaken
  have htaken : ∃ other ∈ users.map User.entity, other.email = user.email :=
    ⟨other.entity, List.mem_map_of_mem hother, hemail⟩
  refine ⟨?_, h.rows, h.ids, h.apart, h.keeps, ?_, ?_⟩
  · rw [List.foldl_cons, enrol, if_pos htaken]
    exact h.entities
  · exact List.forall_mem_cons.mpr ⟨hfits, h.fits⟩
  · exact List.forall_mem_cons.mpr ⟨⟨other, h.keeps other hother, hemail⟩, h.covers⟩

/-- One more user in front, whom both repositories store. -/
theorem Stored.accepted {result : List User} (h : Stored tables (users ++ [row]) rest result)
    (hfits : Fits row.entity) (hfree : ¬ ∃ other ∈ users, other.email = row.email) :
    Stored tables users (row.entity :: rest) result := by
  have hfree : ¬ ∃ other ∈ users.map User.entity, other.email = row.entity.email := by
    rintro ⟨entity, hmem, hsame⟩
    obtain ⟨other, hother, rfl⟩ := List.mem_map.mp hmem
    exact hfree ⟨other, hother, hsame⟩
  have hkept := h.keeps row (List.mem_append_right _ (List.mem_singleton_self row))
  refine ⟨?_, h.rows, h.ids, h.apart, ?_, ?_, ?_⟩
  · rw [List.foldl_cons, enrol, if_neg hfree, ← List.map_singleton, ← List.map_append]
    exact h.entities
  · exact fun other hother => h.keeps other (List.mem_append_left _ hother)
  · exact List.forall_mem_cons.mpr ⟨hfits, h.fits⟩
  · exact List.forall_mem_cons.mpr ⟨⟨row, hkept, rfl⟩, h.covers⟩

theorem Apart.append (hapart : Apart tables users)
    (hfold : ¬ ∃ other ∈ users, tables.equalFold other.email row.email = true) :
    Apart tables (users ++ [row]) := by
  intro first hfirst second hsecond hsame
  rw [List.mem_append, List.mem_singleton] at hfirst hsecond
  rcases hfirst with hfirst | rfl <;> rcases hsecond with hsecond | rfl
  · exact hapart first hfirst second hsecond hsame
  · exact absurd ⟨first, hfirst, hsame⟩ hfold
  · exact absurd ⟨second, hsecond, tables.equalFold_symm hsame⟩ hfold
  · rfl

/-- Calls with the same results leave the same users in both repositories. -/
theorem stored_of_results_eq (users : List User) (hvisits : Visits order)
    (hbuilt : ∀ user ∈ rest, Built tables user) (k : Nat)
    (hids : ((users.map User.entity ++ rest).map Entity.id).Nodup)
    (hrows : ∀ row ∈ users, toRow row.entity = some row) (hapart : Apart tables users)
    (hresults : (Memory.creates tables order k (users.map User.entity) rest).1 =
      (stored k users rest).1) :
    (Memory.creates tables order k (users.map User.entity) rest).2 =
        (stored k users rest).2.map User.entity ∧
      Stored tables users rest (stored k users rest).2 := by
  induction rest generalizing k users with
  | nil =>
      have hids' : (users.map User.id).Nodup := by
        rw [List.append_nil, List.map_map] at hids
        exact List.Nodup.of_map UUID.text (by rwa [List.map_map])
      exact ⟨rfl, rfl, hrows, hids', hapart, fun _ h => h, fun _ h => absurd h List.not_mem_nil,
        fun _ h => absurd h List.not_mem_nil⟩
  | cons user rest ih =>
      obtain ⟨hnew, hskip, hadd⟩ := ids_of_cons hids
      have hbuilt' : ∀ user ∈ rest, Built tables user :=
        fun other hother => hbuilt other (List.mem_cons_of_mem _ hother)
      have huser := hbuilt user List.mem_cons_self
      simp only [Memory.creates, stored, creates] at hresults ⊢
      obtain ⟨hfits, row, hrow, rfl⟩ | ⟨-, hrow⟩ := toRow_of_built huser
      · obtain ⟨hmemory, hstored⟩ := create_pair hvisits k huser hnew hrow rfl
        rw [hmemory, hstored] at hresults ⊢
        by_cases hfold : ∃ other ∈ users, tables.equalFold other.email row.entity.email = true <;>
          by_cases hequal : ∃ other ∈ users, other.email = row.entity.email
        · simp only [if_pos hfold, if_pos hequal, List.cons.injEq, true_and] at hresults ⊢
          obtain ⟨hsame, hstored⟩ := ih _ hbuilt' (k + 1) hskip hrows hapart hresults
          exact ⟨hsame, hstored.refused hfits hequal⟩
        · simp [if_pos hfold, if_neg hequal] at hresults
        · simp [if_neg hfold, if_pos hequal] at hresults
        · simp only [if_neg hfold, if_neg hequal, List.cons.injEq, true_and] at hresults ⊢
          have hrows' : ∀ other ∈ users ++ [row], toRow other.entity = some other := by
            intro other hother
            rcases List.mem_append.mp hother with hold | hlast
            · exact hrows other hold
            · rw [List.mem_singleton.mp hlast]
              exact hrow
          rw [← List.map_singleton, ← List.map_append] at hadd
          obtain ⟨hsame, hstored⟩ :=
            ih _ hbuilt' (k + 1) hadd hrows' (hapart.append hfold) hresults
          exact ⟨hsame, hstored.accepted hfits hequal⟩
      · -- In memory nothing fails but for the email.
        rw [Memory.create_eq hvisits k hnew, create, hrow] at hresults
        by_cases hfold :
            ∃ other ∈ users.map User.entity, tables.equalFold other.email user.email = true
        · rw [if_pos hfold] at hresults
          simp at hresults
        · rw [if_neg hfold] at hresults
          simp at hresults

/-- The calls have the same results exactly if every user fits and emails that fold
together are equal; both repositories then hold the users whose email is new. -/
theorem results_eq_iff (hvisits : Visits order) (hbuilt : ∀ user ∈ calls, Built tables user)
    (hids : (calls.map Entity.id).Nodup) :
    (Memory.creates tables order 0 [] calls).1 = (stored 0 [] calls).1 ↔
      (∀ user ∈ calls, Fits user) ∧ Unambiguous tables calls := by
  apply Iff.intro
  · intro hresults
    obtain ⟨-, hstored⟩ := stored_of_results_eq [] hvisits hbuilt 0 hids
      (fun _ h => absurd h List.not_mem_nil) (fun _ h => absurd h List.not_mem_nil) hresults
    refine ⟨hstored.fits, ?_⟩
    intro first hfirst second hsecond hsame
    obtain ⟨other, hother, hemail⟩ := hstored.covers first hfirst
    obtain ⟨other', hother', hemail'⟩ := hstored.covers second hsecond
    rw [← hemail, ← hemail'] at hsame ⊢
    rw [hstored.apart other hother other' hother' hsame]
  · intro h
    exact results_eq [] hvisits hbuilt h.1 h.2 0 (fun _ h => absurd h List.not_mem_nil)
      (fun _ h => h) hids

/-- Then both repositories hold the users whose email is new. -/
theorem registered_eq (hvisits : Visits order) (hbuilt : ∀ user ∈ calls, Built tables user)
    (hids : (calls.map Entity.id).Nodup)
    (hresults : (Memory.creates tables order 0 [] calls).1 = (stored 0 [] calls).1) :
    (stored 0 [] calls).2 = registered calls ∧
      (Memory.creates tables order 0 [] calls).2 = (registered calls).map User.entity ∧
      ((registered calls).map User.id).Nodup ∧ Apart tables (registered calls) := by
  obtain ⟨hsame, hstored⟩ := stored_of_results_eq [] hvisits hbuilt 0 hids
    (fun _ h => absurd h List.not_mem_nil) (fun _ h => absurd h List.not_mem_nil) hresults
  have heq : (stored 0 [] calls).2 = registered calls := by
    have hfirsts : firsts calls = (stored 0 [] calls).2.map User.entity := hstored.entities.symm
    rw [registered, hfirsts, List.filterMap_map]
    symm
    calc (stored 0 [] calls).2.filterMap (toRow ∘ User.entity)
        = (stored 0 [] calls).2.filterMap some := List.filterMap_congr hstored.rows
      _ = (stored 0 [] calls).2 := List.filterMap_some
  rw [← heq]
  exact ⟨rfl, hsame, hstored.ids, hstored.apart⟩

end Create

/-! ## Reading -/

/-- The database takes the filter. -/
def Accepted (filter : Filter) : Prop :=
  0 ≤ filter.limit ∧ (∀ c ∈ filter.search.toList, c.toNat ≠ 0) ∧
    (filter.afterID = "" ∨ ∃ id, UUID.parse filter.afterID = some id)

/-- The condition of the statement of `UserRepository.List`. -/
def selected (lower : String → String) (filter : Filter) (user : User) : Bool :=
  matchesSearch lower filter.search user && filter.afterCreatedAt.all fun after =>
    rowBefore User.createdAt User.id user (toTimestamptz after) (UUID.parse filter.afterID)

/-- No user is on either list, or one that is alone in memory and first in the database. -/
def SoleHit (tables : CaseTables) (lower : String → String) (users : List User)
    (filter : Filter) : Prop :=
  ((∀ user ∈ users, Memory.matchesSearch tables filter.search user.entity = false) ∧
      (filter.limit = 0 ∨ ∀ user ∈ users, selected lower filter user = false)) ∨
    ∃ user ∈ users,
      (∀ other ∈ users,
        Memory.matchesSearch tables filter.search other.entity = true ↔ other = user) ∧
      1 ≤ filter.limit ∧ selected lower filter user = true ∧
      ∀ other ∈ users, selected lower filter other = true → other ≠ user →
        filter.limit = 1 ∧
          position User.createdAt User.id other < position User.createdAt User.id user

/-- The query does not show in which repository the users are. -/
def Meets (tables : CaseTables) (lower : String → String) (users : List User) : Query → Prop
  | .getByID id =>
      ∃ uuid, UUID.parse id = some uuid ∧ (id = uuid.text ∨ ∀ user ∈ users, user.id ≠ uuid)
  | .getByEmail email =>
      (∀ c ∈ (tables.normalise email).toList, c.toNat ≠ 0) ∧
        ∀ user ∈ users, tables.equalFold user.email (tables.normalise email) = true →
          user.email = tables.normalise email
  | .list filter => Accepted filter ∧ SoleHit tables lower users filter

section Read

variable {tables : CaseTables} {lower : String → String} {users : List User}
  {visit : List Entity} {filter : Filter}

/-- The loop stops at the limit, but not before it has a user. -/
theorem Memory.collect_eq {limit : Int} {cond : Entity → Bool} (out rest : List Entity)
    (hout : (out.length : Int) < max limit 1) :
    Memory.collect limit cond out rest = (out ++ rest.filter cond).take (max limit 1).toNat := by
  induction rest generalizing out with
  | nil =>
      rw [Memory.collect, List.filter_nil, List.append_nil, List.take_of_length_le (by omega)]
  | cons user rest ih =>
      have hlength : (out ++ [user]).length = out.length + 1 := by simp
      rw [Memory.collect]
      split
      · next hcond =>
          rw [List.filter_cons_of_pos hcond, List.append_cons out user (rest.filter cond)]
          split
          · next hfull =>
              have hsize : (max limit 1).toNat = (out ++ [user]).length := by omega
              rw [hsize, List.take_left]
          · next hfull => exact ih (out ++ [user]) (by omega)
      · next hcond =>
          rw [List.filter_cons_of_neg hcond]
          exact ih out hout

theorem Memory.list_eq :
    Memory.list tables visit filter =
      (visit.filter (Memory.matchesSearch tables filter.search)).take (max filter.limit 1).toNat :=
  Memory.collect_eq [] visit (by simp)

/-- The database returns what is selected from the newest on. -/
theorem listFiltered_cases :
    (Accepted filter ∧ listFiltered lower users filter =
        some ((Keyset.remaining (position User.createdAt User.id) (selected lower filter) none
          users).take filter.limit.toNat)) ∨
      (¬ Accepted filter ∧ listFiltered lower users filter = none) := by
  by_cases hlimit : filter.limit < 0
  · exact .inr ⟨fun h => by have := h.1; omega, if_pos hlimit⟩
  · rw [listFiltered, if_neg hlimit]
    obtain ⟨hcheck, hsearch⟩ | ⟨hcheck, hsearch⟩ := checkText_cases filter.search
    · rw [hcheck, Option.bind_some, listUsers, selectPage]
      simp only [Keyset.remaining, Keyset.beyond_none, Bool.and_true, position_le_iff]
      by_cases hafter : filter.afterID = ""
      · have hparse : UUID.parse filter.afterID = none := by
          rw [hafter]
          decide
        refine .inl ⟨⟨by omega, hsearch, .inl hafter⟩, ?_⟩
        simp only [nullID, if_pos hafter, selected, hparse]
      · simp only [nullID, if_neg hafter]
        cases hparse : UUID.parse filter.afterID with
        | none =>
            refine .inr ⟨?_, rfl⟩
            rintro ⟨-, -, hempty | ⟨id, hid⟩⟩
            · exact hafter hempty
            · rw [hparse] at hid
              cases hid
        | some id =>
            refine .inl ⟨⟨by omega, hsearch, .inr ⟨id, hparse⟩⟩, ?_⟩
            simp only [Option.map_some, selected, hparse]
    · rw [hcheck]
      exact .inr ⟨fun h => hsearch h.2.1, rfl⟩

/-- Only an email that folds with the one asked for and differs from it tells the
lookups by email apart. -/
theorem find_fold_eq_iff (hapart : Apart tables users) (email : String)
    (hvisit : visit.Perm (users.map User.entity)) :
    Memory.getByEmail tables visit email =
        (lookup users fun user => user.email = email).answer ↔
      ∀ user ∈ users, tables.equalFold user.email email = true → user.email = email := by
  have hfind : visit.find? (fun user => tables.equalFold user.email email) =
      (users.find? fun user => tables.equalFold user.email email).map User.entity := by
    rw [List.find?_eq_find?_of_perm hvisit, List.find?_map]
    · rfl
    · rintro first ⟨hfirst, hfold⟩ second ⟨hsecond, hfold'⟩
      rw [hvisit.mem_iff] at hfirst hsecond
      obtain ⟨row, hrow, rfl⟩ := List.mem_map.mp hfirst
      obtain ⟨row', hrow', rfl⟩ := List.mem_map.mp hsecond
      rw [hapart row hrow row' hrow' (tables.equalFold_trans hfold (tables.equalFold_symm hfold'))]
  rw [Memory.getByEmail, Memory.find, hfind, lookup]
  apply Iff.intro
  · intro hanswer user huser hfold
    cases hmemory : users.find? fun user => tables.equalFold user.email email with
    | none => exact absurd hfold (List.find?_eq_none.mp hmemory user huser)
    | some row =>
        rw [hmemory, Option.map_some] at hanswer
        have hfound := List.find?_some hmemory
        have hrow : row = user :=
          hapart row (List.mem_of_find?_eq_some hmemory) user huser
            (tables.equalFold_trans hfound (tables.equalFold_symm hfold))
        cases hdatabase : users.find? fun user => user.email = email with
        | none =>
            rw [hdatabase] at hanswer
            cases hanswer
        | some row' =>
            rw [hdatabase] at hanswer
            have hsame : row = row' := User.entity_injective (Answer.found.inj hanswer)
            have hemail := List.find?_some hdatabase
            rw [← hrow, hsame]
            exact of_decide_eq_true hemail
  · intro hequal
    have hcongr : users.find? (fun user => tables.equalFold user.email email) =
        users.find? fun user => user.email = email := by
      apply List.find?_congr
      intro user huser
      rw [Bool.eq_iff_iff, decide_eq_true_eq]
      apply Iff.intro (hequal user huser)
      intro heq
      rw [heq]
      exact tables.equalFold_refl _
    rw [hcongr]
    cases users.find? fun user => decide (user.email = email) with
    | none => rfl
    | some row => rfl

/-- Both look the same email up, unless the database refuses it. -/
theorem getByEmail_eq_iff (hapart : Apart tables users) (email : String)
    (hvisit : visit.Perm (users.map User.entity)) :
    Memory.getByEmail tables visit email = (getByEmail users email).answer ↔
      (∀ c ∈ email.toList, c.toNat ≠ 0) ∧
        ∀ user ∈ users, tables.equalFold user.email email = true → user.email = email := by
  rw [getByEmail]
  obtain ⟨hcheck, hzero⟩ | ⟨hcheck, hzero⟩ := checkText_cases email
  · rw [hcheck, and_iff_right hzero]
    exact find_fold_eq_iff hapart email hvisit
  · rw [hcheck]
    apply iff_of_false
    · rw [Memory.getByEmail, Memory.find]
      split <;> exact Answer.noConfusion
    · exact fun h => hzero h.1

/-- The map has the id as it was written, the database any spelling of it. -/
theorem getByID_eq_iff (id : String) :
    Memory.getByID (users.map User.entity) id = (getByID users id).answer ↔
      ∃ uuid, UUID.parse id = some uuid ∧ (id = uuid.text ∨ ∀ user ∈ users, user.id ≠ uuid) := by
  have hfind : (users.map User.entity).find? (fun user => user.id = id) =
      (users.find? fun user => user.id.text = id).map User.entity := List.find?_map
  rw [Memory.getByID, Memory.find, hfind, getByID]
  cases hparse : UUID.parse id with
  | none =>
      apply iff_of_false
      · split <;> exact Answer.noConfusion
      · rintro ⟨uuid, h, -⟩
        cases h
  | some uuid =>
      simp only [Option.some.injEq, exists_eq_left', lookup]
      have htext : ∀ user : User, user.id.text = id ↔ user.id = uuid ∧ id = uuid.text := by
        intro user
        apply Iff.intro
        · rintro rfl
          rw [UUID.parse_text, Option.some.injEq] at hparse
          exact ⟨hparse, congrArg UUID.text hparse⟩
        · rintro ⟨huser, hid⟩
          rw [huser, hid]
      by_cases hid : id = uuid.text
      · have hcongr : users.find? (fun user => user.id.text = id) =
            users.find? fun user => user.id = uuid := by
          apply List.find?_congr
          intro user huser
          rw [decide_eq_decide, htext user]
          exact and_iff_left hid
        rw [hcongr]
        apply iff_of_true _ (.inl hid)
        cases users.find? fun user => decide (user.id = uuid) with
        | none => rfl
        | some row => rfl
      · have hnone : users.find? (fun user => user.id.text = id) = none := by
          rw [List.find?_eq_none]
          intro user huser hcond
          exact hid ((htext user).mp (of_decide_eq_true hcond)).2
        rw [hnone, or_iff_right hid]
        cases hdatabase : users.find? fun user => decide (user.id = uuid) with
        | none =>
            apply iff_of_true rfl
            intro user huser heq
            exact List.find?_eq_none.mp hdatabase user huser (decide_eq_true heq)
        | some row =>
            apply iff_of_false Answer.noConfusion
            intro hother
            have huuid := List.find?_some hdatabase
            exact hother row (List.mem_of_find?_eq_some hdatabase) (of_decide_eq_true huuid)

theorem soleHit_iff (hids : (users.map User.id).Nodup) (hlimit : 0 ≤ filter.limit) :
    SoleHit tables lower users filter ↔
      (users.filter (fun user => Memory.matchesSearch tables filter.search user.entity) = [] ∧
        (Keyset.remaining (position User.createdAt User.id) (selected lower filter) none users).take
          filter.limit.toNat = []) ∨
      ∃ user,
        users.filter (fun user => Memory.matchesSearch tables filter.search user.entity) = [user] ∧
        (Keyset.remaining (position User.createdAt User.id) (selected lower filter) none users).take
          filter.limit.toNat = [user] := by
  have hkeys := nodup_position User.createdAt User.id hids
  apply or_congr
  · rw [List.filter_eq_nil_iff, List.take_eq_nil_iff, Keyset.remaining]
    apply and_congr
    · simp only [Bool.not_eq_true]
    · apply or_congr
      · omega
      · rw [← List.length_eq_zero_iff, List.length_insertionSort, List.length_eq_zero_iff,
          List.filter_eq_nil_iff]
        simp only [Keyset.beyond_none, Bool.and_true, Bool.not_eq_true]
  · apply exists_congr
    intro user
    rw [Table.filter_eq_singleton_iff hids.of_map, Keyset.take_remaining_eq_singleton_iff hkeys]
    simp only [Keyset.mem_remaining, Keyset.beyond_none, and_true]
    have hone : 1 ≤ filter.limit.toNat ↔ 1 ≤ filter.limit := by omega
    have hone' : filter.limit.toNat = 1 ↔ filter.limit = 1 := by omega
    rw [hone, hone']
    apply Iff.intro
    · rintro ⟨huser, hhit, hpos, hselected, hothers⟩
      exact ⟨⟨huser, hhit⟩, hpos, ⟨huser, hselected⟩,
        fun other hother => hothers other hother.1 hother.2⟩
    · rintro ⟨⟨huser, hhit⟩, hpos, hselected, hothers⟩
      exact ⟨huser, hhit, hpos, hselected.2,
        fun other hother hcond => hothers other ⟨hother, hcond⟩⟩

/-- A list is the same in every order of the map exactly if it shows at most one user. -/
theorem list_eq_iff (hids : (users.map User.id).Nodup) (k : Nat) :
    (∀ order, Visits order →
        Memory.answer tables (order k (users.map User.entity)) (users.map User.entity)
          (.list filter) = answer tables lower users (.list filter)) ↔
      Accepted filter ∧ SoleHit tables lower users filter := by
  have hcount : 0 < (max filter.limit 1).toNat := by omega
  have hhits : (users.map User.entity).filter (Memory.matchesSearch tables filter.search) =
      (users.filter fun user => Memory.matchesSearch tables filter.search user.entity).map
        User.entity := List.filter_map
  simp only [Memory.answer, answer, Memory.list_eq]
  rcases @listFiltered_cases lower users filter with ⟨haccepted, hrows⟩ | ⟨hrefused, hrows⟩
  · simp only [hrows, Option.elim_some, Answer.users.injEq]
    rw [soleHit_iff hids haccepted.1, and_iff_right haccepted]
    apply Iff.intro
    · intro hsame
      have hforward := hsame (fun _ entries => entries) (fun _ _ => List.Perm.refl _)
      have hbackward := hsame (fun _ entries => entries.reverse)
        (fun _ entries => List.reverse_perm entries)
      rw [hhits] at hforward
      rw [List.filter_reverse, hhits] at hbackward
      have hnodup := (hids.of_map.filter fun user =>
        Memory.matchesSearch tables filter.search user.entity).map User.entity_injective
      rcases Table.eq_nil_or_singleton_of_take_reverse hnodup hcount hforward hbackward with
        ⟨hnone, hpage⟩ | ⟨user, hone, hpage⟩
      · exact .inl ⟨List.map_eq_nil_iff.mp hnone, List.map_eq_nil_iff.mp hpage⟩
      · obtain ⟨row, hrow, rfl⟩ := List.map_eq_singleton_iff.mp hone
        obtain ⟨row', hrow', hentity⟩ := List.map_eq_singleton_iff.mp hpage
        rw [User.entity_injective hentity] at hrow'
        exact .inr ⟨row, hrow, hrow'⟩
    · intro hsole order hvisits
      have hperm := (hvisits k (users.map User.entity)).filter
        (Memory.matchesSearch tables filter.search)
      rw [hhits] at hperm
      rcases hsole with ⟨hnone, hpage⟩ | ⟨row, hone, hpage⟩
      · rw [hnone] at hperm
        rw [hperm.eq_nil, hpage]
        exact List.take_nil
      · rw [hone, List.map_singleton, List.perm_singleton] at hperm
        rw [hperm, hpage, List.take_of_length_le (by simp)]
        rfl
  · simp only [hrows, Option.elim_none]
    apply iff_of_false
    · intro hsame
      exact Answer.noConfusion (hsame (fun _ entries => entries) (fun _ _ => List.Perm.refl _))
    · exact fun h => hrefused h.1

end Read

/-! ## Agreement -/

/-- Where both repositories hold the same users, their answers agree exactly if the
query meets the condition. -/
theorem answers_eq_iff {tables : CaseTables} {lower : String → String} {users : List User}
    (hids : (users.map User.id).Nodup) (hapart : Apart tables users) (k : Nat) (query : Query) :
    (∀ order, Visits order →
        Memory.answer tables (order k (users.map User.entity)) (users.map User.entity) query =
          answer tables lower users query) ↔ Meets tables lower users query := by
  have hself : Visits fun _ entries => entries := fun _ _ => List.Perm.refl _
  cases query with
  | getByID id =>
      rw [Meets, ← getByID_eq_iff id]
      exact ⟨fun h => h _ hself, fun h _ _ => h⟩
  | getByEmail email =>
      rw [Meets]
      apply Iff.intro
      · intro h
        exact (getByEmail_eq_iff hapart _ (List.Perm.refl _)).mp (h _ hself)
      · intro h order hvisits
        exact (getByEmail_eq_iff hapart _ (hvisits k _)).mpr h
  | list filter => exact list_eq_iff hids k

/-- The repositories agree exactly if every user fits its row, emails that fold together
are equal, and the query meets the condition for the users whose email is new. -/
theorem repositories_agree_iff (tables : CaseTables) (lower : String → String)
    (calls : List Entity) (query : Query) (hbuilt : ∀ user ∈ calls, Built tables user)
    (hids : (calls.map Entity.id).Nodup) :
    Agree tables lower calls query ↔
      (∀ user ∈ calls, Fits user) ∧ Unambiguous tables calls ∧
        Meets tables lower (registered calls) query := by
  have hself : Visits fun _ entries => entries := fun _ _ => List.Perm.refl _
  apply Iff.intro
  · intro hagree
    have hresults := (hagree _ hself).1
    obtain ⟨hfits, hunambiguous⟩ := (results_eq_iff hself hbuilt hids).mp hresults
    refine ⟨hfits, hunambiguous, ?_⟩
    obtain ⟨-, -, hnodup, hapart⟩ := registered_eq hself hbuilt hids hresults
    apply (answers_eq_iff hnodup hapart calls.length query).mp
    intro order hvisits
    obtain ⟨hresults, hanswer⟩ := hagree order hvisits
    obtain ⟨hstored, hmemory, -, -⟩ := registered_eq hvisits hbuilt hids hresults
    rwa [hstored, hmemory] at hanswer
  · rintro ⟨hfits, hunambiguous, hmeets⟩ order hvisits
    have hresults := (results_eq_iff hvisits hbuilt hids).mpr ⟨hfits, hunambiguous⟩
    obtain ⟨hstored, hmemory, hnodup, hapart⟩ := registered_eq hvisits hbuilt hids hresults
    refine ⟨hresults, ?_⟩
    rw [hstored, hmemory]
    exact (answers_eq_iff hnodup hapart calls.length query).mpr hmeets order hvisits

/-- A user as the service creates it. -/
def ada : Entity where
  id := (UUID.ofNat 1).text
  name := "Ada"
  email := "ada@example.com"
  passwordHash := ""
  enabled := true
  authProvider := "local"
  externalSubject := ""
  createdAt := 1000
  updatedAt := 1000

theorem built_ada : Built CaseTables.sample ada where
  new := ⟨" Ada", "Ada@example.com ", by decide +kernel⟩
  createdAt := rfl
  spelled := by
    intro id hparse
    have hid : UUID.parse ada.id = some (UUID.ofNat 1) := UUID.parse_text _
    rw [hid, Option.some.injEq] at hparse
    rw [← hparse]
    rfl

theorem repositories_agree_ada :
    Agree CaseTables.sample CaseTables.sample.lower [ada] (.list ⟨10, "ada", none, ""⟩) := by
  have hbuilt : ∀ user ∈ [ada], Built CaseTables.sample user := by
    intro user huser
    rw [List.mem_singleton.mp huser]
    exact built_ada
  have hrows : registered [ada] = [⟨UUID.ofNat 1, ada.name, ada.email, "", true, "local", "",
      1000, 1000⟩] := by
    decide +kernel
  have hzero : ∀ text ∈ ["Ada", "ada@example.com", "ada"], ∀ c ∈ text.toList, c.toNat ≠ 0 := by
    simp
  apply (repositories_agree_iff _ _ _ _ hbuilt (by decide +kernel)).mpr
  refine ⟨?_, ?_, ⟨by decide, hzero "ada" (by simp), .inl rfl⟩, ?_⟩
  · intro user huser
    rw [List.mem_singleton.mp huser]
    exact ⟨⟨UUID.ofNat 1, UUID.parse_text _⟩, ⟨by decide, hzero "Ada" (by simp)⟩, by decide,
      hzero "ada@example.com" (by simp)⟩
  · intro first hfirst second hsecond _
    rw [List.mem_singleton.mp hfirst, List.mem_singleton.mp hsecond]
  · rw [hrows]
    refine .inr ⟨_, List.mem_singleton_self _, ?_, by decide, by decide +kernel, ?_⟩
    · intro other hother
      rw [List.mem_singleton.mp hother]
      exact iff_of_true (by decide +kernel) rfl
    · exact fun other hother _ hne => absurd (List.mem_singleton.mp hother) hne

/-- A page after the only user: empty in the database, in memory with the user on it. -/
theorem repositories_differ_after_ada :
    (∀ user ∈ [ada], Built CaseTables.sample user) ∧ ([ada].map Entity.id).Nodup ∧
      ¬ Agree CaseTables.sample CaseTables.sample.lower [ada]
        (.list ⟨10, "", some 1000, (UUID.ofNat 1).text⟩) := by
  refine ⟨?_, by decide +kernel, ?_⟩
  · intro user huser
    rw [List.mem_singleton.mp huser]
    exact built_ada
  · intro hagree
    have hsame := (hagree (fun _ entries => entries) fun _ _ => List.Perm.refl _).2
    revert hsame
    decide +kernel

end GoFoundation.Users
