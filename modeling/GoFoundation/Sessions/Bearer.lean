/-
# What an access token is good for

Access tokens are not looked up in the table of sessions: what bounds them is their expiry
and that they are handed out only after the statement on the session.  So a token that a
client holds is for a session on the table and for its user, and once the session is
revoked, the tokens of the session run out within their time to live.
-/

import GoFoundation.Sessions.Access

namespace GoFoundation.Sessions

open Library Postgres Grpc Users Server

/-! ## Handlers -/

section Use

variable {service : Service} {provider : JWTProvider} {t : TokenWorld} {i : Nat}
  {session : Session} {issued : Issued}

theorem carries_of_delivered {phase : Phase} (hdelivered : phase.delivered = some session) :
    phase.carries = some session ∧ phase.founded = some session := by
  cases phase with
  | done answer =>
      cases answer with
      | loggedIn | refreshed => exact ⟨hdelivered, hdelivered⟩
      | _ => cases hdelivered
  | _ => cases hdelivered

end Use

/-! ## A run with tokens -/

/-- A provider whose texts stand for the claims of a table, by their place in it. -/
def JWTProvider.ofTable (table : List Claims) : JWTProvider where
  sign claims := (table.findIdx? fun other => other = claims).map fun n => List.replicate n 0
  decode raw := table[raw.length]?
  issuer := "go-foundation"
  audience := "grpc-api"
  ttl := 900000000000
  ttl_pos := by decide

/-- Ada, who logs in. -/
def bearer : User :=
  ⟨.ofNat 1, "Ada", "ada@example.org", "$argon2id$", true, "local", "", 0, 0⟩

/-- The claims of her tokens, by the second at which they are issued. -/
def bearerClaims (now : Int) : Claims where
  username := "Ada"
  email := "ada@example.org"
  sessionID := (UUID.ofNat 2).text
  issuer := "go-foundation"
  subject := (UUID.ofNat 1).text
  audience := ["grpc-api"]
  issuedAt := some now
  expiresAt := some (now + 900)
  notBefore := none

/-- Signs the two tokens of the run below. -/
def JWTProvider.sample : JWTProvider := ofTable [bearerClaims 1, bearerClaims 3]

/-- No call has begun. -/
def TokenWorld.start : TokenWorld := ⟨.start 0, fun _ => none⟩

section Revocation

variable {service : Service} {provider : JWTProvider} {t t' : TokenWorld} {row : Row}

/-- The calls that have handed out tokens of a session, in a later state, are those that
had done so in the earlier one. -/
structure SilentSince (t : TokenWorld) (row : Row) (t' : TokenWorld) : Prop where
  kept : row ∈ t'.world.rows
  calls : ∀ i session, (t'.world.calls i).delivered = some session → session.id = row.id →
    t.world.calls i = t'.world.calls i ∧ t.issued i = t'.issued i

/-- A statement does not lead to a token of a session that is revoked. -/
theorem delivered_id_ne (hkept : Kept service t.world) (hrow : row ∈ t.world.rows)
    (hrevoked : row.revokedAt ≠ none) {i : Nat} {turn : Turn}
    (hturn : (t.world.calls i).turn service i t.world.rows = some turn) {session : Session}
    (hdelivered : turn.phase.delivered = some session) : session.id ≠ row.id := by
  obtain ⟨hnone, -⟩ | ⟨token, session', -, hphase, hnew, -⟩ |
    ⟨token, now, session', next, -, hphase, old, hold, hcond⟩ := session_of_exec hturn
  · rw [hnone] at hdelivered
    cases hdelivered
  · rw [hphase] at hdelivered
    cases hdelivered
    exact (hnew row hrow).symm
  · rw [hphase] at hdelivered
    cases hdelivered
    intro hid
    obtain ⟨hold', -, hactive, -⟩ := rotateCond_iff.mp hcond
    obtain rfl := Table.eq_of_key_eq hkept.ids hold hrow (hold'.trans hid)
    exact hrevoked hactive

theorem SilentSince.step (hreach : (tokenSystem service provider).Reachable t')
    (hrevoked : row.revokedAt ≠ none) (h : SilentSince t row t') {t'' : TokenWorld}
    {label : TokenLabel} (hnext : (tokenSystem service provider).next t' label = some t'') :
    SilentSince t row t'' := by
  have hworld := reachable_world hreach
  obtain ⟨labels, hrun⟩ := exists_run_of_tokenNext hnext
  refine ⟨(row_after_run hworld h.kept hrun).2 hrevoked, ?_⟩
  intro i session hdelivered hid
  -- A call that the step leaves alone had handed out its token before.
  have hkeep : t''.world.calls i = t'.world.calls i → t''.issued i = t'.issued i →
      t.world.calls i = t''.world.calls i ∧ t.issued i = t''.issued i := by
    intro hcalls hissued
    rw [hcalls] at hdelivered
    obtain ⟨hsame, hsame'⟩ := h.calls i session hdelivered hid
    exact ⟨hsame.trans hcalls.symm, hsame'.trans hissued.symm⟩
  obtain ⟨label, hissues, hstep, hissued⟩ | ⟨j, label, turn, hissue⟩ := tokenNext_cases hnext
  · obtain ⟨time, -, -, heq⟩ | ⟨j, turn, -, hturn, heq⟩ := next_cases hstep
    · exact hkeep (by rw [heq]) (congrFun hissued i)
    · by_cases hj : i = j
      · subst hj
        rw [heq, World.take_calls_self] at hdelivered
        by_cases hexec : ∃ k, label = .exec k
        · obtain ⟨k, rfl⟩ := hexec
          exact absurd hid (delivered_id_ne (Kept.of_reachable hworld) h.kept hrevoked hturn
            hdelivered)
        · obtain ⟨hnone, -⟩ := quiet_of_turn hturn hissues fun k heq => hexec ⟨k, heq⟩
          rw [(carries_of_delivered hdelivered).1] at hnone
          cases hnone
      · exact hkeep (by rw [heq, World.take_calls_of_ne hj]) (congrFun hissued i)
  · have hcalls : ∀ k, t''.world.calls k = (t'.world.take j turn).calls k := fun k => by
      rw [hissue.world]
    by_cases hj : i = j
    · subst hj
      rw [hcalls, World.take_calls_self, hissue.undelivered] at hdelivered
      cases hdelivered
    · exact hkeep ((hcalls i).trans (World.take_calls_of_ne hj)) (hissue.others i hj)

end Revocation

section Listing

variable {rows : List Row} {userID : UUID} {now : Int}

end Listing

end GoFoundation.Sessions
