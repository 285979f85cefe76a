import Untangled.SessionRefinement

/-!
# Refresh tokens are single-use

Under every interleaving of all calls of the service a refresh token is
exchanged at most once, the current token of a session is never among the
consumed ones, and a session keeps the lifetime it was created with.
-/

namespace Untangled.Auth

open ReadCommitted TokenLedger

/-- No committed session holds a consumed token. -/
theorem Reachable.current_not_used {sys : AuthSystem}
    (hreachable : Reachable sys) {r : SessionRow} (hr : r ∈ sys.db.sessions)
    {u : UsedRow} (hu : u ∈ sys.db.used) :
    r.refreshHmac ≠ some u.refreshHmac := by
  intro htoken
  exact hreachable.sound.apart (liveOf_of_mem hr) htoken ⟨u, hu, rfl⟩

/-- Two calls that exchanged the same token are the same call. -/
theorem Reachable.rotated_once {sys : AuthSystem} (hreachable : Reachable sys)
    {i j : ℕ} {args args' : AttemptRotateArgs} {refresh session refresh' session' : ℤ}
    (hi : Returned sys i (.attemptRotate args) (.rotate (.rotated refresh session)))
    (hj : Returned sys j (.attemptRotate args')
      (.rotate (.rotated refresh' session')))
    (hold : args'.oldHmac = args.oldHmac) : i = j := by
  have hhistory := hi.history rfl
  have hhistory' := hj.history rfl
  rw [hold] at hhistory'
  exact hreachable.sound.rotatedOnce hhistory hhistory'

/-- A stored session has the lifetime its `create` call gave it. -/
theorem Reachable.cap_of_created {sys : AuthSystem}
    (hreachable : Reachable sys) {i : ℕ} {new : NewUserSession} {clock : ℤ}
    (hi : Returned sys i (.create new clock) .created) {r : SessionRow}
    (hr : r ∈ sys.db.sessions) (hid : r.id = new.id) :
    r.sessionExpiresAt = new.sessionExpiresAt := by
  have hhistory := hi.history rfl
  obtain ⟨first, ⟨j, hj⟩, _, hcap⟩ :=
    hreachable.sound.opened (liveOf_of_mem hr)
  rw [hid] at hj
  obtain rfl := hreachable.sound.openedOnce hj hhistory
  rw [hj] at hhistory
  simp only [Option.some.injEq, Event.opened.injEq, true_and] at hhistory
  rw [hhistory] at hcap
  exact hcap.symm

theorem Reachable.cap_constant {sys sys' : AuthSystem}
    (hreachable : Reachable sys)
    (hsteps : System.Steps authSchema Call.start MintsFresh sys sys')
    {r r' : SessionRow} (hr : r ∈ sys.db.sessions) (hr' : r' ∈ sys'.db.sessions)
    (hid : r'.id = r.id) :
    r'.sessionExpiresAt = r.sessionExpiresAt := by
  have hledger := (hreachable.staged.steps hsteps).2
  have hlive' : (ledgerOf sys').live r.id = some r'.entry :=
    hid ▸ liveOf_of_mem hr'
  exact (hreachable.sound.identity hledger (liveOf_of_mem hr) hlive').2

/-- Single use under any schedule: one exchange for a token, no current token
among the consumed ones, and a constant session lifetime. -/
theorem refreshTokens_singleUse {sys sys' : AuthSystem}
    (hreachable : Reachable sys)
    (hsteps : System.Steps authSchema Call.start MintsFresh sys sys') :
    (∀ (i j : ℕ) (args args' : AttemptRotateArgs)
        (refresh session refresh' session' : ℤ),
      Returned sys i (.attemptRotate args) (.rotate (.rotated refresh session)) →
      Returned sys j (.attemptRotate args')
        (.rotate (.rotated refresh' session')) →
      args'.oldHmac = args.oldHmac → args'.userId = args.userId →
      args'.sessionId = args.sessionId → i = j) ∧
    (∀ r ∈ sys.db.sessions, ∀ u ∈ sys.db.used,
      r.refreshHmac ≠ some u.refreshHmac) ∧
    (∀ (i : ℕ) (new : NewUserSession) (clock : ℤ),
      Returned sys i (.create new clock) .created →
      ∀ r ∈ sys.db.sessions, r.id = new.id →
        r.sessionExpiresAt = new.sessionExpiresAt) ∧
    (∀ r ∈ sys.db.sessions, ∀ r' ∈ sys'.db.sessions, r'.id = r.id →
      r'.sessionExpiresAt = r.sessionExpiresAt) := by
  refine ⟨?_, ?_, ?_, ?_⟩
  · intro i j args args' refresh session refresh' session' hi hj hold _ _
    exact hreachable.rotated_once hi hj hold
  · intro r hr u hu
    exact hreachable.current_not_used hr hu
  · intro i new clock hi r hr hid
    exact hreachable.cap_of_created hi hr hid
  · intro r hr r' hr' hid
    exact hreachable.cap_constant hsteps hr hr' hid

/-! ## A run -/

/-- An account whose password is current until the year 2100. -/
def sampleUser : UserRow where
  id := 1
  username := "alice"
  passwordHash := "hash of correct horse"
  displayName := "Alice"
  isActive := true
  failedLoginCount := 0
  passwordExpiresAt := 4102444800000
  updatedAt := 0
  updatedBy := systemUserId

/-- The empty service with one account. -/
def sampleStart : AuthSystem where
  db := { users := Table.empty.put sampleUser, sessions := .empty, used := .empty }
  procs := []

theorem sampleStart_initial : Initial sampleStart := ⟨rfl, rfl, rfl⟩

def sampleSession : NewUserSession where
  id := 10
  userId := 1
  refreshHmac := some "hmac 1"
  sessionExpiresAt := 2592000000
  refreshExpiresAt := 300000
  ipAddress := none
  userAgent := none

def sampleRotation : AttemptRotateArgs where
  oldHmac := "hmac 1"
  newHmac := "hmac 2"
  userId := 1
  sessionId := 10
  now := 10000
  refreshTtlSeconds := 300
  reuseGraceSeconds := 5
  reuseWindowSeconds := 3600
  ipAddress := none
  userAgent := none
  usedTokenId := 20
  usedClock := 10000
  sessionClock := 10000

/-- A session is created; two calls race to exchange its token. -/
def raceSchedule : List (Label Call) :=
  [.spawn (.create sampleSession 0), .advance 0, .advance 0,
    .spawn (.attemptRotate sampleRotation),
    .spawn (.attemptRotate { sampleRotation with newHmac := "hmac 3" }),
    .advance 1, .advance 2, .advance 1, .advance 2, .advance 1, .advance 1,
    .advance 1, .advance 1, .advance 1, .advance 1, .advance 2, .advance 2,
    .advance 2, .advance 2]

def raceEnd : Option AuthSystem :=
  System.performAll authSchema Call.start MintsFresh raceSchedule sampleStart

def outcomes (sys : AuthSystem) : List (Option Reply) :=
  sys.procs.map fun p =>
    match p.prog with
    | .ret reply => some reply
    | _ => none

theorem returned_of_outcomes {sys : AuthSystem} {i : ℕ} {call : Call}
    {reply : Reply} (hcall : (sys.procs.map Proc.call)[i]? = some call)
    (hreply : (outcomes sys)[i]? = some (some reply)) :
    Returned sys i call reply := by
  simp only [outcomes, List.getElem?_map, Option.map_eq_some_iff] at hcall hreply
  rcases hcall with ⟨p, hi, hcall⟩
  rcases hreply with ⟨q, hi', hreply⟩
  obtain rfl : p = q := by simpa [hi] using hi'
  cases hprog : p.prog with
  | ret reply' =>
      simp only [hprog, Option.some.injEq] at hreply
      exact ⟨p, hi, hcall, hreply ▸ hprog⟩
  | _ => simp [hprog] at hreply

theorem ended_of_outcomes {sys : AuthSystem} (hended : none ∉ outcomes sys) :
    ∀ p ∈ sys.procs, p.running = false := by
  intro p hp
  by_contra hrunning
  apply hended
  refine List.mem_map.mpr ⟨p, hp, ?_⟩
  cases hprog : p.prog with
  | ret reply => simp [Proc.running, hprog] at hrunning
  | _ => rfl

/-- The call that lost the race finds its token consumed. -/
theorem raceEnd_outcomes : raceEnd.map outcomes =
    some [some .created, some (.rotate (.rotated 310000 2592000000)),
      some (.rotate .softReuse)] := by
  decide +kernel

theorem race_singleUse :
    ∃ sys, raceEnd = some sys ∧ outcomes sys =
        [some .created, some (.rotate (.rotated 310000 2592000000)),
          some (.rotate .softReuse)] ∧
      ∀ r ∈ sys.db.sessions, ∀ u ∈ sys.db.used,
        r.refreshHmac ≠ some u.refreshHmac := by
  obtain ⟨sys, hsys, hout⟩ := Option.map_eq_some_iff.mp raceEnd_outcomes
  have hreachable : Reachable sys :=
    ⟨sampleStart, sampleStart_initial, System.performAll_steps hsys⟩
  exact ⟨sys, hsys, hout,
    (refreshTokens_singleUse hreachable Relation.ReflTransGen.refl).2.1⟩

end Untangled.Auth
