import Untangled.TokenSingleUse

/-!
# Must-change gating

A login that requires a password change stores its session without a refresh
HMAC.  Under every interleaving the session stays locked until its user changes
the password on it, and that happens at most once.
-/

namespace Untangled.Auth

open ReadCommitted TokenLedger

/-- The only token a change-password call hands out is the one it minted. -/
def ReplyOf : Call → Reply → Prop
  | .changePassword args, .changed (.ok (.firstRefresh token _) _) =>
      token = args.refreshToken
  | _, _ => True

theorem executeChangePassword_returns (args : ChangePasswordArgs) :
    (executeChangePassword args).Returns (ReplyOf (.changePassword args)) := by
  intro user
  cases user with
  | none => exact trivial
  | some user =>
      simp only [changeFound, changeLocked]
      split
      · exact trivial
      · exact trivial
      · exact trivial
      · split
        · exact trivial
        · intro _
          unfold changeEffect
          split
          · exact fun _ _ => trivial
          · split
            · exact trivial
            · intro session
              cases session with
              | none => exact trivial
              | some session =>
                  simp only [changeSession]
                  split
                  · exact trivial
                  · intro n
                    dsimp only
                    split
                    · exact rfl
                    · exact trivial

theorem returns_of_forall {P : Reply → Prop} (hall : ∀ reply, P reply)
    (prog : AuthProg Reply) : prog.Returns P := by
  induction prog with
  | ret reply => exact hall reply
  | throw fault => exact trivial
  | beginTx next ih => exact ih
  | query stmt next ih => exact ih
  | commit next ih => exact ih
  | rollback next ih => exact ih

theorem Call.start_returns (call : Call) :
    call.start.Returns (ReplyOf call) := by
  cases call with
  | changePassword args => exact executeChangePassword_returns args
  | _ => exact returns_of_forall (fun _ => trivial) _

theorem Reachable.reply_of {sys : AuthSystem} (hreachable : Reachable sys)
    {i : ℕ} {call : Call} {reply : Reply} (hreturned : Returned sys i call reply) :
    ReplyOf call reply := by
  obtain ⟨start, hinitial, hsteps⟩ := hreachable
  obtain ⟨p, hi, rfl, hprog⟩ := hreturned
  have hreturns := hsteps.returns Call.start_returns
    (by simp [hinitial.procs]) p (List.mem_of_getElem? hi)
  rw [hprog] at hreturns
  exact hreturns

/-- Call `i` is a change-password call of `userId` on session `sid` that has
committed the effect `first_refresh` with this token. -/
def IssuedFirstRefresh (sys : AuthSystem) (i : ℕ) (args : ChangePasswordArgs)
    (sid : Uuid) (token : String) : Prop :=
  args.sessionId = some sid ∧ ∃ maxAge username,
    Returned sys i (.changePassword args)
      (.changed (.ok (.firstRefresh token maxAge) username))

theorem IssuedFirstRefresh.history {sys : AuthSystem} {i : ℕ}
    {args : ChangePasswordArgs} {sid : Uuid} {token : String}
    (hissued : IssuedFirstRefresh sys i args sid token) :
    (ledgerOf sys).history i =
      some (.activated sid args.userId args.newHmac) := by
  obtain ⟨hsid, maxAge, username, hreturned⟩ := hissued
  exact hreturned.history (by simp [Call.event, hsid])

/-- A recorded activation is a committed first refresh. -/
theorem issued_of_history {sys : AuthSystem} {i : ℕ} {sid owner : Uuid}
    {hmac : String}
    (hhistory : (ledgerOf sys).history i = some (.activated sid owner hmac)) :
    ∃ args token, args.userId = owner ∧
      IssuedFirstRefresh sys i args sid token := by
  obtain ⟨p, reply, hi, hprog, hevent⟩ := historyOf_eq_some.mp hhistory
  unfold Call.event at hevent
  split at hevent
  · cases hevent
  · cases hevent
  · cases hevent
  · rename_i args token maxAge username hcall
    obtain ⟨sid', hsid, heq⟩ := Option.map_eq_some_iff.mp hevent
    cases heq
    exact ⟨args, token, rfl, hsid, maxAge, username, p, hi, hcall, hprog⟩
  · cases hevent

/-- The session a must-change login has stored was opened without a token. -/
theorem opened_of_mustChange {sys : AuthSystem} {i : ℕ} {args : LoginArgs}
    {user : UserRow} {signed : Bool}
    (hlogin : Returned sys i (.login args)
      (.login (.success user true signed))) :
    (ledgerOf sys).Opened args.sid (args.sessionRow user true).entry :=
  ⟨i, hlogin.history rfl⟩

/-- As long as its user has not been issued a first refresh on it, the session
of a must-change login stays without an HMAC and no rotation succeeds on it. -/
theorem Reachable.locked_of_mustChange {sys : AuthSystem}
    (hreachable : Reachable sys) {i : ℕ} {args : LoginArgs} {user : UserRow}
    {signed : Bool} (hlogin : Returned sys i (.login args)
      (.login (.success user true signed)))
    (hnever : ∀ j change token, change.userId = user.id →
      ¬ IssuedFirstRefresh sys j change args.sid token) :
    (∀ r ∈ sys.db.sessions, r.id = args.sid → r.refreshHmac = none) ∧
      ∀ j rotation refresh session, rotation.sessionId = args.sid →
        ¬ Returned sys j (.attemptRotate rotation)
          (.rotate (.rotated refresh session)) := by
  have hopened := opened_of_mustChange hlogin
  have hlocked : ∀ owner, ¬ (ledgerOf sys).Unlocked args.sid owner := by
    intro owner hunlocked
    obtain ⟨j, new, hj⟩ :=
      hreachable.sound.activated_of_unlocked hopened rfl hunlocked
    obtain ⟨change, token, hchange, hissued⟩ := issued_of_history hj
    exact hnever j change token hchange hissued
  refine ⟨?_, ?_⟩
  · intro r hr hid
    cases htoken : r.refreshHmac with
    | none => rfl
    | some hmac =>
        have hlive : (ledgerOf sys).live args.sid = some r.entry :=
          hid ▸ liveOf_of_mem hr
        exact absurd (hreachable.sound.unlocked hlive htoken) (hlocked _)
  · intro j rotation refresh session hsid hreturned
    have hhistory := hreturned.history rfl
    rw [hsid] at hhistory
    exact hlocked _ (hreachable.sound.rotatedUnlocked hhistory)

theorem Reachable.first_refresh_once {sys : AuthSystem}
    (hreachable : Reachable sys) {i j : ℕ} {args args' : ChangePasswordArgs}
    {sid : Uuid} {token token' : String}
    (hi : IssuedFirstRefresh sys i args sid token)
    (hj : IssuedFirstRefresh sys j args' sid token') : i = j :=
  hreachable.sound.activatedOnce hi.history hj.history

/-- The step that commits a first refresh stores the HMAC of its token. -/
theorem Reachable.first_refresh_stored {sys sys' : AuthSystem}
    (hreachable : Reachable sys) {label : Label Call}
    (hfresh : MintsFresh sys label) (hstep : AuthStep sys label sys') {i : ℕ}
    {args : ChangePasswordArgs} {sid : Uuid} {token : String}
    (hissued : IssuedFirstRefresh sys' i args sid token)
    (hbefore : ¬ IssuedFirstRefresh sys i args sid token) :
    ∃ r ∈ sys'.db.sessions, r.id = sid ∧ r.userId = args.userId ∧
      r.refreshHmac = some (args.hmacRefreshToken token) := by
  have hreachable' : Reachable sys' := by
    obtain ⟨start, hinitial, hsteps⟩ := hreachable
    exact ⟨start, hinitial, hsteps.tail ⟨label, hfresh, hstep⟩⟩
  have htoken : token = args.refreshToken := by
    obtain ⟨_, maxAge, username, hreturned⟩ := hissued
    exact hreachable'.reply_of hreturned
  have hnew : (ledgerOf sys).history i ≠
      some (.activated sid args.userId args.newHmac) := by
    intro hold
    obtain ⟨args', token', _, hissued'⟩ := issued_of_history hold
    obtain ⟨hsid', maxAge', username', hreturned'⟩ := hissued'
    obtain ⟨hsid, maxAge, username, hreturned⟩ := hissued
    obtain ⟨hcall, hreply⟩ := (hreturned'.step hstep).unique hreturned
    refine hbefore ⟨hsid, maxAge, username, ?_⟩
    rw [hcall, hreply]
    exact hreturned'
  have hledger := (hreachable.staged.step hfresh hstep).2
  obtain ⟨entry, hlive, howner, hentry⟩ :=
    hledger.activated_live hissued.history hnew
  obtain ⟨r, hr, hid, rfl⟩ := liveOf_eq_some.mp hlive
  refine ⟨r, hr, hid, howner, ?_⟩
  rw [htoken]
  exact hentry

/-- The gate: a session opened by a must-change login is locked until its user
is issued a first refresh on it; that happens at most once for any session; and
the step that commits it stores the HMAC of the token handed out. -/
theorem mustChange_gate {sys : AuthSystem} (hreachable : Reachable sys) :
    (∀ (i : ℕ) (args : LoginArgs) (user : UserRow) (signed : Bool),
      Returned sys i (.login args) (.login (.success user true signed)) →
      (∀ j change token, change.userId = user.id →
        ¬ IssuedFirstRefresh sys j change args.sid token) →
      (∀ r ∈ sys.db.sessions, r.id = args.sid → r.refreshHmac = none) ∧
      ∀ j rotation refresh session, rotation.sessionId = args.sid →
        ¬ Returned sys j (.attemptRotate rotation)
          (.rotate (.rotated refresh session))) ∧
    (∀ (i j : ℕ) (args args' : ChangePasswordArgs) (sid : Uuid)
        (token token' : String),
      IssuedFirstRefresh sys i args sid token →
      IssuedFirstRefresh sys j args' sid token' → i = j) ∧
    (∀ (label : Label Call) (sys' : AuthSystem), MintsFresh sys label →
      AuthStep sys label sys' →
      ∀ (i : ℕ) (args : ChangePasswordArgs) (sid : Uuid) (token : String),
        IssuedFirstRefresh sys' i args sid token →
        ¬ IssuedFirstRefresh sys i args sid token →
        ∃ r ∈ sys'.db.sessions, r.id = sid ∧ r.userId = args.userId ∧
          r.refreshHmac = some (args.hmacRefreshToken token)) := by
  refine ⟨?_, ?_, ?_⟩
  · intro i args user signed hlogin hnever
    exact hreachable.locked_of_mustChange hlogin hnever
  · intro i j args args' sid token token' hi hj
    exact hreachable.first_refresh_once hi hj
  · intro label sys' hfresh hstep i args sid token hissued hbefore
    exact hreachable.first_refresh_stored hfresh hstep hissued hbefore

/-! ## A run -/

/-- An account whose password has expired and is within its grace period. -/
def overdueUser : UserRow :=
  { sampleUser with passwordExpiresAt := 0 }

def overdueStart : AuthSystem where
  db := { users := Table.empty.put overdueUser, sessions := .empty, used := .empty }
  procs := []

theorem overdueStart_initial : Initial overdueStart := ⟨rfl, rfl, rfl⟩

/-- A login of that account in the tenth second. -/
def sampleLogin : LoginArgs where
  settings := defaultSettings
  providedUsername := " Alice "
  password := "correct horse"
  ipAddress := some "192.0.2.1"
  userAgent := none
  drawT := some 400
  rateLimit := some false
  hashSlot := true
  verifyPassword hash password := some (hash == "hash of " ++ password)
  dummyHash := "dummy hash"
  auditCapacityOk := true
  auditOk := true
  recordFailureOk := true
  signOk := true
  classifyNow := 10000
  now := 10000
  countClock := 10000
  sessionClock := 10000
  sid := 10
  refreshToken := "token 1"
  hmacRefreshToken token := "hmac of " ++ token

/-- The password change of the same user on the session of that login. -/
def sampleChange : ChangePasswordArgs where
  userId := 1
  sessionId := some 10
  input :=
    { currentPassword := "correct horse"
      newPassword := "battery staple 1234"
      verifyNewPassword := "battery staple 1234" }
  invalidateUserSessions := false
  settings := defaultSettings
  verifyPassword hash password := some (hash == "hash of " ++ password)
  hashPassword password := some ("hash of " ++ password)
  strengthOk _ _ _ _ _ := true
  refreshToken := "token 2"
  hmacRefreshToken token := "hmac of " ++ token
  ipAddress := some "192.0.2.1"
  userAgent := none
  now := 60000
  userClock := 60000
  sessionClock := 60000

/-- The login, a rotation that guesses at the session, the change, and a
rotation of the token it issued. -/
def gateSchedule : List (Label Call) :=
  .spawn (.login sampleLogin) :: List.replicate 6 (.advance 0) ++
    .spawn (.attemptRotate { sampleRotation with oldHmac := "", newHmac := "x" }) ::
      List.replicate 6 (.advance 1) ++
    .spawn (.changePassword sampleChange) :: List.replicate 10 (.advance 2) ++
    .spawn (.attemptRotate { sampleRotation with
        oldHmac := "hmac of token 2"
        newHmac := "y"
        now := 70000 }) ::
      List.replicate 8 (.advance 3)

def gateEnd : Option AuthSystem :=
  System.performAll authSchema Call.start MintsFresh gateSchedule overdueStart

theorem gateEnd_outcomes : gateEnd.map outcomes =
    some [some (.login (.success overdueUser true true)),
      some (.rotate .unknown),
      some (.changed (.ok (.firstRefresh "token 2" 604800) "alice")),
      some (.rotate (.rotated 370000 2592010000))] := by
  decide +kernel

theorem gate_mustChange :
    ∃ sys, gateEnd = some sys ∧
      ∀ (i j : ℕ) (args args' : ChangePasswordArgs) (sid : Uuid)
        (token token' : String),
        IssuedFirstRefresh sys i args sid token →
        IssuedFirstRefresh sys j args' sid token' → i = j := by
  obtain ⟨sys, hsys, _⟩ := Option.map_eq_some_iff.mp gateEnd_outcomes
  have hreachable : Reachable sys :=
    ⟨overdueStart, overdueStart_initial, System.performAll_steps hsys⟩
  exact ⟨sys, hsys, (mustChange_gate hreachable).2.1⟩

end Untangled.Auth
