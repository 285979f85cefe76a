import Untangled.ChangePasswordFrame
import Untangled.SessionReplay

/-!
# The absolute lifetime of a session

A session is stored with an absolute expiry that never moves.  Ordinary logins
and rotations cut the refresh expiry and every cookie lifetime to it.  Two
places do not: the login of a user who has to change the password first works
with the access lifetime alone, and the first refresh after the change does
not ask whether the session has expired.  Where neither matters, nothing
outlives the session.
-/

namespace Untangled.Auth

open ReadCommitted

/-! ## A login that runs alone -/

/-- The outcome is not a successful login. -/
def NoLogin (outcome : Except Fault Reply) : Prop :=
  ∀ user mustChange signed,
    outcome ≠ .ok (.login (.success user mustChange signed))

/-- What a login does when nothing runs beside it. -/
inductive LoginChange (a : LoginArgs) (db : AuthDb) :
    Except Fault Reply × AuthDb → Prop
  | refused {outcome db'} (hquiet : NoLogin outcome)
      (hsessions : db'.sessions = db.sessions) :
      LoginChange a db (outcome, db')
  | opened {user mustChange db'} (hmem : user ∈ db.users)
      (hname : user.username = foldUsername a.providedUsername)
      (hverdict : loginVerdict a user true = .passed mustChange)
      (hsessions : db'.sessions =
        db.sessions.put (a.sessionRow user mustChange)) :
      LoginChange a db
        (.ok (.login (.success user mustChange a.signOk)), db')

section Login

variable {a : LoginArgs} {db db' : AuthDb} {user : UserRow} {n : ℕ}

theorem loginDenied_change (hsessions : db'.sessions = db.sessions) :
    LoginChange a db ((loginDenied a).run authSchema (fun _ => false) n none db') := by
  unfold loginDenied
  split
  · exact .refused (by simp [NoLogin]) hsessions
  · split
    · exact .refused (by simp [NoLogin]) hsessions
    · exact .refused (by simp [NoLogin]) hsessions

theorem noLogin_error (fault : Fault) : NoLogin (.error fault) := by
  intro user mustChange signed h
  cases h

theorem loginPassed_change {mustChange : Bool} (hmem : user ∈ db.users)
    (hname : user.username = foldUsername a.providedUsername)
    (hverdict : loginVerdict a user true = .passed mustChange) :
    LoginChange a db ((loginPassed a user mustChange).run authSchema
      (fun _ => false) n none db) := by
  unfold loginPassed
  rw [Prog.run_query_none (alone_updateFailedLoginCount hmem rfl)]
  split
  · exact .refused (by simp [NoLogin]) rfl
  · unfold loginCreate
    have hinsert : ∀ db₁ : AuthDb, db₁.sessions = db.sessions →
        LoginChange a db ((Prog.query (.insertUserSession
          (a.sessionRow user mustChange)) fun _ =>
            Prog.ret (.login (.success user mustChange a.signOk))).run
              authSchema (fun _ => false) (n + 1) none db₁) := by
      intro db₁ hsame
      cases hexec : insertSession (a.sessionRow user mustChange) db₁ with
      | error fault =>
          rw [Prog.run_query_error (Schema.alone_of_error hexec)]
          exact .refused (noLogin_error fault) hsame
      | ok outcome =>
          obtain ⟨count, ws⟩ := outcome
          have hws := (insertSession_ok hexec).1
          subst hws
          rw [Prog.run_query_none (Schema.alone_of_exec hexec rfl)]
          refine .opened hmem hname hverdict ?_
          have hput : (authSchema.applyAll
              [.putSession (a.sessionRow user mustChange)] db₁).sessions =
              db₁.sessions.put (a.sessionRow user mustChange) := rfl
          rw [hput, hsame]
    exact hinsert _ rfl

theorem loginLoaded_change {found : Option UserRow}
    (hfound : ∀ user, found = some user → user ∈ db.users ∧
      user.username = foldUsername a.providedUsername) :
    LoginChange a db ((loginLoaded a found).run authSchema
      (fun _ => false) n none db) := by
  unfold loginLoaded
  dsimp only
  split
  · exact .refused (by simp [NoLogin]) rfl
  · rename_i verifyOk hverify
    cases found with
    | none => exact loginDenied_change rfl
    | some user =>
        obtain ⟨hmem, hname⟩ := hfound user rfl
        dsimp only
        split
        · rename_i mustChange hverdict
          have hverified : verifyOk = true := by
            cases verifyOk with
            | true => rfl
            | false => simp [loginVerdict] at hverdict
          rw [hverified] at hverdict
          exact loginPassed_change hmem hname hverdict
        · unfold loginRefused
          rw [Prog.run_query_none (alone_updateFailedLoginCount hmem rfl)]
          exact loginDenied_change rfl

theorem handleLogin_change (a : LoginArgs) (db : AuthDb) :
    LoginChange a db ((handleLogin a).runSerial authSchema db) := by
  unfold Prog.runSerial handleLogin
  split
  · exact .refused (by simp [NoLogin]) rfl
  · exact .refused (by simp [NoLogin]) rfl
  · split
    · exact loginDenied_change rfl
    · split
      · split
        · exact .refused (by simp [NoLogin]) rfl
        · exact .refused (by simp [NoLogin]) rfl
      · rw [Prog.run_query_none (alone_selectUserByUsername _)]
        apply loginLoaded_change
        intro user hfind
        have hname : userNamed (foldUsername a.providedUsername) user = true :=
          List.find?_some hfind
        exact ⟨List.mem_of_find?_eq_some hfind, by simpa [userNamed] using hname⟩

end Login

/-! ## What is promised to the client -/

/-- The service answers `reply` with a cookie of this lifetime, in seconds from
`now`, for the session `id`. -/
inductive HandsOut : Call → Reply → Uuid → ℤ → ℤ → Prop
  | loginAccess {args user mustChange} :
      HandsOut (.login args) (.login (.success user mustChange true)) args.sid
        args.now (args.times mustChange).accessMaxAge
  | loginRefresh {args user mustChange maxAge}
      (hrefresh : (args.times mustChange).refreshMaxAge = some maxAge) :
      HandsOut (.login args) (.login (.success user mustChange true)) args.sid
        args.now maxAge
  | refresh {args refreshExpiresAt sessionExpiresAt} :
      HandsOut (.attemptRotate args)
        (.rotate (.rotated refreshExpiresAt sessionExpiresAt)) args.sessionId
        args.now (max 1 (floorSeconds refreshExpiresAt - floorSeconds args.now))
  | firstRefresh {args sid token maxAge username}
      (hsid : args.sessionId = some sid) :
      HandsOut (.changePassword args)
        (.changed (.ok (.firstRefresh token maxAge) username)) sid args.now
        maxAge

/-- The lifetime ends with the stored session at the latest. -/
def MaxAgeWithin (db : AuthDb) (id : Uuid) (now maxAge : ℤ) : Prop :=
  ∃ r ∈ db.sessions, r.id = id ∧ 1 ≤ maxAge ∧
    maxAge * 1000 ≤ r.sessionExpiresAt - floorSeconds now * 1000

/-- Every cookie this call makes the service hand out is within the session. -/
def CookiesWithin (sys : AuthSystem) (call : Call) : Prop :=
  ∀ reply id now maxAge,
    (call.start.runSerial authSchema sys.db).1 = .ok reply →
    HandsOut call reply id now maxAge →
      MaxAgeWithin (sys.serve call).db id now maxAge

/-- The call works with settings the service accepts; sessions come from
logins only. -/
def Call.Configured : Call → Prop
  | .create _ _ => False
  | .attemptRotate args => ∃ row settings,
      settingsFromRow row = .ok settings ∧
        args.refreshTtlSeconds = settings.sessionRefreshTtlSeconds
  | .changePassword args => ∃ row, settingsFromRow row = .ok args.settings
  | .login args => ∃ row, settingsFromRow row = .ok args.settings
  | _ => True

/-- The change would issue the session's first refresh token. -/
structure FirstRefreshDue (a : ChangePasswordArgs) (user : UserRow)
    (row : SessionRow) : Prop where
  locked : user.id = a.userId
  accepted : evaluateChangePassword a user = some .ok
  keeps : a.invalidateUserSessions = false
  session : a.sessionId = some row.id
  owner : row.userId = a.userId
  pending : row.refreshHmac = none

/-- Where the session's cap is not looked at, it does not matter: a login that
demands a password change gives no more than the total lifetime, and a first
refresh comes while a second of the session is left. -/
def HeedsCap (sys : AuthSystem) : Call → Prop
  | .login args => ∀ user ∈ sys.db.users,
      user.username = foldUsername args.providedUsername →
      loginVerdict args user true = .passed true →
        args.settings.sessionAccessTtlSeconds ≤
          args.settings.sessionTotalTtlSeconds
  | .changePassword args => ∀ user ∈ sys.db.users, ∀ row ∈ sys.db.sessions,
      FirstRefreshDue args user row →
        floorSeconds args.now < floorSeconds row.sessionExpiresAt
  | _ => True

/-- Sessions expire on whole seconds, and their tokens no later than they. -/
structure WithinCap (r : SessionRow) : Prop where
  whole : floorSeconds r.sessionExpiresAt * 1000 = r.sessionExpiresAt
  refresh : r.refreshExpiresAt ≤ r.sessionExpiresAt

/-! ## One step -/

section Steps

variable {sys : AuthSystem}

theorem forall_mem_put {p : SessionRow → Prop} {t : Table SessionRow}
    {row : SessionRow} (hall : ∀ r ∈ t, p r) (hrow : p row) :
    ∀ r ∈ t.put row, p r := by
  intro r hr
  rcases Table.mem_put.mp hr with rfl | ⟨hold, _⟩
  · exact hrow
  · exact hall r hold

theorem withinCap_login {a : LoginArgs} {user : UserRow} {mustChange : Bool}
    (hheeds : mustChange = true → a.settings.sessionAccessTtlSeconds ≤
      a.settings.sessionTotalTtlSeconds) :
    WithinCap (a.sessionRow user mustChange) := by
  have hcap : (a.sessionRow user mustChange).sessionExpiresAt =
      (floorSeconds a.now + a.settings.sessionTotalTtlSeconds) * 1000 :=
    loginSessionTimes_sessionExpiresAt _ _ _ _ _
  constructor
  · rw [hcap, floorSeconds_mul]
  · cases mustChange with
    | false =>
        exact loginSessionTimes_refresh_le a.now
          a.settings.sessionAccessTtlSeconds _ _
    | true =>
        have hrefresh : (a.sessionRow user true).refreshExpiresAt =
            (floorSeconds a.now + a.settings.sessionAccessTtlSeconds) * 1000 :=
          rfl
        have hle := hheeds rfl
        rw [hcap, hrefresh]
        omega

/-- The cookies of a login. -/
theorem maxAge_login {a : LoginArgs} {user : UserRow} {mustChange : Bool}
    (haccepted : a.settings.Accepted)
    (hheeds : mustChange = true → a.settings.sessionAccessTtlSeconds ≤
      a.settings.sessionTotalTtlSeconds) {maxAge : ℤ}
    (hage : maxAge = (a.times mustChange).accessMaxAge ∨
      (a.times mustChange).refreshMaxAge = some maxAge) :
    1 ≤ maxAge ∧ maxAge * 1000 ≤
      (a.sessionRow user mustChange).sessionExpiresAt -
        floorSeconds a.now * 1000 := by
  have hcap : (a.sessionRow user mustChange).sessionExpiresAt =
      (floorSeconds a.now + a.settings.sessionTotalTtlSeconds) * 1000 :=
    loginSessionTimes_sessionExpiresAt _ _ _ _ _
  have htotal := haccepted.total_pos
  have haccess := haccepted.access_pos
  rw [hcap]
  cases mustChange with
  | false =>
      have hremaining : maxAge = max 1
          (min (floorSeconds a.now + a.settings.sessionRefreshTtlSeconds)
            (floorSeconds a.now + a.settings.sessionTotalTtlSeconds) -
              floorSeconds a.now) := by
        rcases hage with hage | hage
        · exact hage
        · exact (Option.some.inj hage).symm
      omega
  | true =>
      have hle := hheeds rfl
      have hlifetime : maxAge = max 1 a.settings.sessionAccessTtlSeconds := by
        rcases hage with hage | hage
        · exact hage
        · cases hage
      omega

theorem withinCap_update {row : SessionRow} (hrow : WithinCap row)
    {update : SessionUpdate} {now ttl : ℤ}
    (hupdate : update.refreshExpiresAt =
      (rotateSessionTimes now row.sessionExpiresAt ttl).refreshExpiresAt) :
    WithinCap (update.apply row) where
  whole := hrow.whole
  refresh := by
    have hle := rotateSessionTimes_refresh_le now row.sessionExpiresAt ttl
    rw [SessionUpdate.apply_refreshExpiresAt, hupdate]
    exact hle

/-- While a second of the session is left the lifetime is within it. -/
theorem maxAge_rotate {row : SessionRow} (hrow : WithinCap row) {now ttl : ℤ}
    (hleft : floorSeconds now < floorSeconds row.sessionExpiresAt) :
    1 ≤ (rotateSessionTimes now row.sessionExpiresAt ttl).maxAge ∧
      (rotateSessionTimes now row.sessionExpiresAt ttl).maxAge * 1000 ≤
        row.sessionExpiresAt - floorSeconds now * 1000 := by
  have hone := one_le_rotateSessionTimes_maxAge now row.sessionExpiresAt ttl
  have hle := rotateSessionTimes_maxAge_le ttl hleft
  have hwhole := hrow.whole
  constructor
  · exact hone
  · omega

theorem floorSeconds_lt_of_lt {row : SessionRow} (hrow : WithinCap row)
    {now : ℤ} (hlive : now < row.sessionExpiresAt) :
    floorSeconds now < floorSeconds row.sessionExpiresAt := by
  have hwhole := hrow.whole
  have hfloor := floorSeconds_mul_le now
  omega

theorem heedsCap_login {a : LoginArgs}
    (hconfigured : (Call.login a).Configured)
    (hheeds : HeedsCap sys (.login a))
    (hrows : ∀ r ∈ sys.db.sessions, WithinCap r) :
    (∀ r ∈ (sys.serve (.login a)).db.sessions, WithinCap r) ∧
      CookiesWithin sys (.login a) := by
  have hchange := handleLogin_change a sys.db
  generalize hrun : (handleLogin a).runSerial authSchema sys.db = done at hchange
  have hdb : (sys.serve (.login a)).db = done.2 := congrArg Prod.snd hrun
  have hout : ((Call.login a).start.runSerial authSchema sys.db).1 = done.1 :=
    congrArg Prod.fst hrun
  unfold CookiesWithin
  rw [hdb, hout]
  cases hchange with
  | refused hquiet hsessions =>
      rw [hsessions]
      refine ⟨hrows, ?_⟩
      intro reply id now maxAge houtcome hhands
      cases hhands with
      | loginAccess => exact absurd houtcome (hquiet _ _ _)
      | loginRefresh hrefresh => exact absurd houtcome (hquiet _ _ _)
  | @opened user mustChange db' hmem hname hverdict hsessions =>
      obtain ⟨row, hsettings⟩ := hconfigured
      have haccepted := settingsFromRow_accepted hsettings
      have hle : mustChange = true → a.settings.sessionAccessTtlSeconds ≤
          a.settings.sessionTotalTtlSeconds := by
        rintro rfl
        exact hheeds user hmem hname hverdict
      have hstored : a.sessionRow user mustChange ∈ db'.sessions := by
        rw [hsessions]
        exact Table.mem_put.mpr (Or.inl rfl)
      constructor
      · rw [hsessions]
        exact forall_mem_put hrows (withinCap_login hle)
      · intro reply id now maxAge houtcome hhands
        have hreply := Except.ok.inj houtcome
        cases hhands with
        | loginAccess =>
            simp only [Reply.login.injEq, LoginResult.success.injEq] at hreply
            obtain ⟨_, rfl, _⟩ := hreply
            exact ⟨_, hstored, rfl, maxAge_login haccepted hle (Or.inl rfl)⟩
        | loginRefresh hrefresh =>
            simp only [Reply.login.injEq, LoginResult.success.injEq] at hreply
            obtain ⟨_, rfl, _⟩ := hreply
            exact ⟨_, hstored, rfl, maxAge_login haccepted hle (Or.inr hrefresh)⟩

theorem heedsCap_attemptRotate {a : AttemptRotateArgs}
    (hrows : ∀ r ∈ sys.db.sessions, WithinCap r) :
    (∀ r ∈ (sys.serve (.attemptRotate a)).db.sessions, WithinCap r) ∧
      CookiesWithin sys (.attemptRotate a) := by
  have hchange := attemptRotate_serial a sys.db
  generalize hrun : (attemptRotate a).runSerial authSchema sys.db = done
    at hchange
  have hdb : (sys.serve (.attemptRotate a)).db = done.2 :=
    congrArg Prod.snd hrun
  have hout : ((Call.attemptRotate a).start.runSerial authSchema sys.db).1 =
      done.1 := congrArg Prod.fst hrun
  unfold CookiesWithin
  rw [hdb, hout]
  have hnone : ∀ {outcome : Except Fault Reply}, NoExchange outcome →
      ∀ reply id now maxAge, outcome = .ok reply →
        HandsOut (.attemptRotate a) reply id now maxAge →
          MaxAgeWithin done.2 id now maxAge := by
    intro outcome hquiet reply id now maxAge houtcome hhands
    cases hhands
    exact absurd houtcome (hquiet _ _)
  cases hchange with
  | @rotated row hcurrent hlive hnew =>
      obtain ⟨hrow, hmatch⟩ := AttemptRotateArgs.current_some hcurrent
      have hid := (sessionHolds_iff.mp hmatch).2.1
      have hcap := hrows row hrow
      have hunexpired : a.now < row.sessionExpiresAt := by
        simp only [AttemptRotateArgs.expired, Bool.or_eq_false_iff,
          decide_eq_false_iff_not, not_le] at hlive
        exact hlive.1
      have hnext : WithinCap ((a.update row).apply row) :=
        withinCap_update hcap rfl
      constructor
      · exact forall_mem_put hrows hnext
      · intro reply id now maxAge houtcome hhands
        have hreply := Except.ok.inj houtcome
        cases hhands with
        | @refresh _ refreshExpiresAt sessionExpiresAt =>
            simp only [Reply.rotate.injEq,
              AttemptRotateResult.rotated.injEq] at hreply
            have hage : max 1 (floorSeconds refreshExpiresAt -
                floorSeconds a.now) = (a.times row).maxAge := by
              rw [← hreply.1]
              simp only [AttemptRotateArgs.times, rotateSessionTimes,
                floorSeconds_mul]
            refine ⟨_, Table.mem_put.mpr (Or.inl rfl), hid, ?_⟩
            rw [hage]
            exact maxAge_rotate hcap (floorSeconds_lt_of_lt hcap hunexpired)
  | expired hcurrent hexpired => exact ⟨hrows, hnone (by simp [NoExchange])⟩
  | unknown hcurrent hconsumed => exact ⟨hrows, hnone (by simp [NoExchange])⟩
  | softReuse hcurrent hconsumed hgrace =>
      exact ⟨hrows, hnone (by simp [NoExchange])⟩
  | hardReuse hcurrent hconsumed hgrace =>
      constructor
      · intro r hr
        exact hrows r (mem_withoutSession_sessions.mp hr).1
      · exact hnone (by simp [NoExchange])
  | threw fault => exact ⟨hrows, hnone (noExchange_error fault)⟩

theorem heedsCap_changePassword {a : ChangePasswordArgs}
    (hheeds : HeedsCap sys (.changePassword a))
    (hrows : ∀ r ∈ sys.db.sessions, WithinCap r) :
    (∀ r ∈ (sys.serve (.changePassword a)).db.sessions, WithinCap r) ∧
      CookiesWithin sys (.changePassword a) := by
  have hframed := framed_undisturbed a sys.db
  generalize hrun : (executeChangePassword a).runSerial authSchema sys.db = done
    at hframed
  have hdb : (sys.serve (.changePassword a)).db = done.2 :=
    congrArg Prod.snd hrun
  have hout : ((Call.changePassword a).start.runSerial authSchema sys.db).1 =
      done.1 := congrArg Prod.fst hrun
  unfold CookiesWithin
  rw [hdb, hout]
  obtain ⟨outcome, db'⟩ := done
  dsimp only at hframed ⊢
  unfold Framed at hframed
  split at hframed
  · subst db'
    refine ⟨hrows, ?_⟩
    intro reply id now maxAge houtcome
    cases houtcome
  · subst db'
    refine ⟨hrows, ?_⟩
    intro reply id now maxAge houtcome hhands
    cases houtcome
    cases hhands
  · subst db'
    refine ⟨hrows, ?_⟩
    intro reply id now maxAge houtcome hhands
    cases houtcome
    cases hhands
  · subst db'
    refine ⟨hrows, ?_⟩
    intro reply id now maxAge houtcome hhands
    cases houtcome
    cases hhands
  · rename_i effect username
    obtain ⟨⟨user, hmem, newHash, huser, heval, _⟩, heffect, _⟩ := hframed
    cases effect with
    | tokensUnchanged =>
        obtain ⟨hsessions, _⟩ := heffect
        rw [hsessions]
        refine ⟨hrows, ?_⟩
        intro reply id now maxAge houtcome hhands
        cases houtcome
        cases hhands
    | loggedOut =>
        obtain ⟨hsessions, _⟩ := heffect
        rw [hsessions]
        constructor
        · intro r hr
          exact hrows r (Table.mem_filter.mp hr).1
        · intro reply id now maxAge houtcome hhands
          cases houtcome
          cases hhands
    | firstRefresh token maxAge =>
        obtain ⟨hkeeps, _, row, hrow, row', hsid, howner, hnull, _, hrefresh,
          hage, hcolumns, hsessions⟩ := heffect
        have hcap := hrows row hrow
        have hsame : row'.id = row.id := by
          rw [hcolumns]
        have hsession : row'.sessionExpiresAt = row.sessionExpiresAt := by
          rw [hcolumns]
        have hleft := hheeds user hmem row hrow
          ⟨huser, heval, hkeeps, hsid, howner, hnull⟩
        have hnext : WithinCap row' := by
          constructor
          · rw [hsession]
            exact hcap.whole
          · rw [hrefresh, hsession]
            exact rotateSessionTimes_refresh_le _ _ _
        rw [hsessions]
        constructor
        · exact forall_mem_put hrows hnext
        · intro reply id now maxAge' houtcome hhands
          have hreply := Except.ok.inj houtcome
          cases hhands with
          | firstRefresh hsid' =>
              simp only [Reply.changed.injEq,
                ChangePasswordExecuteResult.ok.injEq,
                ChangePasswordEffect.firstRefresh.injEq] at hreply
              obtain ⟨⟨_, rfl⟩, _⟩ := hreply
              have hid : row.id = id := by
                rw [hsid] at hsid'
                exact Option.some.inj hsid'
              have hstored : row' ∈ db'.sessions := by
                rw [hsessions]
                exact Table.mem_put.mpr (Or.inl rfl)
              refine ⟨row', hstored, hsame.trans hid, ?_⟩
              rw [hage, hsession]
              exact maxAge_rotate hcap hleft
  · exact absurd hframed id

/-- One call that heeds the cap. -/
theorem heedsCap_serve {call : Call} (hconfigured : call.Configured)
    (hheeds : HeedsCap sys call) (hrows : ∀ r ∈ sys.db.sessions, WithinCap r) :
    (∀ r ∈ (sys.serve call).db.sessions, WithinCap r) ∧
      CookiesWithin sys call := by
  have hquiet : (∀ reply id now maxAge, ¬ HandsOut call reply id now maxAge) →
      CookiesWithin sys call := by
    intro hnone reply id now maxAge _ hhands
    exact absurd hhands (hnone _ _ _ _)
  cases call with
  | create new clock => exact absurd hconfigured id
  | login args => exact heedsCap_login hconfigured hheeds hrows
  | attemptRotate args => exact heedsCap_attemptRotate hrows
  | changePassword args => exact heedsCap_changePassword hheeds hrows
  | invalidate uid sid =>
      constructor
      · intro r hr
        have hchange : RepositoryChange sys.db (.invalidate uid sid) _ :=
          repositoryChange rfl sys.db
        generalize hrun : (Call.invalidate uid sid).start.runSerial authSchema
          sys.db = done at hchange
        rw [show (sys.serve (.invalidate uid sid)).db = done.2 from
          congrArg Prod.snd hrun] at hr
        cases hchange with
        | unchanged hnone => exact hrows r hr
        | removed hnone => exact hrows r (mem_withoutSession_sessions.mp hr).1
      · apply hquiet
        intro reply id now maxAge hhands
        cases hhands
  | sessionCleanup now =>
      constructor
      · intro r hr
        have hchange : RepositoryChange sys.db (.sessionCleanup now) _ :=
          repositoryChange rfl sys.db
        generalize hrun : (Call.sessionCleanup now).start.runSerial authSchema
          sys.db = done at hchange
        rw [show (sys.serve (.sessionCleanup now)).db = done.2 from
          congrArg Prod.snd hrun] at hr
        cases hchange with
        | unchanged hnone => exact hrows r hr
        | removed hnone => exact hrows r (mem_withoutSession_sessions.mp hr).1
        | swept hnone => exact hrows r hr
        | cleaned hnone hcondition =>
            exact hrows r (AuthDb.mem_withoutSessions.mp hr).1
      · apply hquiet
        intro reply id now maxAge hhands
        cases hhands

end Steps

/-! ## Every run -/

/-- A configured call that heeds the cap in the state it arrives in. -/
structure CappedCall (sys : AuthSystem) (call : Call) : Prop where
  configured : call.Configured
  heeds : HeedsCap sys call

/-- In every run whose calls heed the cap no stored token and no cookie
outlives its session. -/
theorem session_withinCap {start sys : AuthSystem} (hinitial : Initial start)
    (hruns : System.SerialSteps authSchema Call.start CappedCall start sys) :
    (∀ r ∈ sys.db.sessions, r.refreshExpiresAt ≤ r.sessionExpiresAt) ∧
      ∀ call, CappedCall sys call → CookiesWithin sys call := by
  have hrows : ∀ r ∈ sys.db.sessions, WithinCap r := by
    induction hruns with
    | refl =>
        rw [hinitial.sessions]
        simp
    | tail _ hlast ih =>
        obtain ⟨call, hcapped, rfl⟩ := hlast
        exact (heedsCap_serve hcapped.configured hcapped.heeds ih).1
  constructor
  · intro r hr
    exact (hrows r hr).refresh
  · intro call hcapped
    exact (heedsCap_serve hcapped.configured hcapped.heeds hrows).2

/-- The ordinary login under the default settings and a rotation six days
later. -/
theorem freshLogin_withinCap :
    (∀ r ∈ (sampleStart.serve (.login freshLogin)).db.sessions,
        r.refreshExpiresAt ≤ r.sessionExpiresAt) ∧
      CookiesWithin (sampleStart.serve (.login freshLogin)) (.attemptRotate
        (defaultRotation "hmac of token 1" "h2" 20 (6 * day))) := by
  have hlogin : CappedCall sampleStart (.login freshLogin) :=
    ⟨⟨_, settingsFromRow_default⟩, fun _ _ _ _ => by decide⟩
  have hruns := session_withinCap sampleStart_initial
    (Relation.ReflTransGen.single ⟨_, hlogin, rfl⟩)
  exact ⟨hruns.1, hruns.2 _ ⟨⟨_, _, settingsFromRow_default, rfl⟩, trivial⟩⟩

/-! ## Where the cap is not looked at -/

/-- Access tokens of fifteen minutes, sessions of five. -/
def shortTotalRow : SystemConfigRow :=
  { defaultSystemConfigRow with sessionTotalTtlSeconds := .number 300 }

def shortTotalSettings : AuthRuntimeSettings :=
  { defaultSettings with sessionTotalTtlSeconds := 300 }

def shortTotalLogin : LoginArgs :=
  { sampleLogin with settings := shortTotalSettings }

/-- The first refresh in the tenth minute. -/
def shortTotalChange : ChangePasswordArgs :=
  { sampleChange with settings := shortTotalSettings, now := 600000 }

def shortTotalSystem : AuthSystem :=
  overdueStart.serve (.login shortTotalLogin)

theorem shortTotal_accepted :
    settingsFromRow shortTotalRow = .ok shortTotalSettings := by
  decide +kernel

theorem shortTotal_login :
    shortTotalSystem.db.sessions.rows.map
        (fun r => (r.sessionExpiresAt, r.refreshExpiresAt)) =
      [(310000, 910000)] := by
  decide +kernel

theorem shortTotal_change :
    ((executeChangePassword shortTotalChange).runSerial authSchema
        shortTotalSystem.db).1 =
      .ok (.changed (.ok (.firstRefresh "token 2" 1) "alice")) := by
  decide +kernel

theorem shortTotal_changed :
    (shortTotalSystem.serve (.changePassword shortTotalChange)).db.sessions.rows.map
        (fun r => (r.id, r.sessionExpiresAt)) = [(10, 310000)] := by
  decide +kernel

/-- Under accepted settings a login stores a session whose token outlives it,
and a change of password hands out a cookie for a session that is over. -/
theorem session_withinCap_fails :
    settingsFromRow shortTotalRow = .ok shortTotalSettings ∧
      (∃ r ∈ (overdueStart.serve (.login shortTotalLogin)).db.sessions,
        r.sessionExpiresAt < r.refreshExpiresAt) ∧
      ¬ CookiesWithin (overdueStart.serve (.login shortTotalLogin))
        (.changePassword shortTotalChange) := by
  refine ⟨shortTotal_accepted, ?_, ?_⟩
  · have hmem : ((310000, 910000) : ℤ × ℤ) ∈ shortTotalSystem.db.sessions.rows.map
        (fun r => (r.sessionExpiresAt, r.refreshExpiresAt)) := by
      rw [shortTotal_login]
      exact List.mem_singleton_self _
    obtain ⟨r, hr, htimes⟩ := List.mem_map.mp hmem
    rw [Prod.mk.injEq] at htimes
    refine ⟨r, hr, ?_⟩
    rw [htimes.1, htimes.2]
    decide
  · intro hcookies
    obtain ⟨r, hr, hid, _, hle⟩ := hcookies _ 10 600000 1 shortTotal_change
      (.firstRefresh rfl)
    have hmem : (r.id, r.sessionExpiresAt) ∈
        (shortTotalSystem.serve (.changePassword shortTotalChange)).db.sessions.rows.map
          (fun r => (r.id, r.sessionExpiresAt)) :=
      List.mem_map.mpr ⟨r, hr, rfl⟩
    rw [shortTotal_changed, List.mem_singleton, Prod.mk.injEq] at hmem
    rw [hmem.2] at hle
    exact absurd hle (by decide)

end Untangled.Auth
