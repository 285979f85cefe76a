import Untangled.SessionCleanup
import Untangled.SessionSerial

/-!
# Replay of a consumed token

In a serial history of `create`, `attempt_rotate`, `invalidate` and
`run_session_cleanup` the used-token row of every exchange stays stored until
its reuse window is over, as long as its session does.  A consumed token that
is presented again within that window is therefore always recognised: within
the grace period nothing happens, after it the session is torn down for good.
-/

namespace Untangled.Auth

open ReadCommitted TokenLedger

/-! ## Serial histories of the repository -/

/-- The instant a call works with. -/
def Call.instant : Call → Option ℤ
  | .attemptRotate args => some args.now
  | .sessionCleanup now => some now
  | _ => none

/-- The calls of the session repository and of the cleanup timer. -/
def Call.ofRepository : Call → Bool
  | .create _ _ => true
  | .attemptRotate _ => true
  | .invalidate _ _ => true
  | .sessionCleanup _ => true
  | _ => false

/-- The call works with the reuse settings in force. -/
def Call.Follows (settings : AuthRuntimeSettings) : Call → Prop
  | .attemptRotate args =>
      args.reuseGraceSeconds = settings.sessionRefreshReuseGraceSeconds ∧
        args.reuseWindowSeconds = settings.sessionRefreshReuseWindowSeconds
  | _ => True

/-- The next call of a serial history under fixed settings and a clock that
never goes back. -/
structure NextCall (settings : AuthRuntimeSettings) (sys : AuthSystem)
    (call : Call) : Prop where
  kind : call.ofRepository = true
  settings : call.Follows settings
  fresh : ∀ p ∈ sys.procs, call.Apart p.call
  clock : ∀ p ∈ sys.procs, ∀ earlier ∈ p.call.instant,
    ∀ now ∈ call.instant, earlier ≤ now

instance (settings : AuthRuntimeSettings) (call : Call) :
    Decidable (call.Follows settings) :=
  match call with
  | .attemptRotate _ => inferInstanceAs (Decidable (_ ∧ _))
  | .create _ _ => .isTrue trivial
  | .invalidate _ _ => .isTrue trivial
  | .sessionCleanup _ => .isTrue trivial
  | .changePassword _ => .isTrue trivial
  | .login _ => .isTrue trivial

instance (settings : AuthRuntimeSettings) (sys : AuthSystem) (call : Call) :
    Decidable (NextCall settings sys call) :=
  decidable_of_iff
    (call.ofRepository = true ∧ call.Follows settings ∧
      (∀ p ∈ sys.procs, call.Apart p.call) ∧
      ∀ p ∈ sys.procs, ∀ earlier ∈ p.call.instant,
        ∀ now ∈ call.instant, earlier ≤ now)
    ⟨fun h => ⟨h.1, h.2.1, h.2.2.1, h.2.2.2⟩,
      fun h => ⟨h.kind, h.settings, h.fresh, h.clock⟩⟩

abbrev RepositoryHistory (settings : AuthRuntimeSettings) :
    AuthSystem → AuthSystem → Prop :=
  System.SerialSteps authSchema Call.start (NextCall settings)

abbrev AuthSystem.serve (sys : AuthSystem) (call : Call) : AuthSystem :=
  System.serve authSchema Call.start sys call

/-- The outcome is not a successful exchange. -/
def NoExchange (outcome : Except Fault Reply) : Prop :=
  ∀ refresh session, outcome ≠ .ok (.rotate (.rotated refresh session))

/-- What a repository call does when nothing runs beside it. -/
inductive RepositoryChange (db : AuthDb) :
    Call → Except Fault Reply × AuthDb → Prop
  | unchanged {call outcome} (hquiet : NoExchange outcome) :
      RepositoryChange db call (outcome, db)
  | stored {new clock} (hnew : ∀ r ∈ db.sessions, r.id ≠ new.id) :
      RepositoryChange db (.create new clock)
        (.ok .created, { db with sessions := db.sessions.put (new.row clock) })
  | rotated {a row} (hcurrent : a.current db = some row)
      (hnew : ∀ u ∈ db.used, u.id ≠ a.usedTokenId) :
      RepositoryChange db (.attemptRotate a) (.ok (.rotate
        (.rotated (a.times row).refreshExpiresAt row.sessionExpiresAt)),
          db.rotated a row)
  | removed {call outcome uid sid} (hquiet : NoExchange outcome) :
      RepositoryChange db call (outcome, db.withoutSession uid sid)
  | swept {now outcome} (hquiet : NoExchange outcome) :
      RepositoryChange db (.sessionCleanup now)
        (outcome, db.withoutUsed (usedExpired now))
  | cleaned {now outcome} (hquiet : NoExchange outcome)
      (hcondition : ExpiredSessionsUnreferenced db now) :
      RepositoryChange db (.sessionCleanup now)
        (outcome, (db.withoutUsed (usedExpired now)).withoutSessions
          (sessionExpired now))

theorem noExchange_error (fault : Fault) : NoExchange (.error fault) := by
  intro refresh session h
  cases h

theorem createSession_change (new : NewUserSession) (clock : ℤ) (db : AuthDb) :
    RepositoryChange db (.create new clock)
      ((createSession new clock).runSerial authSchema db) := by
  unfold Prog.runSerial createSession
  cases hexec : insertSession (new.row clock) db with
  | error fault =>
      rw [Prog.run_query_error (Schema.alone_of_error hexec)]
      exact .unchanged (noExchange_error fault)
  | ok outcome =>
      obtain ⟨n, ws⟩ := outcome
      obtain ⟨rfl, hnew, _⟩ := insertSession_ok hexec
      rw [Prog.run_query_none (Schema.alone_of_exec hexec rfl)]
      exact .stored hnew

theorem repositoryChange {call : Call} (hkind : call.ofRepository = true)
    (db : AuthDb) :
    RepositoryChange db call (call.start.runSerial authSchema db) := by
  cases call with
  | create new clock => exact createSession_change new clock db
  | attemptRotate a =>
      have houtcome := attemptRotate_serial a db
      change RepositoryChange db _ ((attemptRotate a).runSerial authSchema db)
      generalize (attemptRotate a).runSerial authSchema db = done at houtcome ⊢
      cases houtcome with
      | rotated hcurrent hlive hnew => exact .rotated hcurrent hnew
      | expired hcurrent hexpired => exact .unchanged (by simp [NoExchange])
      | unknown hcurrent hconsumed => exact .unchanged (by simp [NoExchange])
      | softReuse hcurrent hconsumed hgrace =>
          exact .unchanged (by simp [NoExchange])
      | hardReuse hcurrent hconsumed hgrace =>
          exact .removed (by simp [NoExchange])
      | threw fault => exact .unchanged (noExchange_error fault)
  | invalidate uid sid =>
      change RepositoryChange db _
        ((invalidateSession uid sid).runSerial authSchema db)
      by_cases hstuck : db.Stuck uid sid
      · rw [invalidateSession_error hstuck]
        exact .unchanged (noExchange_error _)
      · rw [invalidateSession_ok hstuck]
        exact .removed (by simp [NoExchange])
  | sessionCleanup now =>
      change RepositoryChange db _
        ((runSessionCleanup now).runSerial authSchema db)
      by_cases hcondition : ExpiredSessionsUnreferenced db now
      · rw [runSessionCleanup_ok hcondition]
        exact .cleaned (by simp [NoExchange]) hcondition
      · rw [runSessionCleanup_error hcondition]
        exact .swept (noExchange_error _)
  | changePassword args => cases hkind
  | login args => cases hkind

theorem Call.start_balanced {call : Call} (hkind : call.ofRepository = true) :
    call.start.Balanced false := by
  cases call with
  | create new clock => exact fun _ => rfl
  | attemptRotate a => exact (attemptRotate_atomic a).balanced
  | invalidate uid sid => exact invalidateSession_atomic.balanced
  | sessionCleanup now => exact fun _ _ => rfl
  | changePassword args => cases hkind
  | login args => cases hkind

/-- A serial history from the empty service is one of its runs. -/
theorem RepositoryHistory.reachable {settings : AuthRuntimeSettings}
    {start sys : AuthSystem} (hinitial : Initial start)
    (hhistory : RepositoryHistory settings start sys) : Reachable sys := by
  have hquiescent : start.Quiescent := by
    intro p hp
    rw [hinitial.procs] at hp
    cases hp
  refine ⟨start, hinitial, (System.SerialSteps.steps hhistory hquiescent
    (fun hnext => Call.start_balanced hnext.kind) (fun hnext => hnext.fresh)
    fun _ _ => trivial).1⟩

/-! ## What every history keeps -/

/-- The token of `args` has been exchanged. -/
def Exchanged (sys : AuthSystem) (args : AttemptRotateArgs) : Prop :=
  ∃ i refresh session,
    Returned sys i (.attemptRotate args) (.rotate (.rotated refresh session))

/-- Some call has minted this session id. -/
def Drawn (sys : AuthSystem) (id : Uuid) : Prop :=
  ∃ p ∈ sys.procs, p.call.mintedId = some id

/-- No cleanup has run at or after this instant. -/
def CleanedBefore (sys : AuthSystem) (instant : ℤ) : Prop :=
  ∀ p ∈ sys.procs, ∀ now, p.call = .sessionCleanup now → now < instant

/-- Every used row is the trace of an exchange and belongs to a stored session,
and the trace of an exchange stays until a cleanup after its window. -/
structure Tracked (sys : AuthSystem) : Prop where
  owned : ∀ u ∈ sys.db.used,
    ∃ r ∈ sys.db.sessions, r.id = u.sessionId ∧ r.userId = u.userId
  traced : ∀ u ∈ sys.db.used, ∃ b, Exchanged sys b ∧ u = b.usedRow
  drawn : ∀ {b}, Exchanged sys b → Drawn sys b.sessionId
  owner : ∀ {b}, Exchanged sys b →
    ∀ r ∈ sys.db.sessions, r.id = b.sessionId → r.userId = b.userId
  kept : ∀ {b}, Exchanged sys b → CleanedBefore sys b.usedRow.expiresAt →
    ∀ r ∈ sys.db.sessions, r.id = b.sessionId → b.usedRow ∈ sys.db.used

section Histories

variable {settings : AuthRuntimeSettings} {sys : AuthSystem} {call : Call}

theorem returned_serve {i : ℕ} {earlier : Call} {reply : Reply} :
    Returned (sys.serve call) i earlier reply ↔
      Returned sys i earlier reply ∨
        (i = sys.procs.length ∧ earlier = call ∧
          (call.start.runSerial authSchema sys.db).1 = .ok reply) := by
  constructor
  · rintro ⟨p, hi, hcall, hprog⟩
    obtain ⟨hlen, rfl⟩ | hold := System.getElem?_append_eq hi
    · refine Or.inr ⟨hlen, hcall.symm, ?_⟩
      cases houtcome : (call.start.runSerial authSchema sys.db).1 with
      | error fault =>
          rw [houtcome] at hprog
          cases hprog
      | ok reply' =>
          rw [houtcome] at hprog
          cases hprog
          rfl
    · exact Or.inl ⟨p, hold, hcall, hprog⟩
  · rintro (⟨p, hi, hcall, hprog⟩ | ⟨rfl, rfl, houtcome⟩)
    · have hlt : i < sys.procs.length := (List.getElem?_eq_some_iff.mp hi).1
      refine ⟨p, ?_, hcall, hprog⟩
      simpa [System.serve, List.getElem?_append, hlt] using hi
    · refine ⟨.fresh earlier (.ret reply), ?_, rfl, rfl⟩
      simp [System.serve, houtcome, Prog.ofOutcome]

theorem exchanged_serve {b : AttemptRotateArgs}
    (hexchanged : Exchanged (sys.serve call) b) :
    Exchanged sys b ∨ (call = .attemptRotate b ∧
      ∃ refresh session, (call.start.runSerial authSchema sys.db).1 =
        .ok (.rotate (.rotated refresh session))) := by
  obtain ⟨i, refresh, session, hreturned⟩ := hexchanged
  obtain hold | ⟨_, hcall, houtcome⟩ := returned_serve.mp hreturned
  · exact Or.inl ⟨i, refresh, session, hold⟩
  · exact Or.inr ⟨hcall.symm, refresh, session, houtcome⟩

theorem Exchanged.serve {b : AttemptRotateArgs} (hexchanged : Exchanged sys b)
    (call : Call) : Exchanged (sys.serve call) b := by
  obtain ⟨i, refresh, session, hreturned⟩ := hexchanged
  exact ⟨i, refresh, session, returned_serve.mpr (Or.inl hreturned)⟩

theorem Drawn.serve {id : Uuid} (hdrawn : Drawn sys id) (call : Call) :
    Drawn (sys.serve call) id := by
  obtain ⟨p, hp, hid⟩ := hdrawn
  exact ⟨p, List.mem_append_left _ hp, hid⟩

theorem CleanedBefore.of_serve {instant : ℤ}
    (hcleaned : CleanedBefore (sys.serve call) instant) :
    CleanedBefore sys instant :=
  fun p hp => hcleaned p (List.mem_append_left _ hp)

theorem CleanedBefore.now_lt {instant now : ℤ}
    (hcleaned : CleanedBefore (sys.serve (.sessionCleanup now)) instant) :
    now < instant :=
  hcleaned _ (List.mem_append_right _ (List.mem_singleton_self _)) now rfl

/-- A new session does not take the place of an earlier one. -/
theorem NextCall.id_ne (hnext : NextCall settings sys call) {id id' : Uuid}
    (hminted : call.mintedId = some id) (hdrawn : Drawn sys id') : id ≠ id' := by
  rintro rfl
  obtain ⟨p, hp, hid⟩ := hdrawn
  exact (hnext.fresh p hp).id hminted hid

/-- A stored session was created by a call of the history. -/
theorem Reachable.drawn (hreachable : Reachable sys) {r : SessionRow}
    (hr : r ∈ sys.db.sessions) : Drawn sys r.id := by
  obtain ⟨first, ⟨i, hi⟩, _⟩ := hreachable.sound.opened (liveOf_of_mem hr)
  obtain ⟨p, reply, hp, _, hevent⟩ := historyOf_eq_some.mp hi
  exact ⟨p, List.mem_of_getElem? hp, Call.event_openedId hevent rfl⟩

/-- A call that exchanges nothing and stores nothing. -/
theorem Tracked.serve_quiet (htracked : Tracked sys)
    (hquiet : NoExchange (call.start.runSerial authSchema sys.db).1)
    (hsessions : ∀ r ∈ (sys.serve call).db.sessions, r ∈ sys.db.sessions)
    (hused : ∀ u ∈ (sys.serve call).db.used, u ∈ sys.db.used)
    (howned : ∀ u ∈ (sys.serve call).db.used, ∀ r ∈ sys.db.sessions,
      r.id = u.sessionId → r.userId = u.userId →
        r ∈ (sys.serve call).db.sessions)
    (hkept : ∀ {b}, Exchanged sys b →
      CleanedBefore (sys.serve call) b.usedRow.expiresAt →
      ∀ r ∈ (sys.serve call).db.sessions, r.id = b.sessionId →
        b.usedRow ∈ sys.db.used → b.usedRow ∈ (sys.serve call).db.used) :
    Tracked (sys.serve call) := by
  have hold : ∀ {b}, Exchanged (sys.serve call) b → Exchanged sys b := by
    intro b hexchanged
    obtain hold | ⟨_, refresh, session, houtcome⟩ := exchanged_serve hexchanged
    · exact hold
    · exact absurd houtcome (hquiet refresh session)
  refine ⟨?_, ?_, ?_, ?_, ?_⟩
  · intro u hu
    obtain ⟨r, hr, hid, huser⟩ := htracked.owned u (hused u hu)
    exact ⟨r, howned u hu r hr hid huser, hid, huser⟩
  · intro u hu
    obtain ⟨b, hexchanged, hrow⟩ := htracked.traced u (hused u hu)
    exact ⟨b, hexchanged.serve call, hrow⟩
  · intro b hexchanged
    exact (htracked.drawn (hold hexchanged)).serve call
  · intro b hexchanged r hr hid
    exact htracked.owner (hold hexchanged) r (hsessions r hr) hid
  · intro b hexchanged hcleaned r hr hid
    exact hkept (hold hexchanged) hcleaned r hr hid
      (htracked.kept (hold hexchanged) hcleaned.of_serve r (hsessions r hr) hid)

theorem Tracked.serve_stored (htracked : Tracked sys) {new : NewUserSession}
    {clock : ℤ} (hnext : NextCall settings sys (.create new clock))
    (hnew : ∀ r ∈ sys.db.sessions, r.id ≠ new.id)
    (hrun : (createSession new clock).runSerial authSchema sys.db =
      (.ok .created,
        { sys.db with sessions := sys.db.sessions.put (new.row clock) })) :
    Tracked (sys.serve (.create new clock)) := by
  have hdb : (sys.serve (.create new clock)).db =
      { sys.db with sessions := sys.db.sessions.put (new.row clock) } :=
    congrArg Prod.snd hrun
  have hold : ∀ {b}, Exchanged (sys.serve (.create new clock)) b →
      Exchanged sys b := by
    intro b hexchanged
    obtain hold | ⟨hcall, _⟩ := exchanged_serve hexchanged
    · exact hold
    · cases hcall
  have hsame : ∀ {b}, Exchanged sys b →
      ∀ r ∈ (sys.serve (.create new clock)).db.sessions, r.id = b.sessionId →
        r ∈ sys.db.sessions := by
    intro b hexchanged r hr hid
    rw [hdb] at hr
    obtain rfl | ⟨hr, _⟩ := Table.mem_put.mp hr
    · exact absurd hid (hnext.id_ne rfl (htracked.drawn hexchanged))
    · exact hr
  refine ⟨?_, ?_, ?_, ?_, ?_⟩
  · intro u hu
    rw [hdb] at hu ⊢
    obtain ⟨r, hr, hid, huser⟩ := htracked.owned u hu
    exact ⟨r, Table.mem_put.mpr (Or.inr ⟨hr, hnew r hr⟩), hid, huser⟩
  · intro u hu
    rw [hdb] at hu
    obtain ⟨b, hexchanged, hrow⟩ := htracked.traced u hu
    exact ⟨b, hexchanged.serve _, hrow⟩
  · intro b hexchanged
    exact (htracked.drawn (hold hexchanged)).serve _
  · intro b hexchanged r hr hid
    exact htracked.owner (hold hexchanged) r
      (hsame (hold hexchanged) r hr hid) hid
  · intro b hexchanged hcleaned r hr hid
    rw [hdb]
    exact htracked.kept (hold hexchanged) hcleaned.of_serve r
      (hsame (hold hexchanged) r hr hid) hid

theorem Tracked.serve_rotated (htracked : Tracked sys)
    (hreachable : Reachable sys) {a : AttemptRotateArgs} {row : SessionRow}
    {outcome : Except Fault Reply} (hcurrent : a.current sys.db = some row)
    (hnew : ∀ u ∈ sys.db.used, u.id ≠ a.usedTokenId)
    (houtcome : ∃ refresh session,
      outcome = .ok (.rotate (.rotated refresh session)))
    (hrun : (attemptRotate a).runSerial authSchema sys.db =
      (outcome, sys.db.rotated a row)) :
    Tracked (sys.serve (.attemptRotate a)) := by
  obtain ⟨refresh, session, rfl⟩ := houtcome
  obtain ⟨hrow, hmatch⟩ := AttemptRotateArgs.current_some hcurrent
  obtain ⟨_, hid, huser⟩ := sessionHolds_iff.mp hmatch
  have hdb : (sys.serve (.attemptRotate a)).db = sys.db.rotated a row :=
    congrArg Prod.snd hrun
  have hexchanged : Exchanged (sys.serve (.attemptRotate a)) a :=
    ⟨sys.procs.length, refresh, session,
      returned_serve.mpr (Or.inr ⟨rfl, rfl, congrArg Prod.fst hrun⟩)⟩
  have hcases : ∀ {b}, Exchanged (sys.serve (.attemptRotate a)) b →
      Exchanged sys b ∨ b = a := by
    intro b hb
    obtain hold | ⟨hcall, _⟩ := exchanged_serve hb
    · exact Or.inl hold
    · exact Or.inr (Call.attemptRotate.inj hcall).symm
  -- The rotated row keeps its id and its owner.
  have hbefore : ∀ r ∈ (sys.db.rotated a row).sessions,
      ∃ r' ∈ sys.db.sessions, r'.id = r.id ∧ r'.userId = r.userId := by
    intro r hr
    obtain rfl | ⟨hr, _⟩ := Table.mem_put.mp hr
    · exact ⟨row, hrow, rfl, rfl⟩
    · exact ⟨r, hr, rfl, rfl⟩
  have hafter : ∀ r ∈ sys.db.sessions, ∃ r' ∈ (sys.db.rotated a row).sessions,
      r'.id = r.id ∧ r'.userId = r.userId := by
    intro r hr
    by_cases hkey : r.id = row.id
    · obtain rfl := Table.eq_of_key_eq hr hrow hkey
      exact ⟨_, Table.mem_put.mpr (Or.inl rfl), rfl, rfl⟩
    · exact ⟨r, Table.mem_put.mpr (Or.inr ⟨hr, hkey⟩), rfl, rfl⟩
  refine ⟨?_, ?_, ?_, ?_, ?_⟩
  · intro u hu
    rw [hdb] at hu ⊢
    obtain rfl | ⟨hu, _⟩ := Table.mem_put.mp hu
    · obtain ⟨r, hr, hrid, hruser⟩ := hafter row hrow
      exact ⟨r, hr, hrid.trans hid, hruser.trans huser⟩
    · obtain ⟨r, hr, hrid, hruser⟩ := htracked.owned u hu
      obtain ⟨r', hr', hrid', hruser'⟩ := hafter r hr
      exact ⟨r', hr', hrid'.trans hrid, hruser'.trans hruser⟩
  · intro u hu
    rw [hdb] at hu
    obtain rfl | ⟨hu, _⟩ := Table.mem_put.mp hu
    · exact ⟨a, hexchanged, rfl⟩
    · obtain ⟨b, hb, hrow⟩ := htracked.traced u hu
      exact ⟨b, hb.serve _, hrow⟩
  · intro b hb
    obtain hb | rfl := hcases hb
    · exact (htracked.drawn hb).serve _
    · rw [← hid]
      exact (hreachable.drawn hrow).serve _
  · intro b hb r hr hrid
    rw [hdb] at hr
    obtain ⟨r', hr', hrid', hruser'⟩ := hbefore r hr
    rw [← hruser']
    obtain hb | rfl := hcases hb
    · exact htracked.owner hb r' hr' (hrid'.trans hrid)
    · obtain rfl := Table.eq_of_key_eq hr' hrow
        ((hrid'.trans hrid).trans hid.symm)
      exact huser
  · intro b hb hcleaned r hr hrid
    rw [hdb] at hr ⊢
    obtain hb | rfl := hcases hb
    · obtain ⟨r', hr', hrid', _⟩ := hbefore r hr
      have hstored := htracked.kept hb hcleaned.of_serve r' hr'
        (hrid'.trans hrid)
      exact Table.mem_put.mpr (Or.inr ⟨hstored, hnew _ hstored⟩)
    · exact Table.mem_put.mpr (Or.inl rfl)

theorem Tracked.serve (htracked : Tracked sys) (hreachable : Reachable sys)
    (hnext : NextCall settings sys call) : Tracked (sys.serve call) := by
  have hchange := repositoryChange hnext.kind sys.db
  generalize hrun : call.start.runSerial authSchema sys.db = done at hchange
  have hdb : (sys.serve call).db = done.2 := congrArg Prod.snd hrun
  have hquiet : NoExchange done.1 →
      NoExchange (call.start.runSerial authSchema sys.db).1 := by
    rw [hrun]
    exact id
  cases hchange with
  | unchanged hnone =>
      apply htracked.serve_quiet (hquiet hnone)
      all_goals rw [hdb]
      · exact fun _ hr => hr
      · exact fun _ hu => hu
      · exact fun _ _ _ hr _ _ => hr
      · exact fun _ _ _ _ _ hu => hu
  | stored hnew => exact htracked.serve_stored hnext hnew hrun
  | rotated hcurrent hnew =>
      exact htracked.serve_rotated hreachable hcurrent hnew ⟨_, _, rfl⟩ hrun
  | @removed _ outcome uid sid hnone =>
      apply htracked.serve_quiet (hquiet hnone)
      all_goals rw [hdb]
      · exact fun r hr => (mem_withoutSession_sessions.mp hr).1
      · exact fun u hu => (mem_withoutSession_used.mp hu).1
      · intro u hu r hr hid huser
        refine mem_withoutSession_sessions.mpr ⟨hr, ?_⟩
        rintro ⟨hsid, huid⟩
        exact (mem_withoutSession_used.mp hu).2
          ⟨hid.symm.trans hsid, huser.symm.trans huid⟩
      · intro b hb _ r hr hid hu
        refine mem_withoutSession_used.mpr ⟨hu, ?_⟩
        rintro ⟨hsid, huid⟩
        obtain ⟨hr, hother⟩ := mem_withoutSession_sessions.mp hr
        exact hother ⟨hid.trans hsid, (htracked.owner hb r hr hid).trans huid⟩
  | swept hnone =>
      apply htracked.serve_quiet (hquiet hnone)
      all_goals rw [hdb]
      · exact fun _ hr => hr
      · exact fun u hu => (AuthDb.mem_withoutUsed.mp hu).1
      · exact fun _ _ _ hr _ _ => hr
      · intro b _ hcleaned _ _ _ hu
        exact AuthDb.mem_withoutUsed.mpr
          ⟨hu, usedExpired_eq_false.mpr hcleaned.now_lt⟩
  | cleaned hnone hcondition =>
      apply htracked.serve_quiet (hquiet hnone)
      all_goals rw [hdb]
      · exact fun r hr => (AuthDb.mem_withoutSessions.mp hr).1
      · exact fun u hu => (AuthDb.mem_withoutUsed.mp hu).1
      · intro u hu r hr hid _
        obtain ⟨hu, hlive⟩ := AuthDb.mem_withoutUsed.mp hu
        exact AuthDb.mem_withoutSessions.mpr ⟨hr, sessionExpired_eq_false.mpr
          (hcondition u hu (usedExpired_eq_false.mp hlive) r hr hid)⟩
      · intro b _ hcleaned _ _ _ hu
        exact AuthDb.mem_withoutUsed.mpr
          ⟨hu, usedExpired_eq_false.mpr hcleaned.now_lt⟩

theorem Tracked.initial (hinitial : Initial sys) : Tracked sys := by
  have hnone : ∀ {b}, ¬ Exchanged sys b := by
    rintro b ⟨i, _, _, p, hi, _⟩
    simp [hinitial.procs] at hi
  refine ⟨?_, ?_, fun hb => absurd hb hnone, fun hb => absurd hb hnone,
    fun hb => absurd hb hnone⟩
  · simp [hinitial.used]
  · simp [hinitial.used]

theorem RepositoryHistory.tracked {start : AuthSystem}
    (hinitial : Initial start)
    (hhistory : RepositoryHistory settings start sys) : Tracked sys := by
  induction hhistory with
  | refl => exact .initial hinitial
  | tail hbefore hlast ih =>
      obtain ⟨call, hnext, rfl⟩ := hlast
      exact ih.serve (RepositoryHistory.reachable hinitial hbefore) hnext

/-! ## A session that is gone stays gone -/

theorem gone_serve (hnext : NextCall settings sys call) {id : Uuid}
    (hdrawn : Drawn sys id) (hgone : ∀ r ∈ sys.db.sessions, r.id ≠ id) :
    ∀ r ∈ (sys.serve call).db.sessions, r.id ≠ id := by
  have hchange := repositoryChange hnext.kind sys.db
  generalize hrun : call.start.runSerial authSchema sys.db = done at hchange
  rw [show (sys.serve call).db = done.2 from congrArg Prod.snd hrun]
  intro r hr
  cases hchange with
  | unchanged hnone => exact hgone r hr
  | stored hnew =>
      obtain rfl | ⟨hr, _⟩ := Table.mem_put.mp hr
      · exact hnext.id_ne rfl hdrawn
      · exact hgone r hr
  | @rotated a row hcurrent hnew =>
      have hrow := (AttemptRotateArgs.current_some hcurrent).1
      obtain rfl | ⟨hr, _⟩ := Table.mem_put.mp hr
      · exact hgone row hrow
      · exact hgone r hr
  | removed hnone => exact hgone r (mem_withoutSession_sessions.mp hr).1
  | swept hnone => exact hgone r hr
  | cleaned hnone hcondition =>
      exact hgone r (AuthDb.mem_withoutSessions.mp hr).1

theorem RepositoryHistory.gone {later : AuthSystem} {id : Uuid}
    (hhistory : RepositoryHistory settings sys later) (hdrawn : Drawn sys id)
    (hgone : ∀ r ∈ sys.db.sessions, r.id ≠ id) :
    ∀ r ∈ later.db.sessions, r.id ≠ id := by
  have hboth : Drawn later id ∧ ∀ r ∈ later.db.sessions, r.id ≠ id := by
    induction hhistory with
    | refl => exact ⟨hdrawn, hgone⟩
    | tail _ hlast ih =>
        obtain ⟨call, hnext, rfl⟩ := hlast
        exact ⟨ih.1.serve call, gone_serve hnext ih.1 ih.2⟩
  exact hboth.2

/-- A rotation of a session that is not stored exchanges nothing. -/
theorem noExchange_of_gone {a : AttemptRotateArgs} {db : AuthDb}
    (hgone : ∀ r ∈ db.sessions, r.id ≠ a.sessionId) (fails : ℕ → Bool) :
    NoExchange ((attemptRotate a).run authSchema fails 0 none db).1 := by
  have houtcome := attemptRotate_outcome a db fails
  generalize (attemptRotate a).run authSchema fails 0 none db = done at houtcome ⊢
  cases houtcome with
  | rotated hcurrent hlive hnew =>
      obtain ⟨hrow, hmatch⟩ := AttemptRotateArgs.current_some hcurrent
      exact absurd (sessionHolds_iff.mp hmatch).2.1 (hgone _ hrow)
  | threw fault => exact noExchange_error fault
  | _ => simp [NoExchange]

/-! ## A replay is always recognised -/

variable {a b : AttemptRotateArgs}

/-- No session holds an exchanged token. -/
theorem Reachable.current_eq_none (hreachable : Reachable sys)
    (hexchanged : Exchanged sys b) (hold : a.oldHmac = b.oldHmac) :
    a.current sys.db = none := by
  obtain ⟨i, refresh, session, hreturned⟩ := hexchanged
  have hevent := hreturned.history rfl
  rw [AttemptRotateArgs.current, List.find?_eq_none]
  intro r hr hmatch
  obtain ⟨htoken, _⟩ := sessionHolds_iff.mp hmatch
  exact (hreachable.sound.consumed hevent).2 (liveOf_of_mem hr)
    (htoken.trans (congrArg some hold))

/-- The row that records an exchange is the one a replay finds. -/
theorem Tracked.consumed_eq (htracked : Tracked sys)
    (hreachable : Reachable sys) (hexchanged : Exchanged sys b)
    (hstored : b.usedRow ∈ sys.db.used) (hold : a.oldHmac = b.oldHmac)
    (huser : a.userId = b.userId) (hsid : a.sessionId = b.sessionId) :
    a.consumed sys.db = some b.usedRow := by
  have hholds : usedHolds a.oldHmac a.userId a.sessionId b.usedRow = true := by
    simp [usedHolds, usedOfSession, AttemptRotateArgs.usedRow, hold, huser, hsid]
  cases hfind : a.consumed sys.db with
  | none => exact absurd hholds (List.find?_eq_none.mp hfind _ hstored)
  | some u =>
      obtain ⟨b', hexchanged', rfl⟩ :=
        htracked.traced u (List.mem_of_find?_eq_some hfind)
      have hmatch : usedHolds a.oldHmac a.userId a.sessionId b'.usedRow = true :=
        List.find?_some hfind
      simp only [usedHolds, Bool.and_eq_true, decide_eq_true_eq] at hmatch
      have hsame : b'.oldHmac = b.oldHmac := hmatch.1.trans hold
      obtain ⟨i, refresh, session, hreturned⟩ := hexchanged
      obtain ⟨j, refresh', session', hreturned'⟩ := hexchanged'
      obtain rfl := hreachable.rotated_once hreturned hreturned' hsame
      obtain rfl := Call.attemptRotate.inj (hreturned.unique hreturned').1
      rfl

theorem Tracked.not_stuck (htracked : Tracked sys) (uid sid : Uuid) :
    ¬ sys.db.Stuck uid sid := by
  rintro ⟨u, hu, r, hr, hmatch, hid⟩
  obtain ⟨hu, hother⟩ := AuthDb.mem_withoutUsed.mp hu
  obtain ⟨r', hr', hid', huser'⟩ := htracked.owned u hu
  obtain rfl := Table.eq_of_key_eq hr' hr (hid'.trans hid.symm)
  simp only [sessionIs, Bool.and_eq_true, decide_eq_true_eq] at hmatch
  simp [usedOfSession, ← hid', ← huser', hmatch.1, hmatch.2] at hother

/-- The call presents the token that `b` has exchanged, for the same user and
session. -/
structure Replays (a b : AttemptRotateArgs) : Prop where
  hmac : a.oldHmac = b.oldHmac
  userId : a.userId = b.userId
  sessionId : a.sessionId = b.sessionId

/-- Replay of a consumed token: harmless within the grace period, and the end
of the session from then until the reuse window is over. -/
theorem replay_recognised
    (hwindow : settings.sessionRefreshReuseGraceSeconds <
      settings.sessionRefreshReuseWindowSeconds)
    {start : AuthSystem} (hinitial : Initial start)
    (hhistory : RepositoryHistory settings start sys)
    (hexchanged : Exchanged sys b) (hreplays : Replays a b)
    (hnext : NextCall settings sys (.attemptRotate a))
    (hlive : ∃ r ∈ sys.db.sessions, r.id = a.sessionId) :
    (a.now ≤ b.now + settings.sessionRefreshReuseGraceSeconds * 1000 →
      (attemptRotate a).runSerial authSchema sys.db =
        (.ok (.rotate .softReuse), sys.db)) ∧
    (b.now + settings.sessionRefreshReuseGraceSeconds * 1000 < a.now →
      a.now < b.now + settings.sessionRefreshReuseWindowSeconds * 1000 →
      ((attemptRotate a).runSerial authSchema sys.db).1 =
          .ok (.rotate .hardReuse) ∧
        (∀ r ∈ (sys.serve (.attemptRotate a)).db.sessions,
          r.id ≠ a.sessionId) ∧
        (∀ u ∈ (sys.serve (.attemptRotate a)).db.used,
          u.sessionId ≠ a.sessionId) ∧
        ∀ later, RepositoryHistory settings (sys.serve (.attemptRotate a)) later →
          ∀ (c : AttemptRotateArgs) (fails : ℕ → Bool),
            c.sessionId = a.sessionId →
            NoExchange ((attemptRotate c).run authSchema fails 0 none later.db).1) := by
  have hreachable := RepositoryHistory.reachable hinitial hhistory
  have htracked := RepositoryHistory.tracked hinitial hhistory
  have hfollows : ∀ p ∈ sys.procs, p.call.Follows settings := by
    clear hexchanged hnext hlive hreachable htracked
    induction hhistory with
    | refl =>
        rw [hinitial.procs]
        simp
    | tail _ hlast ih =>
        obtain ⟨call, hnext, rfl⟩ := hlast
        intro p hp
        obtain hp | hp := List.mem_append.mp hp
        · exact ih p hp
        · obtain rfl := List.mem_singleton.mp hp
          exact hnext.settings
  have hrecorded : a.now < b.now +
      settings.sessionRefreshReuseWindowSeconds * 1000 →
      a.consumed sys.db = some b.usedRow := by
    intro htime
    obtain ⟨r, hr, hid⟩ := hlive
    refine htracked.consumed_eq hreachable hexchanged ?_ hreplays.hmac
      hreplays.userId hreplays.sessionId
    refine htracked.kept hexchanged ?_ r hr (hid.trans hreplays.sessionId)
    intro p hp now hcall
    have hclock := hnext.clock p hp now (by simp [hcall, Call.instant]) a.now
      (by simp [Call.instant])
    obtain ⟨i, _, _, q, hi, hq, _⟩ := hexchanged
    have hb := hfollows q (List.mem_of_getElem? hi)
    rw [hq] at hb
    simp only [AttemptRotateArgs.usedRow, hb.2]
    omega
  have hcurrent := hreachable.current_eq_none hexchanged hreplays.hmac
  obtain ⟨hgrace, _⟩ := hnext.settings
  constructor
  · intro hearly
    refine attemptRotate_softReuse hcurrent (hrecorded (by omega)) ?_
    rw [hgrace]
    exact hearly
  · intro hlate htime
    have hrun : (attemptRotate a).runSerial authSchema sys.db =
        (.ok (.rotate .hardReuse), sys.db.withoutSession a.userId a.sessionId) := by
      refine attemptRotate_hardReuse hcurrent (hrecorded htime) ?_
        (htracked.not_stuck _ _)
      rw [hgrace]
      exact hlate
    have hdb : (sys.serve (.attemptRotate a)).db =
        sys.db.withoutSession a.userId a.sessionId :=
      congrArg Prod.snd hrun
    have hgone : ∀ r ∈ (sys.serve (.attemptRotate a)).db.sessions,
        r.id ≠ a.sessionId := by
      intro r hr hid
      rw [hdb] at hr
      obtain ⟨hr, hother⟩ := mem_withoutSession_sessions.mp hr
      have howner := htracked.owner hexchanged r hr
        (hid.trans hreplays.sessionId)
      exact hother ⟨hid, howner.trans hreplays.userId.symm⟩
    refine ⟨congrArg Prod.fst hrun, hgone, ?_, ?_⟩
    · intro u hu hsid
      have htracked' := htracked.serve hreachable hnext
      obtain ⟨r, hr, hid, _⟩ := htracked'.owned u hu
      exact hgone r hr (hid.trans hsid)
    · intro later hlater c fails hsame
      have hdrawn : Drawn (sys.serve (.attemptRotate a)) a.sessionId := by
        rw [hreplays.sessionId]
        exact (htracked.drawn hexchanged).serve _
      apply noExchange_of_gone
      rw [hsame]
      exact hlater.gone hdrawn hgone

end Histories

/-- A session whose token is exchanged at ten seconds; the cleanup runs at
twenty. -/
def replayedHistory : AuthSystem :=
  ((sampleStart.serve (.create sampleSession 0)).serve
    (.attemptRotate (defaultRotation "hmac 1" "h2" 20 10000))).serve
      (.sessionCleanup 20000)

theorem replayedHistory_history :
    RepositoryHistory defaultSettings sampleStart replayedHistory := by
  refine ((Relation.ReflTransGen.single ⟨_, ?_, rfl⟩).tail ⟨_, ?_, rfl⟩).tail
    ⟨_, ?_, rfl⟩
  · decide +kernel
  · decide +kernel
  · decide +kernel

/-- The exchanged token is presented again after twelve and after thirty
seconds. -/
theorem replayedHistory_recognised :
    (attemptRotate (defaultRotation "hmac 1" "h3" 21 22000)).runSerial authSchema
        replayedHistory.db = (.ok (.rotate .softReuse), replayedHistory.db) ∧
      ((attemptRotate (defaultRotation "hmac 1" "h3" 21 40000)).runSerial
        authSchema replayedHistory.db).1 = .ok (.rotate .hardReuse) := by
  have hexchanged : Exchanged replayedHistory
      (defaultRotation "hmac 1" "h2" 20 10000) := by
    refine ⟨1, 604810000, 2592000000, _, rfl, rfl, ?_⟩
    have houtcome : ((attemptRotate (defaultRotation "hmac 1" "h2" 20
        10000)).runSerial authSchema
        (sampleStart.serve (.create sampleSession 0)).db).1 =
        .ok (.rotate (.rotated 604810000 2592000000)) := by
      decide +kernel
    exact congrArg Prog.ofOutcome houtcome
  have hlive : ∃ r ∈ replayedHistory.db.sessions, r.id = 10 := by
    decide +kernel
  have hearly : NextCall defaultSettings replayedHistory
      (.attemptRotate (defaultRotation "hmac 1" "h3" 21 22000)) := by
    decide +kernel
  have hlate : NextCall defaultSettings replayedHistory
      (.attemptRotate (defaultRotation "hmac 1" "h3" 21 40000)) := by
    decide +kernel
  have hreplays : ∀ now, Replays (defaultRotation "hmac 1" "h3" 21 now)
      (defaultRotation "hmac 1" "h2" 20 10000) :=
    fun _ => ⟨rfl, rfl, rfl⟩
  constructor
  · exact (replay_recognised (by decide) sampleStart_initial
      replayedHistory_history hexchanged (hreplays 22000) hearly hlive).1
      (by decide)
  · exact ((replay_recognised (by decide) sampleStart_initial
      replayedHistory_history hexchanged (hreplays 40000) hlate hlive).2
      (by decide) (by decide)).1

end Untangled.Auth
