import Untangled.RefreshCookies
import Untangled.SessionReplay

/-!
# Tabs that share a refresh cookie

The tabs of a browser send their refreshes with the cookie that it holds at that
instant, and several may be under way at once.  The token is rotated by the first
that arrives, so that the others come with a consumed one.  As long as a message
takes no longer than half the reuse grace, none of them is taken for a replay.
-/

namespace Untangled.BrowserTabs

open Auth ReadCommitted TokenLedger

/-! ## The browser and the service -/

/-- A refresh under way: the token it came with and, once the service has
answered, when that was and the token that the answer sets. -/
structure Flight where
  token : String
  sentAt : ℤ
  answer : Option (ℤ × Option String)

/-- Since when its message is under way. -/
def Flight.since (f : Flight) : ℤ :=
  match f.answer with
  | none => f.sentAt
  | some (servedAt, _) => servedAt

structure Tabs where
  now : ℤ
  sys : AuthSystem
  cookie : String
  flights : List Flight

section Setting

variable (settings : AuthRuntimeSettings) (hmacOf : String → String) (uid sid : Uuid)
  (delay : ℤ)

/-- A run of the refresh pipeline for the session at `t`, whose access token
verifies and whose collaborators answer. -/
structure Serving (t : ℤ) (token : String) (deps : RefreshPipelineDeps)
    (ctx : RefreshRequestContext) : Prop where
  clock : deps.now = t
  settings : deps.settings = settings
  hmac : deps.hmacRefreshToken = hmacOf
  drawn : deps.drawT ≠ none
  access : ∃ access payload, ctx.accessToken = some access ∧
    deps.verifyAccessToken access = some payload ∧ payload.sub = uid ∧
    payload.sid = some sid ∧ payload.passwordChangeRequired = false
  refresh : ctx.refreshToken = some token
  signs : ∀ payload, deps.signAccessToken payload ≠ none
  audits : ∀ event, deps.auditOk event = true
  lasts : deps.rotateFails = fun _ => false

/-- A call for another session. -/
def Elsewhere : Call → Prop
  | .attemptRotate args => args.sessionId ≠ sid
  | .invalidate _ id => id ≠ sid
  | _ => True

/-- The token that the answer of `handle_refresh` sets. -/
def setBy : RefreshPipelineResult → Option String
  | .success refreshToken _ _ _ => some refreshToken
  | _ => none

/-- No message is longer under way than `delay`. -/
def InTime (t : ℤ) (b : Tabs) : Prop :=
  b.now ≤ t ∧ ∀ f ∈ b.flights, t ≤ f.since + delay

inductive Step : Tabs → Tabs → Prop
  | send {b} (t : ℤ) (htime : InTime delay t b) :
      Step b { b with now := t, flights := b.flights ++ [⟨b.cookie, t, none⟩] }
  | serve {b before f after} (t : ℤ) (htime : InTime delay t b) (deps ctx)
      (hflights : b.flights = before ++ f :: after) (hwaiting : f.answer = none)
      (hserving : Serving settings hmacOf uid sid t f.token deps ctx)
      (hnext : NextCall settings b.sys (.attemptRotate (rotateArgs deps ctx uid sid f.token))) :
      Step b
        { b with
          now := t
          sys := b.sys.serve (.attemptRotate (rotateArgs deps ctx uid sid f.token))
          flights := before ++
            { f with answer := some (t, setBy (runRefreshPipeline deps ctx b.sys.db).result) } ::
              after }
  | deliver {b before f after servedAt set} (t : ℤ) (htime : InTime delay t b)
      (hflights : b.flights = before ++ f :: after) (hanswer : f.answer = some (servedAt, set)) :
      Step b { b with now := t, cookie := set.getD b.cookie, flights := before ++ after }
  | other {b} (t : ℤ) (htime : InTime delay t b) (call : Call)
      (hnext : NextCall settings b.sys call) (helsewhere : Elsewhere sid call) :
      Step b { b with now := t, sys := b.sys.serve call }

end Setting

/-! ## The pipeline and the repository -/

section Pipeline

variable {settings : AuthRuntimeSettings} {hmacOf : String → String} {uid sid : Uuid}
  {t : ℤ} {token : String} {deps : RefreshPipelineDeps} {ctx : RefreshRequestContext}

theorem Serving.runRefreshPipeline_eq
    (h : Serving settings hmacOf uid sid t token deps ctx) (db : AuthDb) :
    ∃ payload : AccessPayload, payload.sub = uid ∧
      runRefreshPipeline deps ctx db = refreshRotate deps ctx payload sid token db := by
  obtain ⟨access, payload, haccess, hverify, hsub, hsid, hchange⟩ := h.access
  refine ⟨payload, hsub, ?_⟩
  unfold runRefreshPipeline
  cases hdrawn : deps.drawT with
  | none => exact absurd hdrawn h.drawn
  | some ms => simp [haccess, hverify, hsid, h.refresh, hchange]

/-- What one refresh finds, answers and leaves. -/
inductive Served (a : AttemptRotateArgs) (newRefresh : String) (db : AuthDb) :
    Except Fault Reply → RefreshPipelineResult → AuthDb → Prop
  | rotated {row result refresh session} (hcurrent : a.current db = some row)
      (hset : setBy result = some newRefresh) :
      Served a newRefresh db (.ok (.rotate (.rotated refresh session))) result
        (db.rotated a row)
  | soft : Served a newRefresh db (.ok (.rotate .softReuse)) .soft db
  | replayed {u} (hcurrent : a.current db = none) (hconsumed : a.consumed db = some u) :
      Served a newRefresh db (.ok (.rotate .hardReuse)) .hard
        (db.withoutSession a.userId a.sessionId)
  | expired {row} (hcurrent : a.current db = some row) (hexpired : a.expired row = true) :
      Served a newRefresh db (.ok (.rotate .expired)) .hard db
  | unknown (hcurrent : a.current db = none) :
      Served a newRefresh db (.ok (.rotate .unknown)) .hard db
  | threw (fault) : Served a newRefresh db (.error fault) .internalError db

theorem failHard_audited
    (hfails : ∀ event, deps.auditOk event = true) (reason : String) (userId : Option Uuid)
    (invalidate : Option (Uuid × Uuid)) (db : AuthDb) (steps : List PipelineStep) :
    (failHard deps ctx reason userId invalidate db steps).result = .hard ∧
      (failHard deps ctx reason userId invalidate db steps).db = db := by
  unfold failHard
  simp [hfails]

theorem refreshReplayed_audited
    (hfails : ∀ event, deps.auditOk event = true) (userId : Uuid) (db : AuthDb)
    (steps : List PipelineStep) :
    (refreshReplayed deps ctx userId db steps).result = .hard ∧
      (refreshReplayed deps ctx userId db steps).db = db := by
  unfold refreshReplayed
  simp [hfails]

theorem refreshRotated_audited
    (h : Serving settings hmacOf uid sid t token deps ctx) (payload : AccessPayload)
    (refreshExpiresAt : ℤ) (db : AuthDb) (steps : List PipelineStep) :
    setBy (refreshRotated deps ctx payload sid refreshExpiresAt db steps).result =
        some deps.newRefresh ∧
      (refreshRotated deps ctx payload sid refreshExpiresAt db steps).db = db := by
  unfold refreshRotated
  split
  · cases hsigned : deps.signAccessToken (freshAccess deps payload.sub sid) with
    | none => exact absurd hsigned (h.signs _)
    | some token => simp [refreshAudited, h.audits, setBy]
  · simp [refreshAudited, h.audits, setBy]

/-- A refresh leaves what its rotation does. -/
theorem Serving.served
    (h : Serving settings hmacOf uid sid t token deps ctx) (db : AuthDb) :
    (runRefreshPipeline deps ctx db).db =
        ((attemptRotate (rotateArgs deps ctx uid sid token)).runSerial authSchema db).2 ∧
      Served (rotateArgs deps ctx uid sid token) deps.newRefresh db
        ((attemptRotate (rotateArgs deps ctx uid sid token)).runSerial authSchema db).1
        (runRefreshPipeline deps ctx db).result
        ((attemptRotate (rotateArgs deps ctx uid sid token)).runSerial authSchema db).2 := by
  obtain ⟨payload, hsub, hrun⟩ := h.runRefreshPipeline_eq db
  have hserial : (attemptRotate (rotateArgs deps ctx uid sid token)).run authSchema
      deps.rotateFails 0 none db =
        (attemptRotate (rotateArgs deps ctx uid sid token)).runSerial authSchema db := by
    rw [h.lasts]
    rfl
  have houtcome := attemptRotate_serial (rotateArgs deps ctx uid sid token) db
  rw [hrun]
  unfold refreshRotate
  dsimp only
  rw [hsub, hserial]
  generalize (attemptRotate (rotateArgs deps ctx uid sid token)).runSerial authSchema db = done
    at houtcome ⊢
  have hends : ∀ {outcome result db'} {run : RefreshRun}, run.result = result ∧ run.db = db' →
      Served (rotateArgs deps ctx uid sid token) deps.newRefresh db outcome result db' →
      run.db = db' ∧ Served (rotateArgs deps ctx uid sid token) deps.newRefresh db outcome
        run.result db' := by
    intro outcome result db' run hends hserved
    rw [hends.1]
    exact ⟨hends.2, hserved⟩
  cases houtcome with
  | rotated hcurrent hlive hnew =>
      obtain ⟨hset, hdb⟩ := refreshRotated_audited h payload _ _ _
      exact ⟨hdb, .rotated hcurrent hset⟩
  | expired hcurrent hexpired =>
      exact hends (failHard_audited h.audits _ _ _ _ _) (.expired hcurrent hexpired)
  | unknown hcurrent hconsumed =>
      exact hends (failHard_audited h.audits _ _ _ _ _) (.unknown hcurrent)
  | softReuse hcurrent hconsumed hgrace => exact ⟨rfl, .soft⟩
  | hardReuse hcurrent hconsumed hgrace =>
      exact hends (refreshReplayed_audited h.audits _ _ _) (.replayed hcurrent hconsumed)
  | threw fault => exact ⟨rfl, .threw fault⟩

end Pipeline

/-! ## What every run keeps -/

/-- The answer is about to set a token. -/
def Flight.setsToken (f : Flight) : Bool :=
  match f.answer with
  | some (_, some _) => true
  | _ => false

/-- The token of this HMAC has been exchanged at `t`. -/
def ExchangedAt (sys : AuthSystem) (uid sid : Uuid) (hmac : String) (t : ℤ) : Prop :=
  ∃ a, Exchanged sys a ∧ a.userId = uid ∧ a.sessionId = sid ∧ a.oldHmac = hmac ∧ a.now = t

/-- The session, where it is stored, has the token of this HMAC. -/
def Holds (sys : AuthSystem) (sid : Uuid) (hmac : String) : Prop :=
  ∀ r ∈ sys.db.sessions, r.id = sid → r.refreshHmac = some hmac

/-- The browser has the current token, or the answer that sets it is under way
and its own token has been exchanged for that one. -/
def Current (hmacOf : String → String) (uid sid : Uuid) (b : Tabs) : Prop :=
  (b.flights.filter Flight.setsToken = [] ∧ Holds b.sys sid (hmacOf b.cookie)) ∨
    ∃ f servedAt token, b.flights.filter Flight.setsToken = [f] ∧
      f.answer = some (servedAt, some token) ∧
      ExchangedAt b.sys uid sid (hmacOf b.cookie) servedAt ∧ Holds b.sys sid (hmacOf token)

structure Shared (settings : AuthRuntimeSettings) (start : AuthSystem)
    (hmacOf : String → String) (uid sid : Uuid) (delay : ℤ) (b : Tabs) : Prop where
  history : RepositoryHistory settings start b.sys
  drawn : Drawn b.sys sid
  owner : ∀ r ∈ b.sys.db.sessions, r.id = sid → r.userId = uid
  past : ∀ f ∈ b.flights, f.since ≤ b.now
  /-- A waiting refresh comes with the token of the browser, or left soon after
  its own was exchanged. -/
  waiting : ∀ f ∈ b.flights, f.answer = none → f.token = b.cookie ∨
    ∃ t, ExchangedAt b.sys uid sid (hmacOf f.token) t ∧ f.sentAt ≤ t + delay
  current : Current hmacOf uid sid b

theorem ExchangedAt.serve
    {sys : AuthSystem} {uid sid : Uuid} {hmac : String} {t : ℤ}
    (h : ExchangedAt sys uid sid hmac t) (call : Call) :
    ExchangedAt (sys.serve call) uid sid hmac t := by
  obtain ⟨a, hexchanged, hsession⟩ := h
  exact ⟨a, hexchanged.serve call, hsession⟩

section Runs

variable {settings : AuthRuntimeSettings} {hmacOf : String → String} {uid sid : Uuid}
  {delay : ℤ} {start : AuthSystem} {b b' : Tabs}

/-- A call for another session changes no row of this one. -/
theorem mem_sessions_of_elsewhere
    {sys : AuthSystem} {call : Call} {r : SessionRow}
    (hnext : NextCall settings sys call) (helsewhere : Elsewhere sid call)
    (hdrawn : Drawn sys sid) (hr : r ∈ (sys.serve call).db.sessions) (hid : r.id = sid) :
    r ∈ sys.db.sessions := by
  have hchange := repositoryChange hnext.kind sys.db
  generalize hrun : call.start.runSerial authSchema sys.db = done at hchange
  rw [show (sys.serve call).db = done.2 from congrArg Prod.snd hrun] at hr
  cases hchange with
  | unchanged hnone => exact hr
  | @stored new clock hnew =>
      cases Table.mem_put.mp hr with
      | inl h =>
          rw [h] at hid
          exact absurd hid (hnext.id_ne rfl hdrawn)
      | inr h => exact h.1
  | @rotated a row hcurrent hnew =>
      obtain ⟨_, hmatch⟩ := AttemptRotateArgs.current_some hcurrent
      cases Table.mem_put.mp hr with
      | inl h =>
          rw [h] at hid
          exact absurd ((sessionHolds_iff.mp hmatch).2.1.symm.trans hid) helsewhere
      | inr h => exact h.1
  | removed hnone => exact (mem_withoutSession_sessions.mp hr).1
  | swept hnone => exact hr
  | cleaned hnone hcondition => exact (AuthDb.mem_withoutSessions.mp hr).1

/-- A waiting refresh comes with the current token, or with one that was
exchanged a short time ago. -/
theorem Shared.waiting_cases
    {f : Flight} {t : ℤ}
    (h : Shared settings start hmacOf uid sid delay b) (htime : InTime delay t b)
    (hf : f ∈ b.flights) (hwaiting : f.answer = none) :
    (f.token = b.cookie ∧ b.flights.filter Flight.setsToken = [] ∧
        Holds b.sys sid (hmacOf b.cookie)) ∨
      ∃ u, ExchangedAt b.sys uid sid (hmacOf f.token) u ∧ t ≤ u + 2 * delay := by
  have hsince : f.since = f.sentAt := by
    simp [Flight.since, hwaiting]
  have hlate := htime.2 f hf
  have hdelay : 0 ≤ delay := by
    have hpast := h.past f hf
    have hnow := htime.1
    omega
  cases h.waiting f hf hwaiting with
  | inr hold =>
      obtain ⟨u, hexchanged, hsent⟩ := hold
      exact .inr ⟨u, hexchanged, by omega⟩
  | inl hcookie =>
      cases h.current with
      | inl hsettled => exact .inl ⟨hcookie, hsettled⟩
      | inr hpending =>
          obtain ⟨g, servedAt, token, hfilter, hanswer, hexchanged, hholds⟩ := hpending
          have hg : g ∈ b.flights := by
            have hmem : g ∈ b.flights.filter Flight.setsToken := by
              rw [hfilter]
              exact List.mem_cons_self
            exact (List.mem_filter.mp hmem).1
          have hdue := htime.2 g hg
          simp only [Flight.since, hanswer] at hdue
          rw [hcookie]
          exact .inr ⟨servedAt, hexchanged, by omega⟩

/-- What a refresh of one of the tabs does to the session. -/
inductive Fate (a : AttemptRotateArgs) (newRefresh : String) (sys : AuthSystem) :
    RefreshPipelineResult → Prop
  | rotated {row result} (hcurrent : a.current sys.db = some row)
      (hset : setBy result = some newRefresh)
      (hexchanged : Exchanged (sys.serve (.attemptRotate a)) a)
      (hdb : (sys.serve (.attemptRotate a)).db = sys.db.rotated a row) :
      Fate a newRefresh sys result
  | soft (hdb : (sys.serve (.attemptRotate a)).db = sys.db) : Fate a newRefresh sys .soft
  | expired {row} (hcurrent : a.current sys.db = some row) (hexpired : a.expired row = true)
      (hdb : (sys.serve (.attemptRotate a)).db = sys.db) :
      Fate a newRefresh sys .hard
  | gone (hgone : ∀ r ∈ sys.db.sessions, r.id ≠ a.sessionId)
      (hdb : (sys.serve (.attemptRotate a)).db = sys.db) : Fate a newRefresh sys .hard
  | threw (hdb : (sys.serve (.attemptRotate a)).db = sys.db) :
      Fate a newRefresh sys .internalError

section Serve

variable {f : Flight} {t : ℤ} {deps : RefreshPipelineDeps} {ctx : RefreshRequestContext}

theorem Shared.fate
    (h : Shared settings start hmacOf uid sid delay b) (hinitial : Initial start)
    (hgrace : 2 * delay ≤ settings.sessionRefreshReuseGraceSeconds * 1000)
    (hwindow : settings.sessionRefreshReuseGraceSeconds <
      settings.sessionRefreshReuseWindowSeconds)
    (htime : InTime delay t b) (hf : f ∈ b.flights) (hwaiting : f.answer = none)
    (hserving : Serving settings hmacOf uid sid t f.token deps ctx)
    (hnext : NextCall settings b.sys
      (.attemptRotate (rotateArgs deps ctx uid sid f.token))) :
    Fate (rotateArgs deps ctx uid sid f.token) deps.newRefresh b.sys
      (runRefreshPipeline deps ctx b.sys.db).result := by
  have htracked := RepositoryHistory.tracked hinitial h.history
  have hserved := (hserving.served b.sys.db).2
  have hhmac : (rotateArgs deps ctx uid sid f.token).oldHmac = hmacOf f.token := by
    rw [← hserving.hmac]
    rfl
  have hnow : (rotateArgs deps ctx uid sid f.token).now = t := hserving.clock
  have hsid : (rotateArgs deps ctx uid sid f.token).sessionId = sid := rfl
  have huid : (rotateArgs deps ctx uid sid f.token).userId = uid := rfl
  generalize rotateArgs deps ctx uid sid f.token = a at *
  generalize (runRefreshPipeline deps ctx b.sys.db).result = result at hserved ⊢
  have hexchanged : ∀ {refresh session}, ((attemptRotate a).runSerial authSchema b.sys.db).1 =
      .ok (.rotate (.rotated refresh session)) →
        Exchanged (b.sys.serve (.attemptRotate a)) a := by
    intro refresh session houtcome
    exact ⟨b.sys.procs.length, refresh, session, returned_serve.mpr (.inr ⟨rfl, rfl, houtcome⟩)⟩
  have hdb : (b.sys.serve (.attemptRotate a)).db =
      ((attemptRotate a).runSerial authSchema b.sys.db).2 := rfl
  cases hdone : (attemptRotate a).runSerial authSchema b.sys.db with
  | mk outcome db' =>
      rw [hdone] at hserved hexchanged hdb
      by_cases hstored : ∃ r ∈ b.sys.db.sessions, r.id = sid
      · cases h.waiting_cases htime hf hwaiting with
        | inl hnow =>
            -- the token of the stored row
            have hsome : a.current b.sys.db ≠ none := by
              intro hnone
              obtain ⟨r, hr, hid⟩ := hstored
              apply List.find?_eq_none.mp hnone r hr
              apply sessionHolds_iff.mpr
              rw [hhmac, hnow.1, huid, hsid]
              exact ⟨hnow.2.2 r hr hid, hid, h.owner r hr hid⟩
            cases hserved with
            | rotated hcurrent hset => exact .rotated hcurrent hset (hexchanged rfl) hdb
            | soft => exact .soft hdb
            | replayed hcurrent hconsumed => exact absurd hcurrent hsome
            | expired hcurrent hexpired => exact .expired hcurrent hexpired hdb
            | unknown hcurrent => exact absurd hcurrent hsome
            | threw fault => exact .threw hdb
        | inr hold =>
            obtain ⟨u, ⟨c, hc, hcuid, hcsid, hchmac, rfl⟩, hearly⟩ := hold
            have hreplays : Replays a c :=
              ⟨hhmac.trans hchmac.symm, huid.trans hcuid.symm, hsid.trans hcsid.symm⟩
            rw [← hsid] at hstored
            have hsoft := (replay_recognised hwindow hinitial h.history hc hreplays hnext
              hstored).1 (by omega)
            rw [hsoft] at hdone
            cases hdone
            cases hserved with
            | soft => exact .soft hdb
      · have hgone : ∀ r ∈ b.sys.db.sessions, r.id ≠ a.sessionId := by
          intro r hr hid
          exact hstored ⟨r, hr, hid.trans hsid⟩
        have hnone : a.current b.sys.db = none := by
          apply List.find?_eq_none.mpr
          intro r hr hmatch
          exact hgone r hr (sessionHolds_iff.mp hmatch).2.1
        cases hserved with
        | rotated hcurrent hset =>
            rw [hnone] at hcurrent
            cases hcurrent
        | soft => exact .soft hdb
        | @replayed u hcurrent hconsumed =>
            obtain ⟨r, hr, hid, _⟩ := htracked.owned u (List.mem_of_find?_eq_some hconsumed)
            have hmatch : usedHolds a.oldHmac a.userId a.sessionId u = true :=
              List.find?_some hconsumed
            simp only [usedHolds, usedOfSession, Bool.and_eq_true, decide_eq_true_eq] at hmatch
            exact absurd (hid.trans hmatch.2.1) (hgone r hr)
        | expired hcurrent hexpired =>
            rw [hnone] at hcurrent
            cases hcurrent
        | unknown hcurrent => exact .gone hgone hdb
        | threw fault => exact .threw hdb

end Serve

/-! ## Steps -/

theorem Current.keeps
    {sys : AuthSystem} {flights : List Flight} {now : ℤ}
    (h : Current hmacOf uid sid b)
    (hsessions : ∀ r ∈ sys.db.sessions, r.id = sid → r ∈ b.sys.db.sessions)
    (hsys : ∀ {hmac t}, ExchangedAt b.sys uid sid hmac t → ExchangedAt sys uid sid hmac t)
    (hflights : flights.filter Flight.setsToken = b.flights.filter Flight.setsToken) :
    Current hmacOf uid sid { now := now, sys := sys, cookie := b.cookie, flights := flights } := by
  have hkeeps : ∀ hmac, Holds b.sys sid hmac → Holds sys sid hmac :=
    fun hmac hholds r hr hid => hholds r (hsessions r hr hid) hid
  cases h with
  | inl hsettled => exact .inl ⟨hflights.trans hsettled.1, hkeeps _ hsettled.2⟩
  | inr hpending =>
      obtain ⟨f, servedAt, token, hfilter, hanswer, hexchanged, hholds⟩ := hpending
      exact .inr ⟨f, servedAt, token, hflights.trans hfilter, hanswer, hsys hexchanged,
        hkeeps _ hholds⟩

theorem Shared.send
    {t : ℤ}
    (h : Shared settings start hmacOf uid sid delay b) (htime : InTime delay t b) :
    Shared settings start hmacOf uid sid delay
      { b with now := t, flights := b.flights ++ [⟨b.cookie, t, none⟩] } := by
  constructor
  · exact h.history
  · exact h.drawn
  · exact h.owner
  · intro f hf
    rcases List.mem_append.mp hf with hf | hf
    · exact (h.past f hf).trans htime.1
    · rw [List.mem_singleton.mp hf]
      exact le_refl t
  · intro f hf hwaiting
    rcases List.mem_append.mp hf with hf | hf
    · exact h.waiting f hf hwaiting
    · rw [List.mem_singleton.mp hf]
      exact .inl rfl
  · apply h.current.keeps (fun r hr _ => hr) id
    rw [List.filter_append]
    exact List.append_nil _

theorem Shared.other
    {t : ℤ} {call : Call}
    (h : Shared settings start hmacOf uid sid delay b) (htime : InTime delay t b)
    (hnext : NextCall settings b.sys call) (helsewhere : Elsewhere sid call) :
    Shared settings start hmacOf uid sid delay { b with now := t, sys := b.sys.serve call } := by
  have hrows := fun r hr hid =>
    @mem_sessions_of_elsewhere settings sid b.sys call r hnext helsewhere h.drawn hr hid
  constructor
  · exact h.history.tail ⟨call, hnext, rfl⟩
  · exact h.drawn.serve call
  · exact fun r hr hid => h.owner r (hrows r hr hid) hid
  · exact fun f hf => (h.past f hf).trans htime.1
  · intro f hf hwaiting
    cases h.waiting f hf hwaiting with
    | inl hcookie => exact .inl hcookie
    | inr hold =>
        obtain ⟨u, hexchanged, hsent⟩ := hold
        exact .inr ⟨u, hexchanged.serve call, hsent⟩
  · exact h.current.keeps hrows (fun hexchanged => hexchanged.serve call) rfl

theorem Shared.deliver
    {before after : List Flight} {f : Flight} {t servedAt : ℤ} {set : Option String}
    (h : Shared settings start hmacOf uid sid delay b) (htime : InTime delay t b)
    (hflights : b.flights = before ++ f :: after) (hanswer : f.answer = some (servedAt, set)) :
    Shared settings start hmacOf uid sid delay
      { b with now := t, cookie := set.getD b.cookie, flights := before ++ after } := by
  have hmem : ∀ g ∈ before ++ after, g ∈ b.flights := by
    intro g hg
    rw [hflights]
    rcases List.mem_append.mp hg with hg | hg
    · exact List.mem_append_left _ hg
    · exact List.mem_append_right _ (List.mem_cons_of_mem f hg)
  have hpast : ∀ g ∈ before ++ after, g.since ≤ t :=
    fun g hg => (h.past g (hmem g hg)).trans htime.1
  have hf : f ∈ b.flights := by
    rw [hflights]
    exact List.mem_append_right _ List.mem_cons_self
  have hfilter : b.flights.filter Flight.setsToken =
      before.filter Flight.setsToken ++ (f :: after).filter Flight.setsToken := by
    rw [hflights, List.filter_append]
  cases set with
  | none =>
      have hnot : f.setsToken = false := by
        simp [Flight.setsToken, hanswer]
      refine ⟨h.history, h.drawn, h.owner, hpast, fun g hg => h.waiting g (hmem g hg), ?_⟩
      apply h.current.keeps (fun r hr _ => hr) id
      rw [hfilter, List.filter_cons, hnot, List.filter_append]
      rfl
  | some token =>
      have hsets : f.setsToken = true := by
        simp [Flight.setsToken, hanswer]
      rw [List.filter_cons, hsets, if_pos rfl] at hfilter
      cases h.current with
      | inl hsettled =>
          rw [hsettled.1] at hfilter
          simp at hfilter
      | inr hpending =>
          obtain ⟨g, s, tok, hone, hg, hexchanged, hholds⟩ := hpending
          rw [hone] at hfilter
          have hparts : before.filter Flight.setsToken = [] ∧ g = f ∧
              after.filter Flight.setsToken = [] := by
            cases hbefore : before.filter Flight.setsToken with
            | nil =>
                rw [hbefore] at hfilter
                simp only [List.nil_append, List.cons.injEq] at hfilter
                exact ⟨rfl, hfilter.1, hfilter.2.symm⟩
            | cons x rest =>
                rw [hbefore] at hfilter
                simp at hfilter
          obtain ⟨hbefore, rfl, hafter⟩ := hparts
          rw [hanswer] at hg
          cases hg
          refine ⟨h.history, h.drawn, h.owner, hpast, ?_, .inl ⟨?_, hholds⟩⟩
          · intro q hq hwaiting
            cases h.waiting q (hmem q hq) hwaiting with
            | inr hold => exact .inr hold
            | inl hcookie =>
                -- it left before this answer came
                have hsent := h.past q (hmem q hq)
                have hdue := htime.2 g hf
                have hnow := htime.1
                simp only [Flight.since, hwaiting, hanswer] at hsent hdue
                rw [hcookie]
                exact .inr ⟨servedAt, hexchanged, by omega⟩
          · rw [List.filter_append, hbefore, hafter]
            rfl

theorem Shared.serve
    {before after : List Flight} {f : Flight} {t : ℤ} {deps : RefreshPipelineDeps}
    {ctx : RefreshRequestContext}
    (h : Shared settings start hmacOf uid sid delay b) (hinitial : Initial start)
    (htime : InTime delay t b) (hflights : b.flights = before ++ f :: after)
    (hwaiting : f.answer = none) (hserving : Serving settings hmacOf uid sid t f.token deps ctx)
    (hnext : NextCall settings b.sys (.attemptRotate (rotateArgs deps ctx uid sid f.token)))
    (hfate : Fate (rotateArgs deps ctx uid sid f.token) deps.newRefresh b.sys
      (runRefreshPipeline deps ctx b.sys.db).result) :
    Shared settings start hmacOf uid sid delay
      { b with
        now := t
        sys := b.sys.serve (.attemptRotate (rotateArgs deps ctx uid sid f.token))
        flights := before ++
          { f with answer := some (t, setBy (runRefreshPipeline deps ctx b.sys.db).result) } ::
            after } := by
  have hreachable := RepositoryHistory.reachable hinitial h.history
  have hf : f ∈ b.flights := by
    rw [hflights]
    exact List.mem_append_right _ List.mem_cons_self
  have hhmac : (rotateArgs deps ctx uid sid f.token).oldHmac = hmacOf f.token := by
    rw [← hserving.hmac]
    rfl
  have hnew : (rotateArgs deps ctx uid sid f.token).newHmac = hmacOf deps.newRefresh := by
    rw [← hserving.hmac]
    rfl
  have hnow : (rotateArgs deps ctx uid sid f.token).now = t := hserving.clock
  have hsid : (rotateArgs deps ctx uid sid f.token).sessionId = sid := rfl
  have huid : (rotateArgs deps ctx uid sid f.token).userId = uid := rfl
  generalize rotateArgs deps ctx uid sid f.token = a at *
  generalize (runRefreshPipeline deps ctx b.sys.db).result = result at *
  have hnotSet : f.setsToken = false := by
    simp [Flight.setsToken, hwaiting]
  have hothers : ∀ g ∈ before ++ { f with answer := some (t, setBy result) } :: after,
      g = { f with answer := some (t, setBy result) } ∨ g ∈ b.flights := by
    intro g hg
    rw [hflights]
    rcases List.mem_append.mp hg with hg | hg
    · exact .inr (List.mem_append_left _ hg)
    · cases hg with
      | head => exact .inl rfl
      | tail _ hg => exact .inr (List.mem_append_right _ (List.mem_cons_of_mem f hg))
  have hpast : ∀ g ∈ before ++ { f with answer := some (t, setBy result) } :: after,
      g.since ≤ t := by
    intro g hg
    cases hothers g hg with
    | inl h => rw [h]; exact le_refl t
    | inr hold => exact (h.past g hold).trans htime.1
  have hwaits : ∀ g ∈ before ++ { f with answer := some (t, setBy result) } :: after,
      g.answer = none → g.token = b.cookie ∨
        ∃ u, ExchangedAt (b.sys.serve (.attemptRotate a)) uid sid (hmacOf g.token) u ∧
          g.sentAt ≤ u + delay := by
    intro g hg hgwaiting
    cases hothers g hg with
    | inl h => rw [h] at hgwaiting; cases hgwaiting
    | inr hold =>
        cases h.waiting g hold hgwaiting with
        | inl hcookie => exact .inl hcookie
        | inr hexchanged =>
            obtain ⟨u, hexchanged, hsent⟩ := hexchanged
            exact .inr ⟨u, hexchanged.serve _, hsent⟩
  have hhistory := h.history.tail ⟨.attemptRotate a, hnext, rfl⟩
  have hfilter : b.flights.filter Flight.setsToken =
      before.filter Flight.setsToken ++ after.filter Flight.setsToken := by
    rw [hflights, List.filter_append, List.filter_cons, hnotSet]
    rfl
  have hquiet : setBy result = none → (b.sys.serve (.attemptRotate a)).db = b.sys.db →
      Shared settings start hmacOf uid sid delay
        { b with
          now := t
          sys := b.sys.serve (.attemptRotate a)
          flights := before ++ { f with answer := some (t, setBy result) } :: after } := by
    intro hnone hdb
    refine ⟨hhistory, h.drawn.serve _, ?_, hpast, hwaits, ?_⟩
    · rw [hdb]
      exact h.owner
    · apply h.current.keeps _ (fun hexchanged => hexchanged.serve _)
      · rw [hfilter, List.filter_append, List.filter_cons, hnone]
        rfl
      · intro r hr _
        rw [hdb] at hr
        exact hr
  cases hfate with
  | soft hdb => exact hquiet rfl hdb
  | expired hcurrent hexpired hdb => exact hquiet rfl hdb
  | gone hgone hdb => exact hquiet rfl hdb
  | threw hdb => exact hquiet rfl hdb
  | @rotated row result hcurrent hset hexchanged hdb =>
      obtain ⟨hrow, hmatch⟩ := AttemptRotateArgs.current_some hcurrent
      obtain ⟨_, hrowId, hrowUser⟩ := sessionHolds_iff.mp hmatch
      have hrows : ∀ r ∈ (b.sys.serve (.attemptRotate a)).db.sessions, r.id = sid →
          r = (a.update row).apply row := by
        intro r hr hid
        rw [hdb] at hr
        cases Table.mem_put.mp hr with
        | inl h => exact h
        | inr hother => exact absurd (hid.trans (hsid.symm.trans hrowId.symm)) hother.2
      cases h.waiting_cases htime hf hwaiting with
      | inr hold =>
          obtain ⟨u, ⟨c, hc, _, _, hchmac, _⟩, _⟩ := hold
          rw [hreachable.current_eq_none hc (hhmac.trans hchmac.symm)] at hcurrent
          cases hcurrent
      | inl hsettled =>
          obtain ⟨hcookie, hnone, _⟩ := hsettled
          refine ⟨hhistory, h.drawn.serve _, ?_, hpast, hwaits,
            .inr ⟨{ f with answer := some (t, setBy result) }, t, deps.newRefresh, ?_,
              congrArg (fun set => some (t, set)) hset, ?_, ?_⟩⟩
          · intro r hr hid
            rw [hrows r hr hid]
            exact hrowUser.trans huid
          · rw [hfilter] at hnone
            obtain ⟨hbefore, hafter⟩ := List.append_eq_nil_iff.mp hnone
            rw [List.filter_append, List.filter_cons, hbefore, hafter, if_pos]
            · rfl
            · simp [Flight.setsToken, hset]
          · refine ⟨a, hexchanged, huid, hsid, ?_, hnow⟩
            rw [hhmac, hcookie]
          · intro r hr hid
            rw [hrows r hr hid, ← hnew]
            rfl

theorem Shared.step
    (h : Shared settings start hmacOf uid sid delay b) (hinitial : Initial start)
    (hgrace : 2 * delay ≤ settings.sessionRefreshReuseGraceSeconds * 1000)
    (hwindow : settings.sessionRefreshReuseGraceSeconds <
      settings.sessionRefreshReuseWindowSeconds)
    (hstep : Step settings hmacOf uid sid delay b b') :
    Shared settings start hmacOf uid sid delay b' := by
  cases hstep with
  | send t htime => exact h.send htime
  | @serve before f after t htime deps ctx hflights hwaiting hserving hnext =>
      have hf : f ∈ b.flights := by
        rw [hflights]
        exact List.mem_append_right _ List.mem_cons_self
      exact h.serve hinitial htime hflights hwaiting hserving hnext
        (h.fate hinitial hgrace hwindow htime hf hwaiting hserving hnext)
  | deliver t htime hflights hanswer => exact h.deliver htime hflights hanswer
  | other t htime call hnext helsewhere => exact h.other htime hnext helsewhere

/-- A history after which the browser has the token of the session, and no
refresh is under way. -/
structure Started (settings : AuthRuntimeSettings) (start : AuthSystem)
    (hmacOf : String → String) (uid sid : Uuid) (b : Tabs) : Prop where
  history : RepositoryHistory settings start b.sys
  session : ∃ r ∈ b.sys.db.sessions, r.id = sid ∧ r.userId = uid ∧
    r.refreshHmac = some (hmacOf b.cookie)
  flights : b.flights = []

theorem Started.shared
    (h : Started settings start hmacOf uid sid b) (hinitial : Initial start) :
    Shared settings start hmacOf uid sid delay b := by
  have hreachable := RepositoryHistory.reachable hinitial h.history
  obtain ⟨r, hr, hid, huser, hhmac⟩ := h.session
  have hsame : ∀ q ∈ b.sys.db.sessions, q.id = sid → q = r :=
    fun q hq hqid => Table.eq_of_key_eq hq hr (hqid.trans hid.symm)
  have hnone : ∀ f, f ∉ b.flights := by
    intro f
    rw [h.flights]
    exact List.not_mem_nil
  constructor
  · exact h.history
  · rw [← hid]
    exact hreachable.drawn hr
  · intro q hq hqid
    rw [hsame q hq hqid]
    exact huser
  · exact fun f hf => absurd hf (hnone f)
  · exact fun f hf => absurd hf (hnone f)
  · refine .inl ⟨?_, ?_⟩
    · rw [h.flights]
      rfl
    · intro q hq hqid
      rw [hsame q hq hqid]
      exact hhmac

theorem Shared.run
    (h : Shared settings start hmacOf uid sid delay b) (hinitial : Initial start)
    (hgrace : 2 * delay ≤ settings.sessionRefreshReuseGraceSeconds * 1000)
    (hwindow : settings.sessionRefreshReuseGraceSeconds <
      settings.sessionRefreshReuseWindowSeconds)
    (hrun : Relation.ReflTransGen (Step settings hmacOf uid sid delay) b b') :
    Shared settings start hmacOf uid sid delay b' := by
  induction hrun with
  | refl => exact h
  | tail _ hstep ih => exact ih.step hinitial hgrace hwindow hstep

/-- A refresh that is answered keeps every stored session; it is refused for
good only where the session is no longer stored or its row has expired. -/
structure Unharmed (a : AttemptRotateArgs) (sys : AuthSystem)
    (result : RefreshPipelineResult) : Prop where
  kept : ∀ r ∈ sys.db.sessions,
    ∃ r' ∈ (sys.serve (.attemptRotate a)).db.sessions, r'.id = r.id ∧ r'.userId = r.userId
  refused : result = .hard → (∀ r ∈ sys.db.sessions, r.id ≠ a.sessionId) ∨
    ∃ r ∈ sys.db.sessions, r.id = a.sessionId ∧ a.expired r = true

theorem Fate.unharmed
    {a : AttemptRotateArgs} {newRefresh : String} {sys : AuthSystem}
    {result : RefreshPipelineResult}
    (h : Fate a newRefresh sys result) :
    Unharmed a sys result := by
  have hsame : (sys.serve (.attemptRotate a)).db = sys.db →
      ∀ r ∈ sys.db.sessions, ∃ r' ∈ (sys.serve (.attemptRotate a)).db.sessions,
        r'.id = r.id ∧ r'.userId = r.userId := by
    intro hdb r hr
    rw [hdb]
    exact ⟨r, hr, rfl, rfl⟩
  cases h with
  | @rotated row result hcurrent hset hexchanged hdb =>
      constructor
      · intro r hr
        rw [hdb]
        have hrow := (AttemptRotateArgs.current_some hcurrent).1
        by_cases hkey : r.id = row.id
        · have heq := Table.eq_of_key_eq hr hrow hkey
          rw [heq]
          exact ⟨_, Table.mem_put.mpr (.inl rfl), rfl, rfl⟩
        · exact ⟨r, Table.mem_put.mpr (.inr ⟨hr, hkey⟩), rfl, rfl⟩
      · intro hhard
        rw [hhard] at hset
        cases hset
  | soft hdb =>
      refine ⟨hsame hdb, ?_⟩
      intro hhard
      cases hhard
  | @expired row hcurrent hexpired hdb =>
      refine ⟨hsame hdb, fun _ => ?_⟩
      obtain ⟨hrow, hmatch⟩ := AttemptRotateArgs.current_some hcurrent
      exact .inr ⟨row, hrow, (sessionHolds_iff.mp hmatch).2.1, hexpired⟩
  | gone hgone hdb => exact ⟨hsame hdb, fun _ => .inl hgone⟩
  | threw hdb =>
      refine ⟨hsame hdb, ?_⟩
      intro hhard
      cases hhard

end Runs

/-- The tabs of a browser never lose their session to one another: whatever they
send and in whichever order it arrives, no refresh tears the session down, and
when none is under way the browser has the current token. -/
theorem tabs_keep_session
    {settings : AuthRuntimeSettings} {hmacOf : String → String} {uid sid : Uuid} {delay : ℤ}
    {start : AuthSystem} {b₀ b : Tabs}
    (hgrace : 2 * delay ≤ settings.sessionRefreshReuseGraceSeconds * 1000)
    (hsettings : settings.Accepted)
    (hinitial : Initial start) (hstarted : Started settings start hmacOf uid sid b₀)
    (hrun : Relation.ReflTransGen (Step settings hmacOf uid sid delay) b₀ b) :
    (∀ f ∈ b.flights, f.answer = none → ∀ t deps ctx, InTime delay t b →
      Serving settings hmacOf uid sid t f.token deps ctx →
      NextCall settings b.sys (.attemptRotate (rotateArgs deps ctx uid sid f.token)) →
      Unharmed (rotateArgs deps ctx uid sid f.token) b.sys
        (runRefreshPipeline deps ctx b.sys.db).result) ∧
    (b.flights = [] → ∀ r ∈ b.sys.db.sessions, r.id = sid →
      r.userId = uid ∧ r.refreshHmac = some (hmacOf b.cookie)) := by
  have h := (hstarted.shared hinitial).run hinitial hgrace hsettings.grace_lt_window hrun
  constructor
  · intro f hf hwaiting t deps ctx htime hserving hnext
    exact (h.fate hinitial hgrace hsettings.grace_lt_window htime hf hwaiting hserving hnext).unharmed
  · intro hnone r hr hid
    refine ⟨h.owner r hr hid, ?_⟩
    cases h.current with
    | inl hsettled => exact hsettled.2 r hr hid
    | inr hpending =>
        obtain ⟨f, _, _, hfilter, _⟩ := hpending
        rw [hnone] at hfilter
        cases hfilter

/-- A service whose collaborators answer. -/
def answeringDeps (newRefresh : String) (usedTokenId : Uuid) (now : ℤ) :
    RefreshPipelineDeps where
  settings := defaultSettings
  drawT := some 300
  verifyAccessToken _ := some ⟨1, some 10, false, 0⟩
  signAccessToken _ := some "access"
  hmacRefreshToken token := "hmac " ++ token
  newRefresh := newRefresh
  auditOk _ := true
  rotateFails _ := false
  invalidateFails _ := false
  now := now
  usedTokenId := usedTokenId
  usedClock := now
  sessionClock := now

def sampleContext : RefreshRequestContext where
  accessToken := some "access"
  refreshToken := some "1"
  sourceIp := none
  protocol := none
  host := none
  contextPath := refreshPath
  userAgent := none

theorem sampleServing (newRefresh : String) (usedTokenId : Uuid) (now : ℤ) :
    Serving defaultSettings ("hmac " ++ ·) 1 10 now "1"
      (answeringDeps newRefresh usedTokenId now) sampleContext where
  clock := rfl
  settings := rfl
  hmac := rfl
  drawn := Option.some_ne_none 300
  access := ⟨"access", ⟨1, some 10, false, 0⟩, rfl, rfl, rfl, rfl, rfl⟩
  refresh := rfl
  signs _ := Option.some_ne_none "access"
  audits _ := rfl
  lasts := rfl

/-- A browser that has just logged in. -/
def loggedInTabs : Tabs where
  now := 0
  sys := sampleStart.serve (.create sampleSession 0)
  cookie := "1"
  flights := []

def firstArgs : AttemptRotateArgs :=
  rotateArgs (answeringDeps "2" 20 11000) sampleContext 1 10 "1"

/-- Two tabs have sent the same token, and the service has answered the first. -/
def twoTabs : Tabs where
  now := 11000
  sys := loggedInTabs.sys.serve (.attemptRotate firstArgs)
  cookie := "1"
  flights := [⟨"1", 10000, some (11000, setBy
      (runRefreshPipeline (answeringDeps "2" 20 11000) sampleContext loggedInTabs.sys.db).result)⟩,
    ⟨"1", 10500, none⟩]

theorem twoTabs_reached :
    Relation.ReflTransGen (Step defaultSettings ("hmac " ++ ·) 1 10 7000) loggedInTabs twoTabs := by
  have hnone : InTime 7000 10000 loggedInTabs := by
    refine ⟨by decide, ?_⟩
    intro f hf
    cases hf
  have hfirst := @Step.send defaultSettings ("hmac " ++ ·) 1 10 7000 loggedInTabs 10000 hnone
  have hone : InTime 7000 10500
      { loggedInTabs with now := 10000, flights := [⟨"1", 10000, none⟩] } := by
    refine ⟨by decide, ?_⟩
    intro f hf
    rw [List.mem_singleton.mp hf]
    decide
  have hsecond := @Step.send defaultSettings ("hmac " ++ ·) 1 10 7000 _ 10500 hone
  have htwo : InTime 7000 11000 { loggedInTabs with
      now := 10500, flights := [⟨"1", 10000, none⟩, ⟨"1", 10500, none⟩] } := by
    refine ⟨by decide, ?_⟩
    intro f hf
    simp only [List.mem_cons, List.not_mem_nil, or_false] at hf
    cases hf with
    | inl h => rw [h]; decide
    | inr h => rw [h]; decide
  have hnext : NextCall defaultSettings loggedInTabs.sys (.attemptRotate firstArgs) := by
    decide +kernel
  have hthird := @Step.serve defaultSettings ("hmac " ++ ·) 1 10 7000 _ [] ⟨"1", 10000, none⟩
    [⟨"1", 10500, none⟩] 11000 htwo (answeringDeps "2" 20 11000) sampleContext rfl rfl
    (sampleServing "2" 20 11000) hnext
  exact ((Relation.ReflTransGen.single hfirst).tail hsecond).tail hthird

/-- The second tab comes with the consumed token. -/
theorem tabs_keep_session_two :
    Unharmed (rotateArgs (answeringDeps "3" 21 12000) sampleContext 1 10 "1") twoTabs.sys
      (runRefreshPipeline (answeringDeps "3" 21 12000) sampleContext twoTabs.sys.db).result := by
  have hstarted : Started defaultSettings sampleStart ("hmac " ++ ·) 1 10 loggedInTabs := by
    refine ⟨.single ⟨_, by decide +kernel, rfl⟩, ?_, rfl⟩
    decide +kernel
  have haccepted : defaultSettings.Accepted := by
    constructor <;> decide
  have htime : InTime 7000 12000 twoTabs := by
    refine ⟨by decide, ?_⟩
    intro f hf
    simp only [twoTabs, List.mem_cons, List.not_mem_nil, or_false] at hf
    cases hf with
    | inl h => rw [h]; simp [Flight.since]
    | inr h => rw [h]; decide
  have hnext : NextCall defaultSettings twoTabs.sys
      (.attemptRotate (rotateArgs (answeringDeps "3" 21 12000) sampleContext 1 10 "1")) := by
    decide +kernel
  exact (tabs_keep_session (by decide) haccepted sampleStart_initial hstarted
    twoTabs_reached).1 ⟨"1", 10500, none⟩ (by simp [twoTabs]) rfl 12000 _ _ htime
      (sampleServing "3" 21 12000) hnext

end Untangled.BrowserTabs
